import InlineCache.Registry

/-! The class tree seen through the ancestry of a class. The ancestry depends on the superclasses
alone and a lookup on the ancestry alone, so a change of a class that is not an ancestor is
invisible to the lookups on a class. -/
namespace InlineCache.Registry

variable {β : Type}

theorem lt_of_entry {r : Registry β} {c : ClassId} {e : ClassEntry β} (h : r.entry? c = some e) :
    c.number < r.classes.size := (Array.getElem?_eq_some_iff.mp h).1

theorem entry_isSome_iff {r : Registry β} {c : ClassId} :
    (r.entry? c).isSome = true ↔ c.number < r.classes.size := by
  unfold entry?
  simp

/-- A class that is found by its name is there. -/
theorem exists_entry_of_classId {r : Registry β} {name : String} {c : ClassId}
    (h : r.classId? name = some c) : ∃ e, r.entry? c = some e := by
  obtain ⟨i, hi, rfl⟩ := Option.map_eq_some_iff.mp h
  obtain ⟨hlt, _⟩ := Array.findIdx?_eq_some_iff_getElem.mp hi
  exact ⟨_, Array.getElem?_eq_getElem hlt⟩

theorem ancestry_of_none {r : Registry β} {c : ClassId} (h : r.entry? c = none) :
    r.ancestry c = [] := by
  rw [ancestry, h]

theorem ancestry_of_some {r : Registry β} {c : ClassId} {e : ClassEntry β} (h : r.entry? c = some e) :
    r.ancestry c = c :: match e.superclass with
      | none => []
      | some s => if s.number < c.number then r.ancestry s else [] := by
  rw [ancestry, h]
  cases hs : e.superclass with
  | none => simp only [hs]
  | some s => simp only [hs, dite_eq_ite]

/-- The ancestry of a class by its own recursion: a class that is not defined, a root (or a link
that does not lead down), and a class below another. -/
theorem ancestry_induct {r : Registry β} {motive : ClassId → Prop}
    (undefined : ∀ c, r.entry? c = none → motive c)
    (root : ∀ c e, r.entry? c = some e → r.ancestry c = [c] → motive c)
    (below : ∀ c e s, r.entry? c = some e → e.superclass = some s → s.number < c.number →
      r.ancestry c = c :: r.ancestry s → motive s → motive c) (c : ClassId) : motive c := by
  induction hn : c.number using Nat.strongRecOn generalizing c with
  | ind n ih =>
    subst hn
    cases he : r.entry? c with
    | none => exact undefined c he
    | some e =>
      have ha := ancestry_of_some he
      cases hs : e.superclass with
      | none => exact root c e he (by simpa [hs] using ha)
      | some s =>
        by_cases hlt : s.number < c.number
        · exact below c e s he hs hlt (by simpa [hs, hlt] using ha) (ih s.number hlt s rfl)
        · exact root c e he (by simpa [hs, hlt] using ha)

theorem self_mem_ancestry {r : Registry β} {c : ClassId} {e : ClassEntry β}
    (h : r.entry? c = some e) : c ∈ r.ancestry c := by
  rw [ancestry_of_some h]
  exact List.mem_cons_self

theorem defined_of_mem_ancestry {r : Registry β} {c a : ClassId} (h : a ∈ r.ancestry c) :
    ∃ e, r.entry? a = some e := by
  induction c using ancestry_induct (r := r) with
  | undefined c he => simp [ancestry_of_none he] at h
  | root c e he ha =>
    rw [ha, List.mem_singleton] at h
    exact ⟨e, h ▸ he⟩
  | below c e s he _ _ ha ih =>
    rw [ha, List.mem_cons] at h
    obtain rfl | h := h
    · exact ⟨e, he⟩
    · exact ih h

theorem mem_ancestry_trans {r : Registry β} {c a b : ClassId} (ha : a ∈ r.ancestry c)
    (hb : b ∈ r.ancestry a) : b ∈ r.ancestry c := by
  induction c using ancestry_induct (r := r) with
  | undefined c he => simp [ancestry_of_none he] at ha
  | root c e he hc =>
    rw [hc, List.mem_singleton] at ha
    exact ha ▸ hb
  | below c e s _ _ _ hc ih =>
    rw [hc, List.mem_cons] at ha
    obtain rfl | ha := ha
    · exact hb
    · rw [hc]
      exact List.mem_cons_of_mem c (ih ha)

theorem inherits_iff {r : Registry β} {c a : ClassId} :
    r.inherits c a = true ↔ a ∈ r.ancestry c := by
  simp [inherits]

theorem defined_of_inherits {r : Registry β} {c a : ClassId} (h : r.inherits c a = true) :
    ∃ e, r.entry? c = some e := by
  cases he : r.entry? c with
  | none => simp [inherits, ancestry_of_none he] at h
  | some e => exact ⟨e, rfl⟩

/-- The ancestry of a class depends on the superclasses up to the class itself. -/
theorem ancestry_congr {r r' : Registry β} (c : ClassId)
    (h : ∀ x : ClassId, x.number ≤ c.number →
      (r'.entry? x).map ClassEntry.superclass = (r.entry? x).map ClassEntry.superclass) :
    r'.ancestry c = r.ancestry c := by
  induction hn : c.number using Nat.strongRecOn generalizing c with
  | ind n ih =>
    subst hn
    have hc := h c (Nat.le_refl _)
    cases he : r.entry? c with
    | none =>
      rw [he, Option.map_none, Option.map_eq_none_iff] at hc
      rw [ancestry_of_none he, ancestry_of_none hc]
    | some e =>
      rw [he, Option.map_some, Option.map_eq_some_iff] at hc
      obtain ⟨e', he', hs⟩ := hc
      rw [ancestry_of_some he, ancestry_of_some he', hs]
      cases e.superclass with
      | none => rfl
      | some s =>
        by_cases hlt : s.number < c.number
        · simp only [hlt, if_true]
          rw [ih s.number hlt s (fun x hx => h x (by omega)) rfl]
        · simp only [hlt, if_false]

theorem inherits_congr {r r' : Registry β} {c a : ClassId} (h : r'.ancestry c = r.ancestry c) :
    r'.inherits c a = r.inherits c a := by
  rw [inherits, inherits, h]

/-- The nearest definition is that of the class itself, if it has one. -/
theorem find?_of_some {r : Registry β} {c : ClassId} {e : ClassEntry β} (h : r.entry? c = some e)
    (name : String) : r.find? c name = (e.methods.get? name).or (match e.superclass with
      | none => none
      | some s => if s.number < c.number then r.find? s name else none) := by
  rw [find?, ancestry_of_some h, List.findSome?_cons, h, Option.bind_some]
  cases e.methods.get? name with
  | some m => rfl
  | none =>
    cases e.superclass with
    | none => rfl
    | some s => by_cases hlt : s.number < c.number <;> simp [hlt, find?]

/-- A lookup reads the method tables along the ancestry and nothing else. -/
theorem find?_congr {r r' : Registry β} {c : ClassId} (ha : r'.ancestry c = r.ancestry c)
    (ht : ∀ a ∈ r.ancestry c,
      (r'.entry? a).map ClassEntry.methods = (r.entry? a).map ClassEntry.methods) (name : String) :
    r'.find? c name = r.find? c name := by
  rw [find?, find?, ha]
  have hg : ∀ (s : Registry β) (a : ClassId),
      ((s.entry? a).bind fun e => e.methods.get? name) =
        ((s.entry? a).map ClassEntry.methods).bind fun t => t.get? name := by
    intro s a
    cases s.entry? a <;> rfl
  generalize r.ancestry c = chain at ht
  induction chain with
  | nil => rfl
  | cons a rest ih =>
    rw [List.findSome?_cons, List.findSome?_cons, hg r' a, hg r a, ht a List.mem_cons_self,
      ih fun b hb => ht b (List.mem_cons_of_mem a hb)]

/-- The full lookup on a class whose own entry is the same, and likewise the method tables above. -/
theorem resolve_congr {r r' : Registry β} {c : ClassId} (he : r'.entry? c = r.entry? c)
    (ha : r'.ancestry c = r.ancestry c)
    (ht : ∀ a ∈ r.ancestry c,
      (r'.entry? a).map ClassEntry.methods = (r.entry? a).map ClassEntry.methods)
    (name : String) (ignoreVisibility : Bool) :
    r'.resolve c name ignoreVisibility = r.resolve c name ignoreVisibility := by
  rw [resolve, resolve, he, find?_congr ha ht name]

@[simp] theorem classId_resolve (r : Registry β) (c : ClassId) (name : String) (iv : Bool) :
    (r.resolve c name iv).classId = c := by
  rw [resolve]
  cases r.entry? c <;> rfl

theorem token_resolve (r : Registry β) (c : ClassId) (name : String) (iv : Bool) :
    (r.resolve c name iv).token = r.currentToken? c := by
  rw [resolve, currentToken?]
  cases r.entry? c <;> rfl

theorem currentToken?_eq_some {r : Registry β} {c : ClassId} {t : TokenId} :
    r.currentToken? c = some t ↔ ∃ e, r.entry? c = some e ∧ e.unmodified.current = t := by
  rw [currentToken?, Option.map_eq_some_iff]

/-- Only a class that is defined has methods. -/
theorem currentToken_of_found {r : Registry β} {c : ClassId} {name : String} {iv : Bool}
    {m : Method β} (h : (r.resolve c name iv).method = some m) : ∃ t, r.currentToken? c = some t := by
  cases he : r.entry? c with
  | none =>
    rw [resolve, he] at h
    cases h
  | some e => exact ⟨e.unmodified.current, currentToken?_eq_some.mpr ⟨e, he, rfl⟩⟩

end InlineCache.Registry
