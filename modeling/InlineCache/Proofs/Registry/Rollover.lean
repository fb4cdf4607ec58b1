import InlineCache.Proofs.Registry.Tree

/-! Replacing the tokens of classes. Rolling a class over ends its current token and hands out a
fresh one; rolling over everything below a class does so for exactly these classes, and no other
token of the store and no other entry of the registry is touched. -/
namespace InlineCache

namespace TokenStore

/-- Whether a token was ever made. -/
def Made (s : TokenStore) (t : TokenId) : Prop := t.place < s.entries.size

theorem made_of_valid {s : TokenStore} {t : TokenId} (h : s.isValid t = true) : s.Made t := by
  rw [isValid, get?, Option.any_eq_true] at h
  obtain ⟨token, ht, _⟩ := h
  exact (Array.getElem?_eq_some_iff.mp ht).1

@[simp] theorem size_fresh (s : TokenStore) (name : String) :
    (s.fresh name).1.entries.size = s.entries.size + 1 := by
  simp [fresh]

@[simp] theorem size_invalidate (s : TokenStore) (t : TokenId) :
    (s.invalidate t).entries.size = s.entries.size := by
  simp [invalidate]

theorem isValid_fresh {s : TokenStore} {t : TokenId} (name : String) (h : s.Made t) :
    (s.fresh name).1.isValid t = s.isValid t := by
  have hne : t.place ≠ s.entries.size := Nat.ne_of_lt h
  simp [isValid, get?, fresh, Array.getElem?_push, hne]

end TokenStore

namespace Registry

variable {β : Type}

/-- What a registry keeps true of itself: superclasses come before their subclasses, and the
current tokens of the classes were made and belong to one class each. -/
structure WellFormed (r : Registry β) : Prop where
  superclass_lt : ∀ c e s, r.entry? c = some e → e.superclass = some s → s.number < c.number
  made : ∀ c t, r.currentToken? c = some t → r.tokens.Made t
  unique : ∀ c d t, r.currentToken? c = some t → r.currentToken? d = some t → c = d

/-- One registry is another with the tokens of some classes replaced by fresh ones. -/
structure RolledOver (r r' : Registry β) (rolled : ClassId → Prop) : Prop where
  size : r'.classes.size = r.classes.size
  grown : r.tokens.entries.size ≤ r'.tokens.entries.size
  isValid : ∀ t, r.tokens.Made t → (r'.tokens.isValid t = true ↔
    r.tokens.isValid t = true ∧ ∀ c, rolled c → r.currentToken? c ≠ some t)
  kept : ∀ c, ¬ rolled c → r'.entry? c = r.entry? c
  fresh : ∀ c e, rolled c → r.entry? c = some e → ∃ u : RollingToken,
    r'.entry? c = some { e with unmodified := u } ∧ r.tokens.entries.size ≤ u.current.place ∧
      r'.tokens.isValid u.current = true

/-- The rolling token of a class after a rollover. -/
def rolledToken (r : Registry β) (e : ClassEntry β) : RollingToken :=
  { e.unmodified with current := ⟨r.tokens.entries.size⟩, version := e.unmodified.version + 1 }

theorem rollClass_of_some {r : Registry β} {c : ClassId} {e : ClassEntry β}
    (h : r.entry? c = some e) :
    r.rollClass c = { tokens := (r.tokens.fresh e.unmodified.name).1.invalidate e.unmodified.current
                      classes := r.classes.modify c.number fun e' =>
                        { e' with unmodified := r.rolledToken e } } := by
  rw [rollClass, h]
  rfl

theorem rollClass_of_none {r : Registry β} {c : ClassId} (h : r.entry? c = none) :
    r.rollClass c = r := by
  rw [rollClass, h]

theorem entry_modify (r : Registry β) (tokens : TokenStore) (c x : ClassId)
    (f : ClassEntry β → ClassEntry β) :
    entry? { tokens, classes := r.classes.modify c.number f } x =
      if x = c then (r.entry? x).map f else r.entry? x := by
  unfold entry?
  by_cases hx : x = c
  · subst hx
    simp [Array.getElem?_modify]
  · have hn : c.number ≠ x.number := fun hn => hx (by cases x; cases c; simp_all)
    simp [Array.getElem?_modify, hn, hx]

@[simp] theorem size_rollClass (r : Registry β) (c : ClassId) :
    (r.rollClass c).classes.size = r.classes.size := by
  cases h : r.entry? c with
  | none => rw [rollClass_of_none h]
  | some e => rw [rollClass_of_some h, Array.size_modify]

theorem entry_rollClass_self {r : Registry β} {c : ClassId} {e : ClassEntry β}
    (h : r.entry? c = some e) :
    entry? (r.rollClass c) c = some { e with unmodified := r.rolledToken e } := by
  rw [rollClass_of_some h, entry_modify, if_pos rfl, h]
  rfl

theorem entry_rollClass_of_ne {r : Registry β} {c x : ClassId} (hx : x ≠ c) :
    entry? (r.rollClass c) x = r.entry? x := by
  cases h : r.entry? c with
  | none => rw [rollClass_of_none h]
  | some e => rw [rollClass_of_some h, entry_modify, if_neg hx]

/-- Rolling a class over ends its current token and no other. -/
theorem isValid_rollClass {r : Registry β} {c : ClassId} {t : TokenId} (h : r.tokens.Made t) :
    (r.rollClass c).tokens.isValid t = true ↔
      r.tokens.isValid t = true ∧ r.currentToken? c ≠ some t := by
  cases he : r.entry? c with
  | none =>
    rw [rollClass_of_none he, currentToken?, he]
    simp
  | some e =>
    rw [rollClass_of_some he, currentToken?, he]
    simp only [TokenStore.isValid_invalidate, TokenStore.isValid_fresh _ h, Bool.and_eq_true,
      decide_eq_true_eq, Option.map_some, ne_eq, Option.some.injEq]
    exact and_comm

theorem size_tokens_rollClass (r : Registry β) (c : ClassId) :
    r.tokens.entries.size ≤ (r.rollClass c).tokens.entries.size := by
  cases h : r.entry? c with
  | none => exact Nat.le_of_eq (by rw [rollClass_of_none h])
  | some e =>
    rw [rollClass_of_some h, TokenStore.size_invalidate, TokenStore.size_fresh]
    omega

/-- The token handed out by a rollover is valid; its place is new. -/
theorem isValid_rolledToken {r : Registry β} {c : ClassId} {e : ClassEntry β}
    (h : r.entry? c = some e) (hm : r.tokens.Made e.unmodified.current) :
    (r.rollClass c).tokens.isValid (r.rolledToken e).current = true := by
  have hne : e.unmodified.current ≠ (r.rolledToken e).current :=
    fun he => absurd (he ▸ hm) (Nat.lt_irrefl _)
  rw [rollClass_of_some h, TokenStore.isValid_invalidate, Bool.and_eq_true, decide_eq_true_eq]
  exact ⟨hne, TokenStore.isValid_fresh_self r.tokens e.unmodified.name⟩

theorem WellFormed.rollClass {r : Registry β} (h : r.WellFormed) (c : ClassId) :
    (r.rollClass c).WellFormed := by
  cases he : r.entry? c with
  | none => rwa [rollClass_of_none he]
  | some e =>
    have hsize : (r.rollClass c).tokens.entries.size = r.tokens.entries.size + 1 := by
      rw [rollClass_of_some he, TokenStore.size_invalidate, TokenStore.size_fresh]
    have hself : (r.rollClass c).currentToken? c = some ⟨r.tokens.entries.size⟩ := by
      rw [currentToken?, entry_rollClass_self he]
      rfl
    have hother : ∀ x, x ≠ c → (r.rollClass c).currentToken? x = r.currentToken? x := by
      intro x hx
      rw [currentToken?, currentToken?, entry_rollClass_of_ne hx]
    have hold : ∀ x t, x ≠ c → (r.rollClass c).currentToken? x = some t → r.tokens.Made t :=
      fun x t hx ht => h.made x t (hother x hx ▸ ht)
    refine ⟨?_, ?_, ?_⟩
    · intro x ex s hx hs
      by_cases hxc : x = c
      · subst hxc
        rw [entry_rollClass_self he, Option.some.injEq] at hx
        exact h.superclass_lt x e s he (by rw [← hs, ← hx])
      · exact h.superclass_lt x ex s (entry_rollClass_of_ne hxc ▸ hx) hs
    · intro x t ht
      rw [TokenStore.Made, hsize]
      by_cases hxc : x = c
      · rw [hxc, hself, Option.some.injEq] at ht
        rw [← ht]
        exact Nat.lt_succ_self _
      · exact Nat.lt_succ_of_lt (hold x t hxc ht)
    · intro x y t hx hy
      by_cases hxc : x = c <;> by_cases hyc : y = c
      · rw [hxc, hyc]
      · rw [hxc, hself, Option.some.injEq] at hx
        exact absurd (hx ▸ hold y t hyc hy) (Nat.lt_irrefl _)
      · rw [hyc, hself, Option.some.injEq] at hy
        exact absurd (hy ▸ hold x t hxc hx) (Nat.lt_irrefl _)
      · exact h.unique x y t (hother x hxc ▸ hx) (hother y hyc ▸ hy)

namespace RolledOver

theorem refl (r : Registry β) : RolledOver r r fun _ => False :=
  ⟨rfl, Nat.le_refl _, by simp, fun _ _ => rfl, fun _ _ h => h.elim⟩

/-- One more class rolled over. A class is taken at most once, so its token is still the old one. -/
theorem rollClass {r r' : Registry β} {rolled : ClassId → Prop} (h : RolledOver r r' rolled)
    (hw : r'.WellFormed) {c : ClassId} (hc : ¬ rolled c) :
    RolledOver r (r'.rollClass c) fun x => rolled x ∨ x = c := by
  have hcur : ∀ x, ¬ rolled x → r'.currentToken? x = r.currentToken? x := by
    intro x hx
    rw [currentToken?, currentToken?, h.kept x hx]
  refine ⟨by rw [size_rollClass, h.size], Nat.le_trans h.grown (size_tokens_rollClass r' c), ?_, ?_, ?_⟩
  · intro t ht
    have ht' : r'.tokens.Made t := Nat.lt_of_lt_of_le ht h.grown
    rw [isValid_rollClass ht', h.isValid t ht, hcur c hc]
    constructor
    · rintro ⟨⟨hv, hold⟩, hnew⟩
      refine ⟨hv, ?_⟩
      rintro x (hx | rfl)
      · exact hold x hx
      · exact hnew
    · rintro ⟨hv, hall⟩
      exact ⟨⟨hv, fun x hx => hall x (.inl hx)⟩, hall c (.inr rfl)⟩
  · intro x hx
    rw [entry_rollClass_of_ne fun he => hx (.inr he), h.kept x fun he => hx (.inl he)]
  · intro x e hx he
    by_cases hxc : x = c
    · subst hxc
      have he' : r'.entry? x = some e := by rw [h.kept x hc, he]
      refine ⟨r'.rolledToken e, entry_rollClass_self he', h.grown, isValid_rolledToken he' ?_⟩
      exact hw.made x _ (currentToken?_eq_some.mpr ⟨e, he', rfl⟩)
    · obtain ⟨u, hu, hplace, hvalid⟩ := h.fresh x e (hx.resolve_right hxc) he
      refine ⟨u, by rw [entry_rollClass_of_ne hxc, hu], hplace, ?_⟩
      rw [isValid_rollClass (TokenStore.made_of_valid hvalid)]
      refine ⟨hvalid, fun hc' => hxc ?_⟩
      exact hw.unique x c u.current (currentToken?_eq_some.mpr ⟨_, hu, rfl⟩) hc'

end RolledOver

/-- Rolling over a list of classes without repetition. -/
theorem rolledOver_foldl {r : Registry β} (places : List Nat) (hn : places.Nodup) {r' : Registry β}
    {rolled : ClassId → Prop} (h : RolledOver r r' rolled) (hw : r'.WellFormed)
    (hnew : ∀ i ∈ places, ¬ rolled ⟨i⟩) :
    let last := places.foldl (fun r i => r.rollClass ⟨i⟩) r'
    RolledOver r last (fun x => rolled x ∨ x.number ∈ places) ∧ last.WellFormed := by
  induction places generalizing r' rolled with
  | nil =>
    refine ⟨?_, hw⟩
    simpa using h
  | cons i rest ih =>
    obtain ⟨hi, hrest⟩ := List.nodup_cons.mp hn
    have hstep := h.rollClass hw (hnew i List.mem_cons_self)
    have hlater : ∀ j ∈ rest, ¬ (rolled ⟨j⟩ ∨ (⟨j⟩ : ClassId) = ⟨i⟩) := by
      rintro j hj (hr | he)
      · exact hnew j (List.mem_cons_of_mem i hj) hr
      · exact hi (ClassId.mk.inj he ▸ hj)
    obtain ⟨hover, hwf⟩ := ih hrest hstep (hw.rollClass ⟨i⟩) hlater
    refine ⟨?_, hwf⟩
    have hset : (fun x : ClassId => (rolled x ∨ x = ⟨i⟩) ∨ x.number ∈ rest) =
        fun x => rolled x ∨ x.number ∈ i :: rest := by
      funext x
      cases x
      simp only [ClassId.mk.injEq, List.mem_cons, or_assoc]
    rwa [hset] at hover

/-- Rolling over what is below a class takes exactly the classes that inherit from it. -/
theorem rolledOver_rollBelow {r : Registry β} (hw : r.WellFormed) (c : ClassId) :
    RolledOver r (r.rollBelow c) (fun x => r.inherits x c = true) ∧ (r.rollBelow c).WellFormed := by
  have hn : ((List.range r.classes.size).filter fun i => r.inherits ⟨i⟩ c).Nodup :=
    List.nodup_range.filter _
  obtain ⟨hover, hwf⟩ := rolledOver_foldl _ hn (RolledOver.refl r) hw fun _ _ h => h
  refine ⟨?_, hwf⟩
  have hset : (fun x : ClassId => False ∨
      x.number ∈ (List.range r.classes.size).filter fun i => r.inherits ⟨i⟩ c) =
        fun x => r.inherits x c = true := by
    funext x
    simp only [false_or, List.mem_filter, List.mem_range, eq_iff_iff]
    refine ⟨And.right, fun hx => ⟨?_, hx⟩⟩
    obtain ⟨e, he⟩ := defined_of_inherits hx
    exact lt_of_entry he
  rwa [hset] at hover

end Registry
end InlineCache
