import InlineCache.Proofs.Registry.Hierarchy

/-! Lookups against the history. What a class has under a name is what the last definition or removal
of that name on the class itself has left there, whatever happened to other names and classes; and a
lookup finds the nearest class, going up, that has something left. -/
namespace InlineCache.Registry

variable {β : Type}

/-- The last thing of a kind that a history did. Whether an operation does something of the kind may
depend on the registry that it is done to. -/
def last? {α : Type} (does? : Registry β → Operation β → Option α) (r : Registry β) :
    List (Operation β) → Option α
  | [] => none
  | op :: rest => (last? does? (r.perform op) rest).or (does? r op)

/-- What a definition or removal of a name on a class leaves there, unless it is refused. -/
def leaves? (name : String) (a : ClassId) (r : Registry β) : Operation β → Option (Option (Method β))
  | .defineMethod m =>
    if m.name = name ∧ m.owner = a ∧ (r.defineMethod m).isOk then some (some m) else none
  | .removeMethod c n =>
    if n = name ∧ c = a ∧ (r.removeMethod c n).isOk then some none else none
  | _ => none

/-- The value that an operation sets for whether a class may be cached, unless it is refused. -/
def sets? (a : ClassId) (r : Registry β) : Operation β → Option Bool
  | .setCacheable c cacheable =>
    if c = a ∧ (r.setCacheable c cacheable).isOk then some cacheable else none
  | _ => none

/-- The definition of a name on a class that a history leaves in force: the last definition, unless a
removal came after it. -/
def inForce? (name : String) (ops : List (Operation β)) (a : ClassId) : Option (Method β) :=
  (last? (leaves? name a) builtin ops).join

/-- The first class of which something holds, going up from a class. -/
structure Nearest (r : Registry β) (P : ClassId → Prop) (c a : ClassId) : Prop where
  above : r.Descends c a
  holds : P a
  first : ∀ b, r.Descends c b → P b → r.Descends a b

/-- What every operation does to a view of the registry, a history does by the last operation that does
something to it. -/
theorem view_performAll {α : Type} (view : Registry β → α)
    {does? : Registry β → Operation β → Option α}
    (h : ∀ r op, view (r.perform op) = (does? r op).getD (view r)) (r : Registry β)
    (ops : List (Operation β)) : view (r.performAll ops) = (last? does? r ops).getD (view r) := by
  induction ops generalizing r with
  | nil => rfl
  | cons op rest ih =>
    rw [performAll, List.foldl_cons, ← performAll, ih, h, last?]
    cases last? does? (r.perform op) rest <;> rfl

section Step

/-- A class seen through a view that does not show its token, after a change of some class. -/
theorem map_entry_change {γ : Type} {g : ClassEntry β → γ} (hg : ClassEntry.Tokenless g)
    (r : Registry β) (c x : ClassId) (f : ClassEntry β → ClassEntry β) :
    (Registry.entry? (r.change c f) x).map g =
      if x = c then (r.entry? x).map (g ∘ f) else (r.entry? x).map g := by
  have hview := congrArg (fun gs : Array γ => gs[x.number]?) (map_change hg r c f)
  simp only [Array.getElem?_map] at hview
  refine hview.trans ?_
  rw [← entry?, entry_edited]
  split <;> simp

theorem entry_addClass (r : Registry β) (name : String) (superclass : Option ClassId) (x : ClassId) :
    (∃ e, Registry.entry? (r.addClass name superclass) x = some e ∧ e.methods = {} ∧
      e.cacheable = true ∧ r.entry? x = none) ∨
    Registry.entry? (r.addClass name superclass) x = r.entry? x := by
  by_cases hx : x.number = r.classes.size
  · let unmodified := (RollingToken.start r.tokens (name ++ " unmodified")).2
    refine .inl ⟨{ name, superclass, unmodified }, ?_, rfl, rfl, ?_⟩
    · simp [addClass, entry?, hx, unmodified]
    · simp [hx, entry?]
  · exact .inr (by simp [addClass, entry?, Array.getElem?_push, hx])

/-- A view of one class that takes new classes for undefined ones, and does not show tokens, is the same
after a definition of a class. -/
theorem perform_defineClass {α : Type} (view : Registry β → α)
    (h : ∀ r name superclass, view (r.addClass name superclass) = view r) (r : Registry β)
    (name : String) (superclass : Option ClassId) :
    view (r.perform (.defineClass name superclass)) = view r := by
  by_cases hs : r.Defined (superclass.getD .object)
  · cases hn : r.classId? name with
    | none => simpa [perform, defineClass_eq, hs, hn] using h r name _
    | some c => simp [perform, defineClass_eq, hs, hn]
  · simp [perform, defineClass_eq, hs]

theorem own_eq_map (r : Registry β) (name : String) (a : ClassId) :
    r.own? name a = ((r.entry? a).map ClassEntry.methods).bind fun t => t.get? name := by
  rw [own?]
  cases r.entry? a <;> rfl

theorem own_change (r : Registry β) (name : String) (c a : ClassId) (f : ClassEntry β → ClassEntry β) :
    (r.change c f).own? name a =
      if a = c then (r.entry? a).bind fun e => (f e).methods.get? name else r.own? name a := by
  rw [own_eq_map, map_entry_change (fun _ _ => rfl)]
  split
  · cases r.entry? a <;> rfl
  · rw [own_eq_map]

/-- What an operation does to the method that a class itself has under a name. -/
theorem own_perform (name : String) (a : ClassId) (r : Registry β) (op : Operation β) :
    (r.perform op).own? name a = (leaves? name a r op).getD (r.own? name a) := by
  cases op with
  | defineClass n superclass =>
    refine perform_defineClass (fun r => r.own? name a) (fun r n s => ?_) r n superclass
    obtain ⟨e, he, hm, _, hn⟩ | he := entry_addClass r n s a
    · simp [own?, he, hm, hn]
    · simp only [own?, he]
  | setCacheable c cacheable =>
    by_cases hc : r.Defined c
    · simp only [perform, setCacheable_eq, hc, if_true, own_change, leaves?, Option.getD_none]
      split <;> rfl
    · simp [perform, setCacheable_eq, leaves?, hc]
  | defineMethod m =>
    by_cases hc : r.Defined m.owner
    · simp only [perform, defineMethod_eq, hc, if_true, own_change, leaves?, Except.isOk,
        Except.toBool, and_true]
      by_cases ha : a = m.owner
      · subst ha
        obtain ⟨e, he⟩ := Option.isSome_iff_exists.mp hc
        by_cases hn : m.name = name <;> simp [hn, he, own?]
      · simp [ha, Ne.symm ha]
    · simp [perform, defineMethod_eq, leaves?, hc, Except.isOk, Except.toBool]
  | removeMethod c n =>
    by_cases hc : r.Defined c
    · by_cases hm : (r.own? n c).isSome = true
      · simp only [perform, removeMethod_eq, hc, hm, if_true, own_change, leaves?, Except.isOk,
          Except.toBool, and_true]
        by_cases ha : a = c
        · subst ha
          obtain ⟨e, he⟩ := Option.isSome_iff_exists.mp hc
          by_cases hn : n = name <;> simp [hn, he, own?]
        · simp [ha, Ne.symm ha]
      · -- a removal that finds nothing leaves nothing, as it was
        simp only [perform, removeMethod_eq, hc, hm, if_true, Bool.false_eq_true, if_false, leaves?,
          Except.isOk, Except.toBool, and_true]
        split
        · rename_i heq
          obtain ⟨rfl, rfl⟩ := heq
          exact Option.not_isSome_iff_eq_none.mp hm
        · rfl
    · simp [perform, removeMethod_eq, leaves?, hc, Except.isOk, Except.toBool]
  | freshToken n => rfl
  | invalidateToken t => rfl

/-- Whether a class may be cached; one that is not defined is taken for a new one. -/
def cacheable (r : Registry β) (a : ClassId) : Bool :=
  ((r.entry? a).map ClassEntry.cacheable).getD true

/-- What an operation does to whether a class may be cached. -/
theorem cacheable_perform (a : ClassId) (r : Registry β) (op : Operation β) :
    (r.perform op).cacheable a = (sets? a r op).getD (r.cacheable a) := by
  have hchange : ∀ c {f : ClassEntry β → ClassEntry β}, (∀ e, (f e).cacheable = e.cacheable) →
      (r.change c f).cacheable a = r.cacheable a := by
    intro c f hf
    rw [cacheable, cacheable, map_entry_change (fun _ _ => rfl)]
    split
    · exact congrArg (fun g => ((r.entry? a).map g).getD true) (funext hf)
    · rfl
  cases op with
  | defineClass n superclass =>
    refine perform_defineClass (fun r => r.cacheable a) (fun r n s => ?_) r n superclass
    obtain ⟨e, he, _, hb, hn⟩ | he := entry_addClass r n s a
    · simp [cacheable, he, hb, hn]
    · simp only [cacheable, he]
  | setCacheable c b =>
    by_cases hc : r.Defined c
    · simp only [perform, setCacheable_eq, hc, if_true, sets?, cacheable,
        map_entry_change (g := ClassEntry.cacheable) (fun _ _ => rfl), Except.isOk, Except.toBool,
        and_true]
      by_cases ha : a = c
      · subst ha
        obtain ⟨e, he⟩ := Option.isSome_iff_exists.mp hc
        simp [he]
      · simp [ha, Ne.symm ha]
    · simp [perform, setCacheable_eq, sets?, hc, Except.isOk, Except.toBool]
  | defineMethod m =>
    by_cases hc : r.Defined m.owner
    · simp only [perform, defineMethod_eq, sets?, hc, if_true]
      exact hchange m.owner fun _ => rfl
    · simp [perform, defineMethod_eq, sets?, hc]
  | removeMethod c n =>
    by_cases hc : r.Defined c
    · by_cases hm : (r.own? n c).isSome = true
      · simp only [perform, removeMethod_eq, sets?, hc, hm, if_true]
        exact hchange c fun _ => rfl
      · simp [perform, removeMethod_eq, sets?, hc, hm]
    · simp [perform, removeMethod_eq, sets?, hc]
  | freshToken n => rfl
  | invalidateToken t => rfl

end Step

section Run

/-- The methods of the classes are those that the history leaves in force. -/
theorem own_performAll (name : String) (ops : List (Operation β)) (a : ClassId) :
    (builtin.performAll ops).own? name a = inForce? name ops a := by
  have hempty : (builtin : Registry β).own? name a = none := by
    refine builtin_induct (motive := fun r => r.own? name a = none) rfl fun r n s _ hr => ?_
    obtain ⟨e, he, hm, _⟩ | he := entry_addClass r n s a
    · simp [own?, he, hm]
    · simpa only [own?, he] using hr
  rw [view_performAll (fun r => r.own? name a) (own_perform name a), hempty, inForce?]
  cases last? (leaves? name a) builtin ops <;> rfl

theorem cacheable_performAll (ops : List (Operation β)) (a : ClassId) :
    (builtin.performAll ops).cacheable a = (last? (sets? a) builtin ops).getD true := by
  have hnew : (builtin : Registry β).cacheable a = true := by
    refine builtin_induct (motive := fun r => r.cacheable a = true) rfl fun r n s _ hr => ?_
    obtain ⟨e, he, _, hb, _⟩ | he := entry_addClass r n s a
    · simp [cacheable, he, hb]
    · simpa only [cacheable, he] using hr
  rw [view_performAll (fun r => r.cacheable a) (cacheable_perform a), hnew]

end Run

section Walk

variable {r : Registry β}

theorem Descends.number_le (hw : r.WellFormed) {c a : ClassId} (h : r.Descends c a) :
    a.number ≤ c.number := by
  induction h with
  | refl => exact Nat.le_refl _
  | tail _ hs ih => exact Nat.le_trans (Nat.le_of_lt (hw.superclass_number hs)) ih

theorem Descends.antisymm (hw : r.WellFormed) {c a : ClassId} (h : r.Descends c a)
    (h' : r.Descends a c) : c = a :=
  congrArg ClassId.mk (Nat.le_antisymm (h'.number_le hw) (h.number_le hw))

theorem Descends.eq_or_above {c a : ClassId} (h : r.Descends c a) :
    c = a ∨ ∃ s, r.superclass? c = some s ∧ r.Descends s a :=
  Relation.ReflTransGen.cases_head_iff.mp h

theorem nearest_self {P : ClassId → Prop} (hw : r.WellFormed) {c a : ClassId} (hc : P c) :
    r.Nearest P c a ↔ c = a := by
  constructor
  · exact fun h => h.above.antisymm hw (h.first c .refl hc)
  · rintro rfl
    exact ⟨.refl, hc, fun _ hb _ => hb⟩

theorem nearest_above {P : ClassId → Prop} {c s a : ClassId} (hs : r.superclass? c = some s)
    (hc : ¬ P c) : r.Nearest P c a ↔ r.Nearest P s a := by
  constructor
  · intro h
    obtain rfl | ⟨s', hs', habove⟩ := h.above.eq_or_above
    · exact absurd h.holds hc
    · obtain rfl : s' = s := Option.some.inj (hs'.symm.trans hs)
      exact ⟨habove, h.holds, fun b hb => h.first b (.head hs hb)⟩
  · intro h
    refine ⟨.head hs h.above, h.holds, fun b hb hP => ?_⟩
    obtain rfl | ⟨s', hs', hb'⟩ := hb.eq_or_above
    · exact absurd hP hc
    · obtain rfl : s' = s := Option.some.inj (hs'.symm.trans hs)
      exact h.first b hb' hP

/-- The nearest definition is that of the class itself, or else the one nearest to its superclass. -/
theorem find?_eq_own_or (hw : r.WellFormed) (c : ClassId) (name : String) :
    r.find? c name = (r.own? name c).or ((r.superclass? c).bind fun s => r.find? s name) := by
  cases he : r.entry? c with
  | none => simp [find?, ancestry_of_none he, own?, superclass?, he]
  | some e =>
    rw [find?_of_some he, own?, superclass?, he]
    cases hs : e.superclass with
    | none => simp [hs]
    | some s => simp [hs, hw.superclass_lt c e s he hs]

/-- A search along the superclasses finds the method of the nearest class that has one. -/
theorem find?_of_nearest (hw : r.WellFormed) {name : String} {c a : ClassId}
    (h : r.Nearest (fun b => (r.own? name b).isSome) c a) : r.find? c name = r.own? name a := by
  induction c using hw.superclass_induct with
  | step c ih =>
    rw [find?_eq_own_or hw]
    cases hc : r.own? name c with
    | some m =>
      obtain rfl := (nearest_self hw (by simp [hc])).mp h
      exact hc.symm
    | none =>
      have hnot : ¬ (r.own? name c).isSome = true := by simp [hc]
      obtain rfl | ⟨s, hs, _⟩ := h.above.eq_or_above
      · exact absurd h.holds hnot
      · rw [hs, Option.none_or, Option.bind_some, ih s hs ((nearest_above hs hnot).mp h)]

/-- What a search along the superclasses finds is the method of a nearest class. -/
theorem exists_nearest (hw : r.WellFormed) {name : String} {c : ClassId} {m : Method β}
    (h : r.find? c name = some m) :
    ∃ a, r.Nearest (fun b => (r.own? name b).isSome) c a := by
  induction c using hw.superclass_induct with
  | step c ih =>
    rw [find?_eq_own_or hw] at h
    cases hc : r.own? name c with
    | some m' => exact ⟨c, (nearest_self hw (by simp [hc])).mpr rfl⟩
    | none =>
      rw [hc, Option.none_or, Option.bind_eq_some_iff] at h
      obtain ⟨s, hs, hfound⟩ := h
      obtain ⟨a, ha⟩ := ih s hs hfound
      exact ⟨a, (nearest_above hs (by simp [hc])).mpr ha⟩

end Walk

/-- After every history, lookups on a class that is not defined find nothing and are not cacheable. On
a class that is, a lookup finds what the history leaves in force on the nearest class, going up from
the class itself, on which it leaves anything in force under that name: the definition itself if it is
public or visibility is ignored, and nothing otherwise; it finds nothing if there is no such class. It
is cacheable as was last set for the class itself. What is found with an eye on visibility is found
without it. -/
theorem resolve_nearest_inForce (ops : List (Operation β)) (c : ClassId) (name : String) :
    let r := builtin.performAll ops
    let known := builtinClasses ++ builtin.newClasses ops
    let Near := r.Nearest fun b => (inForce? name ops b).isSome
    ((∀ n, (n, c) ∉ known) → ∀ iv,
      (r.resolve c name iv).method = none ∧ (r.resolve c name iv).cacheable = false) ∧
    (∀ n, (n, c) ∈ known →
      (∀ a m, Near c a → inForce? name ops a = some m → ∀ iv,
        (r.resolve c name iv).method = if m.isPrivate = false ∨ iv = true then some m else none) ∧
      ((∀ a, ¬ Near c a) → ∀ iv, (r.resolve c name iv).method = none) ∧
      ∀ iv, (r.resolve c name iv).cacheable = (last? (sets? c) builtin ops).getD true) ∧
    ∀ m, (r.resolve c name false).method = some m → (r.resolve c name true).method = some m := by
  intro r known Near
  have hw : r.WellFormed := (evolves_performAll wellFormed_builtin ops).2
  have hknown : ∀ d, r.Defined d ↔ ∃ n, (n, d) ∈ known := by
    intro d
    rw [defined_iff_mem, classList_performAll, classList_builtin]
  have hnearest : Near = r.Nearest fun b => (r.own? name b).isSome := by
    refine congrArg r.Nearest (funext fun b => ?_)
    rw [own_performAll]
  refine ⟨fun hc iv => ?_, fun n hc => ⟨fun a m hnear hm iv => ?_, fun hnone iv => ?_, fun iv => ?_⟩,
    fun m hm => ?_⟩
  · have hundefined : r.entry? c = none := by
      have hnot : ¬ r.Defined c := fun hd => (hknown c).mp hd |>.elim hc
      simpa [Defined] using hnot
    simp [resolve, hundefined]
  · obtain ⟨e, he⟩ := Option.isSome_iff_exists.mp ((hknown c).mpr ⟨n, hc⟩)
    have hfind : r.find? c name = some m := by
      rw [find?_of_nearest hw (hnearest ▸ hnear), own_performAll, hm]
    cases hp : m.isPrivate <;> cases iv <;> simp [resolve, he, hfind, hp]
  · obtain ⟨e, he⟩ := Option.isSome_iff_exists.mp ((hknown c).mpr ⟨n, hc⟩)
    have hfind : r.find? c name = none := by
      cases hf : r.find? c name with
      | none => rfl
      | some m =>
        obtain ⟨a, ha⟩ := exists_nearest hw hf
        exact absurd (hnearest ▸ ha) (hnone a)
    simp [resolve, he, hfind]
  · obtain ⟨e, he⟩ := Option.isSome_iff_exists.mp ((hknown c).mpr ⟨n, hc⟩)
    have hflag : r.cacheable c = _ := cacheable_performAll ops c
    rw [← hflag]
    simp [resolve, cacheable, he]
  · cases he : r.entry? c with
    | none => simp [resolve, he] at hm
    | some e =>
      simp only [resolve, he] at hm ⊢
      have hfind := (Option.filter_eq_some_iff.mp hm).1
      simp [hfind]

end InlineCache.Registry
