import Mathlib.Algebra.Ring.Nat
import InlineCache.Proofs.Registry.Numbering
import InlineCache.Proofs.Registry.Validity

/-! The class tree is well founded. Every class but `Object` is below one with a smaller number, so to go
up from superclass to superclass ends at `Object`, and a loop that does so without a look at where it
has been ends as well, on every class. New numbers come from a counter of 32 bits, which is as good as
one without a bound for as long as it has not wrapped. -/
namespace InlineCache.Registry

variable {β : Type}

/-- The counter behind the numbers of new classes, after so many of them. It starts behind the builtin
classes and wraps. -/
def counter : Nat → UInt32
  | 0 => 8
  | n + 1 => counter n + 1

theorem toNat_counter {n : Nat} (h : n < 2 ^ 32 - 8) : (counter n).toNat = 8 + n := by
  induction n with
  | zero => rfl
  | succ n ih =>
    have hn := ih (by omega)
    rw [counter, UInt32.toNat_add, hn, UInt32.toNat_one]
    omega

/-- What is looked for above a class to see whether it is another class or below that one. -/
def reached? (a x : ClassId) : Option Unit := if x = a then some () else none

/-- The loop that goes up from superclass to superclass until it finds something or no class is left. It
does not look out for cycles; `none` if it is not over after so many rounds. -/
def climb {α : Type} (r : Registry β) (found? : ClassId → Option α) :
    Nat → Option ClassId → Option (Option α)
  | _, none => some none
  | 0, some _ => none
  | rounds + 1, some c => match found? c with
    | some a => some (some a)
    | none => r.climb found? rounds (r.superclass? c)

section Tree

variable {r : Registry β}

theorem number_of_newClass {op : Operation β} {name : String} {c : ClassId}
    (h : r.newClass? op = some (name, c)) : c.number = r.classList.length := by
  obtain ⟨hnew, _⟩ | ⟨n, s, hnew, _⟩ := tree_perform r op
  · cases hnew.symm.trans h
  · obtain ⟨_, rfl⟩ := Prod.mk.inj (Option.some.inj (hnew.symm.trans h))
    simp [classList]

theorem defined_iff_number {c : ClassId} : r.Defined c ↔ c.number < r.classList.length := by
  simp [defined_iff, classList]

theorem nodup_classList (h : IsTree r.tree) :
    (r.classList.map Prod.fst).Nodup ∧ (r.classList.map Prod.snd).Nodup := by
  rw [map_fst_classList, map_snd_classList]
  exact ⟨h.names, List.nodup_range.map fun i j hij => ClassId.mk.inj hij⟩

theorem superclass?_eq_none_iff (h : IsTree r.tree) {c : ClassId} (hc : r.Defined c) :
    r.superclass? c = none ↔ c = .object := by
  have hlt := defined_iff.mp hc
  rw [superclass?_eq, List.getElem?_eq_getElem hlt, Option.bind_some, h.root c.number hlt]
  exact ⟨fun hn => congrArg ClassId.mk hn, fun hn => congrArg ClassId.number hn⟩

theorem defined_superclass (h : IsTree r.tree) {c s : ClassId} (hs : r.superclass? c = some s) :
    r.Defined s ∧ s.number < c.number := by
  have hlt := defined_iff.mp (defined_of_superclass hs)
  rw [superclass?_eq, List.getElem?_eq_getElem hlt, Option.bind_some] at hs
  have hbelow := h.below c.number hlt s hs
  exact ⟨defined_iff.mpr (by omega), hbelow⟩

theorem WellFormed.superclass_number (hw : r.WellFormed) {c s : ClassId}
    (hs : r.superclass? c = some s) : s.number < c.number := by
  obtain ⟨e, he, hes⟩ := superclass?_eq_some.mp hs
  exact hw.superclass_lt c e s he hes

/-- What holds of a class whenever it holds of its superclass holds of all classes. -/
theorem WellFormed.superclass_induct (hw : r.WellFormed) {motive : ClassId → Prop}
    (step : ∀ c, (∀ s, r.superclass? c = some s → motive s) → motive c) (c : ClassId) : motive c := by
  induction hn : c.number using Nat.strongRecOn generalizing c with
  | ind n ih =>
    subst hn
    exact step c fun s hs => ih s.number (hw.superclass_number hs) s rfl

/-- Every chain of superclasses comes to `Object`. -/
theorem descends_object (hw : r.WellFormed) (h : IsTree r.tree) {c : ClassId} (hc : r.Defined c) :
    r.Descends c .object := by
  induction c using hw.superclass_induct with
  | step c ih =>
    cases hs : r.superclass? c with
    | none =>
      obtain rfl := (superclass?_eq_none_iff h hc).mp hs
      exact .refl
    | some s => exact .head hs (ih s hs (defined_superclass h hs).1)

end Tree

section Loops

variable {r : Registry β} {α : Type} (found? : ClassId → Option α)

theorem findSome?_ancestry_of_defined {c : ClassId} (hc : r.Defined c) :
    (found? c).or ((r.ancestry c).findSome? found?) = (r.ancestry c).findSome? found? := by
  obtain ⟨e, he⟩ := Option.isSome_iff_exists.mp hc
  rw [ancestry_of_some he, List.findSome?_cons]
  cases found? c <;> rfl

/-- The loop is over after as many rounds as there are numbers up to that of the class, and it has looked
at the class and at all that is above it. -/
theorem climb_eq (hw : r.WellFormed) {rounds : Nat} {c : ClassId} (h : c.number < rounds) :
    r.climb found? rounds (some c) =
      some ((found? c).or ((r.ancestry c).findSome? found?)) := by
  induction rounds generalizing c with
  | zero => omega
  | succ rounds ih =>
    rw [climb]
    cases hc : found? c with
    | some a => rfl
    | none =>
      cases hs : r.superclass? c with
      | none =>
        have hnone : (r.ancestry c).findSome? found? = none := by
          cases he : r.entry? c with
          | none => rw [ancestry_of_none he, List.findSome?_nil]
          | some e =>
            have hes : e.superclass = none := by simpa [superclass?, he] using hs
            simp [ancestry_of_some he, hes, hc]
        rw [climb, hnone]
        rfl
      | some s =>
        obtain ⟨e, he, hes⟩ := superclass?_eq_some.mp hs
        have hlt := hw.superclass_lt c e s he hes
        have hdef : r.Defined s := entry_isSome_iff.mpr (Nat.lt_trans hlt (lt_of_entry he))
        have hstep : (r.ancestry c).findSome? found? = (r.ancestry s).findSome? found? := by
          simp [ancestry_of_some he, hes, hlt, hc]
        simp only [ih (show s.number < rounds by omega), findSome?_ancestry_of_defined found? hdef,
          hstep, Option.none_or]

/-- The loop of a lookup comes to the nearest definition. -/
theorem climb_own (hw : r.WellFormed) {rounds : Nat} {c : ClassId} (h : c.number < rounds)
    (name : String) : r.climb (r.own? name) rounds (some c) = some (r.find? c name) := by
  rw [climb_eq _ hw h]
  cases he : r.entry? c with
  | none => simp [own?, he, find?, ancestry_of_none he]
  | some e =>
    rw [findSome?_ancestry_of_defined _ (by simp [Defined, he])]
    rfl

/-- The loop that asks whether a class is below another one comes to the answer. -/
theorem climb_inherits (hw : r.WellFormed) {rounds : Nat} {c : ClassId} (h : c.number < rounds)
    (hc : r.Defined c) (a : ClassId) :
    r.climb (reached? a) rounds (some c) = some (if r.inherits c a then some () else none) := by
  rw [climb_eq _ hw h, findSome?_ancestry_of_defined _ hc, inherits]
  refine congrArg some ?_
  generalize r.ancestry c = above
  induction above with
  | nil => rfl
  | cons x rest ih =>
    rw [List.findSome?_cons, ih, List.contains_cons]
    by_cases hx : x = a
    · simp [reached?, hx]
    · simp [reached?, hx, Ne.symm hx]

end Loops

/-- After every history with fewer than `2 ^ 32 - 8` new classes: a new class gets the next number of the
counter, which no class has, under a name that no class has; the builtin classes and those that the
history made are the classes there are, no name and no number occurs twice among them, and names and
numbers lead to one another; `Object` is the only class without a superclass; all other superclasses
are defined and have smaller numbers, so every chain comes to `Object`. Hence the loops along the
superclasses are over after as many rounds as the number of the class says, for every class, defined
or not, and they give the answers of lookups and of `inherits`. -/
theorem class_tree_grounded (ops : List (Operation β))
    (hfew : (builtin.newClasses ops).length < 2 ^ 32 - 8) :
    let r := builtin.performAll ops
    let known := builtinClasses ++ builtin.newClasses ops
    (∀ op name c, r.newClass? op = some (name, c) →
      c = ⟨(counter (builtin.newClasses ops).length).toNat⟩ ∧ ¬ r.Defined c ∧
        r.classId? name = none) ∧
    (known.map Prod.fst).Nodup ∧ (known.map Prod.snd).Nodup ∧
    (∀ name c, (name, c) ∈ known ↔ r.Defined c ∧ r.className c = name) ∧
    (∀ name c, (name, c) ∈ known ↔ r.classId? name = some c) ∧
    (∀ c, r.Defined c → r.classId? (r.className c) = some c) ∧
    (∀ c, r.Defined c → (r.superclass? c = none ↔ c = .object)) ∧
    (∀ c s, r.superclass? c = some s → r.Defined s ∧ s.number < c.number) ∧
    (∀ c, r.Defined c → r.Descends c .object) ∧
    (∀ c rounds, c.number < rounds →
      (∀ (α : Type) (found? : ClassId → Option α), ∃ a, r.climb found? rounds (some c) = some a) ∧
      (∀ name, r.climb (r.own? name) rounds (some c) = some (r.find? c name)) ∧
      (r.Defined c → ∀ a, r.climb (reached? a) rounds (some c) =
        some (if r.inherits c a then some () else none))) := by
  intro r known
  have ht : IsTree r.tree := isTree_performAll ops
  have hw : r.WellFormed := (evolves_performAll wellFormed_builtin ops).2
  have hknown : r.classList = known := by
    rw [classList_performAll, classList_builtin]
  have hcount : r.classList.length = 8 + (builtin.newClasses ops).length := by
    rw [hknown, List.length_append]
    rfl
  obtain ⟨hnames, hnumbers⟩ := nodup_classList ht
  refine ⟨?_, hknown ▸ hnames, hknown ▸ hnumbers, ?_, ?_, ?_, ?_, ?_, ?_, ?_⟩
  · intro op name c hnew
    have hnumber := number_of_newClass hnew
    refine ⟨?_, ?_, ?_⟩
    · rw [toNat_counter hfew, ← hcount, ← hnumber]
    · rw [defined_iff_number]
      omega
    · obtain ⟨hnone, _⟩ | ⟨n, s, hsome, hfree, _⟩ := tree_perform r op
      · cases hnone.symm.trans hnew
      · obtain ⟨rfl, _⟩ := Prod.mk.inj (Option.some.inj (hsome.symm.trans hnew))
        exact hfree
  · exact fun name c => hknown ▸ className_iff_mem.symm
  · exact fun name c => hknown ▸ (classId?_iff_mem ht).symm
  · exact fun c hc => (classId?_iff_mem ht).mpr (className_iff_mem.mp ⟨hc, rfl⟩)
  · exact fun c hc => superclass?_eq_none_iff ht hc
  · exact fun c s hs => defined_superclass ht hs
  · exact fun c hc => descends_object hw ht hc
  · intro c rounds hrounds
    refine ⟨fun α found? => ⟨_, climb_eq found? hw hrounds⟩, climb_own hw hrounds, ?_⟩
    exact fun hc a => climb_inherits hw hrounds hc a

/-- A class defined twice and one below it: the second definition of `Animal` is refused. -/
theorem class_tree_grounded_twice :
    let ops : List (Operation Unit) :=
      [.defineClass "Animal" none, .defineClass "Animal" (some .string), .defineClass "Dog" (some ⟨8⟩)]
    (builtin.newClasses ops).length < 2 ^ 32 - 8 ∧
      (builtin.performAll ops).Descends ⟨9⟩ .object ∧
      (builtin.performAll ops).classId? "Dog" = some ⟨9⟩ := by
  intro ops
  have hfew : (builtin.newClasses ops).length < 2 ^ 32 - 8 := by decide +kernel
  obtain ⟨_, _, _, _, hid, _, _, _, hroot, _⟩ := class_tree_grounded ops hfew
  exact ⟨hfew, hroot ⟨9⟩ (by decide +kernel), (hid "Dog" ⟨9⟩).mp (by decide +kernel)⟩

end InlineCache.Registry
