import InlineCache.Chain

/-! The slots of a node. A node that was built for a message and a shape serves the pairs of a
message and a shape that its guard covers, each from a slot of its own; filling the slot of one pair
leaves the guard and all other pairs as they were. -/
namespace InlineCache

variable {β : Type}

/-- The test in charge of a message and a shape. -/
def Guard.of (name : String) (shape : Shape) : Guard :=
  ⟨name, if shape.isBool then .boolean else .exactly shape⟩

/-- For a receiver at hand the guard tests what it covers by shape. -/
theorem Guard.matches_eq_covers (g : Guard) (name : String) (v : Value) :
    g.matches name v = g.covers name v.shape := by
  obtain ⟨message, boolean | shape⟩ := g
  · cases v <;> rfl
  · have hcomm : (v.shape == shape) = (shape == v.shape) := Bool.beq_comm
    simp [Guard.matches, covers, hcomm]

namespace Node

/-- Two-branch nodes have boolean guards, the others exact guards of shapes that are no booleans. -/
def WellFormed : Node β → Prop
  | boolean g _ _ => g.shape = .boolean
  | single g _ => ∃ shape, g.shape = .exactly shape ∧ shape.isBool = false

/-- What a node remembers for a message and a shape. -/
def branch? (n : Node β) (name : String) (shape : Shape) : Option (Branch β) :=
  if n.covers name shape then (n.slot? shape).join else none

theorem covers_iff {n : Node β} {name : String} {shape : Shape} :
    n.covers name shape = true ↔ n.guard.name = name ∧ (match n.guard.shape with
      | .boolean => shape.isBool
      | .exactly cached => cached == shape) = true := by
  have h : n.covers name shape = (n.guard.name == name && match n.guard.shape with
      | .boolean => shape.isBool
      | .exactly cached => cached == shape) := rfl
  simp only [h, Bool.and_eq_true, beq_iff_eq]

theorem covers_boolean {g : Guard} {onFalse onTrue : Option (Branch β)} (h : g.shape = .boolean)
    {name : String} {shape : Shape} :
    (boolean g onFalse onTrue).covers name shape = true ↔ g.name = name ∧ ∃ v, shape = .bool v := by
  have hb : shape.isBool = true ↔ ∃ v, shape = .bool v := by cases shape <;> simp [Shape.isBool]
  rw [covers_iff]
  simp only [guard, h, hb]

theorem covers_single {g : Guard} {branch : Option (Branch β)} {exact : Shape}
    (h : g.shape = .exactly exact) {name : String} {shape : Shape} :
    (single g branch).covers name shape = true ↔ g.name = name ∧ exact = shape := by
  rw [covers_iff]
  simp only [guard, h, beq_iff_eq]

/-- The slot in charge is there. -/
theorem slot_of_covers {n : Node β} (h : n.WellFormed) {name : String} {shape : Shape}
    (hc : n.covers name shape = true) : ∃ slot, n.slot? shape = some slot := by
  cases n with
  | boolean g onFalse onTrue =>
    obtain ⟨_, v, rfl⟩ := (covers_boolean h).mp hc
    exact ⟨_, rfl⟩
  | single g branch => exact ⟨branch, rfl⟩

theorem branch_of_slot {n : Node β} {name : String} {shape : Shape} {slot : Option (Branch β)}
    (hc : n.covers name shape = true) (hs : n.slot? shape = some slot) :
    n.branch? name shape = slot := by
  rw [branch?, if_pos hc, hs, Option.join_some]

@[simp] theorem guard_setSlot (n : Node β) (shape : Shape) (b : Option (Branch β)) :
    (n.setSlot shape b).guard = n.guard := by
  unfold setSlot
  split
  · split <;> rfl
  · rfl
  · rfl

theorem WellFormed.setSlot {n : Node β} (h : n.WellFormed) (shape : Shape)
    (b : Option (Branch β)) : (n.setSlot shape b).WellFormed := by
  unfold Node.setSlot
  split
  · split <;> exact h
  · exact h
  · exact h

@[simp] theorem covers_setSlot (n : Node β) (shape : Shape) (b : Option (Branch β)) (name : String)
    (other : Shape) : (n.setSlot shape b).covers name other = n.covers name other := by
  rw [covers, guard_setSlot, covers]

/-- Filling the slot for a message and a shape changes what is remembered for these alone. -/
theorem branch_setSlot {n : Node β} (h : n.WellFormed) {name : String} {shape : Shape}
    (hc : n.covers name shape = true) (b : Option (Branch β)) (message : String) (other : Shape) :
    (n.setSlot shape b).branch? message other =
      if message = name ∧ other = shape then b else n.branch? message other := by
  rw [branch?, covers_setSlot, branch?]
  by_cases ho : n.covers message other = true
  · simp only [ho, if_true]
    cases n with
    | boolean g onFalse onTrue =>
      obtain ⟨hn, v, rfl⟩ := (covers_boolean h).mp hc
      obtain ⟨hm, u, rfl⟩ := (covers_boolean h).mp ho
      obtain rfl : message = name := hm.symm.trans hn
      cases v <;> cases u <;> simp [Node.setSlot, slot?]
    | single g branch =>
      obtain ⟨exact, he, _⟩ := h
      obtain ⟨hn, rfl⟩ := (covers_single he).mp hc
      obtain ⟨hm, rfl⟩ := (covers_single he).mp ho
      obtain rfl : message = name := hm.symm.trans hn
      simp [Node.setSlot, slot?]
  · have hne : ¬ (message = name ∧ other = shape) := by
      rintro ⟨rfl, rfl⟩
      exact ho hc
    simp only [ho, hne, if_false, Bool.false_eq_true]

theorem wellFormed_ofBranch (name : String) (shape : Shape) (b : Branch β) :
    (ofBranch name shape b).WellFormed := by
  cases shape with
  | bool v => cases v <;> rfl
  | _ => exact ⟨_, rfl, rfl⟩

theorem covers_ofBranch (name : String) (shape : Shape) (b : Branch β) :
    (ofBranch name shape b).covers name shape = true := by
  cases shape with
  | bool v => cases v <;> exact (covers_boolean rfl).mpr ⟨rfl, _, rfl⟩
  | _ => exact (covers_single rfl).mpr ⟨rfl, rfl⟩

/-- A new node remembers what it was made for and nothing else. -/
theorem branch_ofBranch (name : String) (shape : Shape) (b : Branch β) (message : String)
    (other : Shape) : (ofBranch name shape b).branch? message other =
      if message = name ∧ other = shape then some b else none := by
  by_cases hm : message = name ∧ other = shape
  · obtain ⟨rfl, rfl⟩ := hm
    have hs : (ofBranch message other b).slot? other = some (some b) := by
      cases other with
      | bool v => cases v <;> rfl
      | _ => rfl
    rw [branch_of_slot (covers_ofBranch message other b) hs, if_pos ⟨rfl, rfl⟩]
  · rw [if_neg hm, branch?]
    split
    · rename_i ho
      cases shape with
      | bool v =>
        cases v <;>
        · obtain ⟨rfl, u, rfl⟩ := (covers_boolean rfl).mp ho
          cases u <;> simp_all [ofBranch, slot?]
      | _ =>
        obtain ⟨rfl, rfl⟩ := (covers_single rfl).mp ho
        exact absurd ⟨rfl, rfl⟩ hm
    · rfl

theorem covers_iff_guard {n : Node β} (h : n.WellFormed) {name : String} {shape : Shape} :
    n.covers name shape = true ↔ n.guard = .of name shape := by
  cases n with
  | boolean g onFalse onTrue =>
    obtain ⟨message, test⟩ := g
    obtain rfl : test = .boolean := h
    rw [covers_boolean rfl]
    cases shape <;> simp [guard, Guard.of, Shape.isBool]
  | single g branch =>
    obtain ⟨message, test⟩ := g
    obtain ⟨exact, rfl, hexact⟩ := h
    rw [covers_single rfl]
    cases shape with
    | bool v =>
      have hne : exact ≠ .bool v := by
        rintro rfl
        cases hexact
      simp [guard, Guard.of, Shape.isBool, hne]
    | _ => simp [guard, Guard.of, Shape.isBool]

theorem guard_ofBranch (name : String) (shape : Shape) (b : Branch β) :
    (ofBranch name shape b).guard = .of name shape :=
  (covers_iff_guard (wellFormed_ofBranch name shape b)).mp (covers_ofBranch name shape b)

/-- A two-branch node tests for the booleans. -/
theorem guard_of_isBoolean {n : Node β} (h : n.WellFormed) (hb : n.isBoolean = true) :
    n.guard = ⟨n.guard.name, .boolean⟩ := by
  cases n with
  | boolean g onFalse onTrue =>
    have hshape : g.shape = .boolean := h
    exact hshape ▸ rfl
  | single g branch => cases hb

/-- Trying a node on a call: the slot for the receiver's shape is entered, if the node is in charge. -/
theorem enter_of_covers {n : Node β} (h : n.WellFormed) (valid : TokenId → Bool) {call : Call}
    (hc : n.covers call.name call.receiver.shape = true) {slot : Option (Branch β)}
    (hs : n.slot? call.receiver.shape = some slot) :
    n.enter? valid call = some (n.setSlot call.receiver.shape (enterSlot valid slot).1,
      (enterSlot valid slot).2) := by
  unfold enter?
  rw [Guard.matches_eq_covers, ← covers, if_pos hc]
  cases n with
  | boolean g onFalse onTrue =>
    obtain ⟨_, v, hv⟩ := (covers_boolean h).mp hc
    have hr : call.receiver = .bool v := by
      cases hrec : call.receiver <;> rw [hrec] at hv <;> simp_all [Value.shape]
    rw [hv] at hs
    rw [hr]
    cases v <;> simp_all [slot?, Node.setSlot, Value.shape]
  | single g branch =>
    simp only [slot?, Option.some.injEq] at hs
    subst hs
    rfl

theorem enter_of_not_covers {n : Node β} (valid : TokenId → Bool) {call : Call}
    (hc : n.covers call.name call.receiver.shape = false) : n.enter? valid call = none := by
  unfold enter?
  rw [Guard.matches_eq_covers, ← covers, hc]
  rfl

end Node
end InlineCache
