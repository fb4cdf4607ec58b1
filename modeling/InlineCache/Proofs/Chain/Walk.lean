import Mathlib.Data.List.Basic
import InlineCache.Proofs.Chain.Slots

/-! Walking a chain. A walk ends at the first node in charge of the call; it counts the try in the
slot it comes to and changes nothing else, so whatever is true of all branches of a chain without
regard to their counters is true after a walk. -/
namespace InlineCache

variable {β : Type}

/-- A node built as nodes are, all of whose branches have a property of the message and the shape
they serve. -/
structure Node.Every (P : String → Shape → Branch β → Prop) (n : Node β) : Prop where
  wellFormed : n.WellFormed
  branches : ∀ name shape b, n.branch? name shape = some b → P name shape b

namespace Chain

/-- The tests of the nodes in trial order. -/
def guards (c : Chain β) : List Guard := c.nodes.map Node.guard

/-- All nodes of a chain have a property of their branches. -/
def Every (P : String → Shape → Branch β → Prop) (c : Chain β) : Prop :=
  ∀ n ∈ c.nodes, n.Every P

/-- The first node that covers a message and a shape. -/
structure InCharge (c : Chain β) (name : String) (shape : Shape) (i : Nat) (n : Node β) : Prop where
  position : c.position? name shape = some i
  node : c.nodes[i]? = some n

theorem Every.mono {P Q : String → Shape → Branch β → Prop} {c : Chain β} (h : c.Every P)
    (hPQ : ∀ name shape b, P name shape b → Q name shape b) : c.Every Q :=
  fun n hn => ⟨(h n hn).wellFormed, fun _ _ b hb => hPQ _ _ b ((h n hn).branches _ _ b hb)⟩

theorem Every.wellFormed {P : String → Shape → Branch β → Prop} {c : Chain β} (h : c.Every P) :
    ∀ n ∈ c.nodes, n.WellFormed := fun n hn => (h n hn).wellFormed

theorem inCharge_of_position {c : Chain β} {name : String} {shape : Shape} {i : Nat}
    (h : c.position? name shape = some i) : ∃ n, c.InCharge name shape i n := by
  obtain ⟨hi, _⟩ := List.findIdx?_eq_some_iff_getElem.mp h
  exact ⟨c.nodes[i], h, List.getElem?_eq_getElem hi⟩

theorem not_covers_of_position {c : Chain β} {name : String} {shape : Shape}
    (h : c.position? name shape = none) : ∀ n ∈ c.nodes, n.covers name shape = false :=
  List.findIdx?_eq_none_iff.mp h

namespace InCharge

variable {c : Chain β} {name : String} {shape : Shape} {i : Nat} {n : Node β}

theorem mem (h : c.InCharge name shape i n) : n ∈ c.nodes := List.mem_of_getElem? h.node

theorem covers (h : c.InCharge name shape i n) : n.covers name shape = true := by
  obtain ⟨hi, hc, _⟩ := List.findIdx?_eq_some_iff_getElem.mp h.position
  obtain ⟨_, hn⟩ := List.getElem?_eq_some_iff.mp h.node
  exact hn ▸ hc

theorem not_megamorphic (h : c.InCharge name shape i n) : c.isMegamorphic = false := by
  have hm := h.mem
  rw [nodes] at hm
  unfold isMegamorphic
  cases hl : c.links with
  | megamorphic => simp [hl, Links.nodes] at hm
  | _ => rfl

end InCharge

end Chain

/-- Nodes keep a property of all their branches when one slot of theirs is filled with a branch that
has it. -/
theorem Node.Every.setSlot {P : String → Shape → Branch β → Prop} {n : Node β} (h : n.Every P)
    {name : String} {shape : Shape} (hc : n.covers name shape = true) {slot : Option (Branch β)}
    (hs : ∀ b, slot = some b → P name shape b) : (n.setSlot shape slot).Every P := by
  refine ⟨h.wellFormed.setSlot shape slot, ?_⟩
  intro message other b hb
  rw [branch_setSlot h.wellFormed hc] at hb
  split at hb
  · rename_i heq
    obtain ⟨rfl, rfl⟩ := heq
    exact hs b hb
  · exact h.branches message other b hb

/-- A list keeps a property of all its members when one of them is replaced by another that has
it. -/
theorem forall_mem_set {α : Type} {P : α → Prop} {xs : List α} (h : ∀ x ∈ xs, P x) (i : Nat)
    {y : α} (hy : P y) : ∀ x ∈ xs.set i y, P x := by
  intro x hx
  obtain hx | rfl := List.mem_or_eq_of_mem_set hx
  · exact h x hx
  · exact hy

/-- Replacing a node by one with the same test leaves the tests of the chain as they were. -/
theorem map_guard_set {ns : List (Node β)} {i : Nat} {n n' : Node β} (hn : ns[i]? = some n)
    (hg : n'.guard = n.guard) : (ns.set i n').map Node.guard = ns.map Node.guard := by
  obtain ⟨hi, rfl⟩ := List.getElem?_eq_some_iff.mp hn
  have hlen : i < (ns.map Node.guard).length := by rwa [List.length_map]
  have hget : (ns.map Node.guard)[i] = ns[i].guard := List.getElem_map _
  rw [List.map_set, hg, ← hget, List.set_getElem_self]

namespace Links

/-- What a walk comes to at the end of a chain. -/
def terminal : Links β → Verdict β
  | cached _ r => r.terminal
  | generic => .generic
  | megamorphic => .megamorphic

theorem walk_of_not_covers {l : Links β} (valid : TokenId → Bool) {call : Call}
    (h : ∀ n ∈ l.nodes, n.covers call.name call.receiver.shape = false) :
    l.walk valid call = (l, l.terminal) := by
  induction l with
  | cached n r ih =>
    rw [walk, Node.enter_of_not_covers valid (h n List.mem_cons_self)]
    simp only [ih fun m hm => h m (List.mem_cons_of_mem n hm)]
    rfl
  | generic => rfl
  | megamorphic => rfl

/-- A walk to the first node in charge: the slot there is entered, its verdict is the verdict of the
walk. -/
theorem walk_of_covers {l : Links β} (valid : TokenId → Bool) {call : Call} {i : Nat} {n : Node β}
    (hw : n.WellFormed)
    (hi : l.nodes.findIdx? (fun m => m.covers call.name call.receiver.shape) = some i)
    (hn : l.nodes[i]? = some n) :
    (l.walk valid call).1.nodes = l.nodes.set i (n.setSlot call.receiver.shape
        (enterSlot valid (n.branch? call.name call.receiver.shape)).1) ∧
      (l.walk valid call).2 = (enterSlot valid (n.branch? call.name call.receiver.shape)).2 := by
  induction l generalizing i with
  | cached m r ih =>
    rw [nodes, List.findIdx?_cons] at hi
    rw [walk]
    by_cases hm : m.covers call.name call.receiver.shape = true
    · rw [if_pos hm, Option.some.injEq] at hi
      subst hi
      obtain rfl : m = n := by simpa [nodes] using hn
      obtain ⟨slot, hs⟩ := Node.slot_of_covers hw hm
      rw [Node.enter_of_covers hw valid hm hs, Node.branch_of_slot hm hs]
      exact ⟨rfl, rfl⟩
    · rw [if_neg hm, Option.map_eq_some_iff] at hi
      obtain ⟨j, hj, rfl⟩ := hi
      rw [Node.enter_of_not_covers valid (Bool.eq_false_iff.mpr hm)]
      obtain ⟨hnodes, hverdict⟩ := ih hj hn
      exact ⟨by rw [nodes, nodes, hnodes, List.set_cons_succ], hverdict⟩
  | generic => cases hi
  | megamorphic => cases hi

end Links

namespace Chain

/-- The chain after a call has walked it. -/
def walked (c : Chain β) (valid : TokenId → Bool) (call : Call) : Chain β :=
  { c with links := (c.links.walk valid call).1 }

/-- A property that does not depend on how often a branch was tried outlives a walk. -/
theorem Every.walked {P : String → Shape → Branch β → Prop} {c : Chain β} (h : c.Every P)
    (hP : ∀ name shape b k, P name shape b → P name shape { b with entered := k })
    (valid : TokenId → Bool) (call : Call) : (c.walked valid call).Every P := by
  cases hp : c.position? call.name call.receiver.shape with
  | none =>
    have hwalk := Links.walk_of_not_covers valid (not_covers_of_position hp)
    rw [Chain.walked, hwalk]
    exact h
  | some i =>
    obtain ⟨n, hn⟩ := inCharge_of_position hp
    have hEvery := h n hn.mem
    obtain ⟨hnodes, _⟩ := Links.walk_of_covers valid hEvery.wellFormed hn.position hn.node
    rw [Every, nodes, Chain.walked, hnodes]
    refine forall_mem_set h i (hEvery.setSlot hn.covers ?_)
    intro b hb
    cases hs : n.branch? call.name call.receiver.shape with
    | none => simp [hs, enterSlot] at hb
    | some old =>
      simp only [hs, enterSlot, Branch.enter, Option.some.injEq] at hb
      exact hb ▸ hP _ _ old _ (hEvery.branches _ _ old hs)

theorem guards_walked {c : Chain β} (hw : ∀ n ∈ c.nodes, n.WellFormed) (valid : TokenId → Bool)
    (call : Call) : (c.walked valid call).guards = c.guards := by
  cases hp : c.position? call.name call.receiver.shape with
  | none => rw [Chain.walked, Links.walk_of_not_covers valid (not_covers_of_position hp)]
  | some i =>
    obtain ⟨n, hn⟩ := inCharge_of_position hp
    obtain ⟨hnodes, _⟩ := Links.walk_of_covers valid (hw n hn.mem) hn.position hn.node
    rw [guards, guards, nodes, Chain.walked, hnodes]
    exact map_guard_set hn.node (Node.guard_setSlot n _ _)

@[simp] theorem isMegamorphic_walked (c : Chain β) (valid : TokenId → Bool) (call : Call) :
    (c.walked valid call).isMegamorphic = c.isMegamorphic := by
  rw [isMegamorphic, isMegamorphic, Chain.walked]
  cases c.links with
  | cached n r =>
    simp only [Links.walk]
    cases n.enter? valid call <;> rfl
  | generic => rfl
  | megamorphic => rfl

end Chain
end InlineCache
