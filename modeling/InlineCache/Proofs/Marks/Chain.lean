import InlineCache.Proofs.Chain.Walk
import InlineCache.Proofs.Marks.Registry

/-! Chains without the marks of copying. A branch holds a method, which has an identity, and tells
whether it is a copy. Neither is looked at when a call walks a chain or when a publication changes one,
so both commute with taking the marks away. -/
namespace InlineCache

variable {β : Type}

def CallTarget.unmarked (t : CallTarget β) : CallTarget β :=
  { method := t.method.unmarked, cloned := false }

def Target.unmarked : Target β → Target β
  | direct t => direct t.unmarked
  | handler t => handler t.unmarked
  | probe => probe

def Branch.unmarked (b : Branch β) : Branch β := { b with target := b.target.unmarked }

def Verdict.unmarked : Verdict β → Verdict β
  | served target => served target.unmarked
  | repair => repair
  | generic => generic
  | megamorphic => megamorphic

namespace Node

def unmarked : Node β → Node β
  | boolean g onFalse onTrue => boolean g (onFalse.map Branch.unmarked) (onTrue.map Branch.unmarked)
  | single g branch => single g (branch.map Branch.unmarked)

theorem guard_unmarked (n : Node β) : n.unmarked.guard = n.guard := by cases n <;> rfl

theorem covers_unmarked (n : Node β) (name : String) (shape : Shape) :
    n.unmarked.covers name shape = n.covers name shape := by rw [covers, covers, guard_unmarked]

theorem isBoolean_unmarked (n : Node β) : n.unmarked.isBoolean = n.isBoolean := by cases n <;> rfl

theorem slot_unmarked (n : Node β) (shape : Shape) :
    n.unmarked.slot? shape = (n.slot? shape).map (Option.map Branch.unmarked) := by
  cases n with
  | boolean g onFalse onTrue =>
    rcases shape with _ | (_ | _) | _ | _ | _ | _ | _ <;> rfl
  | single g branch => rfl

theorem setSlot_unmarked (n : Node β) (shape : Shape) (b : Option (Branch β)) :
    n.unmarked.setSlot shape (b.map Branch.unmarked) = (n.setSlot shape b).unmarked := by
  cases n with
  | boolean g onFalse onTrue =>
    rcases shape with _ | (_ | _) | _ | _ | _ | _ | _ <;> rfl
  | single g branch => rfl

/-- The slot of one node of a list is set. -/
theorem modify_unmarked (ns : List (Node β)) (i : Nat) (shape : Shape) (b : Option (Branch β)) :
    ((ns.map unmarked).modify i fun n => n.setSlot shape (b.map Branch.unmarked)) =
      (ns.modify i fun n => n.setSlot shape b).map unmarked := by
  refine List.ext_getElem? fun j => ?_
  simp only [List.getElem?_modify, List.getElem?_map]
  cases ns[j]? with
  | none => rfl
  | some n =>
    simp only [Option.map_some]
    split
    · exact congrArg some (setSlot_unmarked n shape b)
    · rfl

theorem ofBranch_unmarked (name : String) (shape : Shape) (b : Branch β) :
    ofBranch name shape b.unmarked = (ofBranch name shape b).unmarked := by
  rcases shape with _ | (_ | _) | _ | _ | _ | _ | _ <;> rfl

end Node

theorem enterSlot_unmarked (valid : TokenId → Bool) (slot : Option (Branch β)) :
    enterSlot valid (slot.map Branch.unmarked) =
      Prod.map (Option.map Branch.unmarked) Verdict.unmarked (enterSlot valid slot) := by
  cases slot with
  | none => rfl
  | some b =>
    have hvalid : b.unmarked.isValid valid = b.isValid valid := rfl
    simp only [enterSlot, Option.map_some, Branch.enter, hvalid]
    split <;> rfl

theorem Node.enter_unmarked (valid : TokenId → Bool) (n : Node β) (call : Call) :
    n.unmarked.enter? valid call =
      (n.enter? valid call).map (Prod.map Node.unmarked Verdict.unmarked) := by
  unfold enter?
  rw [guard_unmarked]
  split
  · cases n with
    | boolean g onFalse onTrue =>
      simp only [unmarked, enterSlot_unmarked]
      split <;> rfl
    | single g branch =>
      simp only [unmarked, enterSlot_unmarked]
      rfl
  · rfl

namespace Links

def unmarked : Links β → Links β
  | cached n r => cached n.unmarked r.unmarked
  | generic => generic
  | megamorphic => megamorphic

theorem nodes_unmarked (l : Links β) : l.unmarked.nodes = l.nodes.map Node.unmarked := by
  induction l with
  | cached n r ih => exact congrArg (n.unmarked :: ·) ih
  | generic => rfl
  | megamorphic => rfl

theorem ofNodes_unmarked (ns : List (Node β)) :
    ofNodes (ns.map Node.unmarked) = (ofNodes ns).unmarked := by
  induction ns with
  | nil => rfl
  | cons n rest ih => exact congrArg (cached n.unmarked) ih

/-- A walk tries the same nodes, and comes to the same branch. -/
theorem walk_unmarked (valid : TokenId → Bool) (call : Call) (l : Links β) :
    l.unmarked.walk valid call = Prod.map unmarked Verdict.unmarked (l.walk valid call) := by
  induction l with
  | cached n r ih =>
    rw [unmarked, walk, walk, Node.enter_unmarked, ih]
    cases n.enter? valid call <;> rfl
  | generic => rfl
  | megamorphic => rfl

end Links

namespace Chain

def unmarked (c : Chain β) : Chain β := { c with links := c.links.unmarked }

theorem isMegamorphic_unmarked (c : Chain β) : c.unmarked.isMegamorphic = c.isMegamorphic := by
  obtain ⟨_ | _ | _, _⟩ := c <;> rfl

theorem state_unmarked (c : Chain β) : c.unmarked.state = c.state := by
  rw [state, state, isMegamorphic_unmarked]
  rfl

theorem nodes_unmarked (c : Chain β) : c.unmarked.nodes = c.nodes.map Node.unmarked :=
  Links.nodes_unmarked c.links

theorem guards_unmarked (c : Chain β) : c.unmarked.guards = c.guards := by
  rw [guards, guards, nodes_unmarked, List.map_map]
  exact List.map_congr_left fun n _ => n.guard_unmarked

theorem position_unmarked (c : Chain β) (name : String) (shape : Shape) :
    c.unmarked.position? name shape = c.position? name shape := by
  rw [position?, position?, nodes_unmarked, List.findIdx?_map]
  exact congrArg (c.nodes.findIdx? ·) (funext fun n => n.covers_unmarked name shape)

theorem plan_unmarked (c : Chain β) (valid : TokenId → Bool) (bound : Nat) (name : String)
    (shape : Shape) (buildable : Bool) : c.unmarked.plan valid bound name shape buildable =
      c.plan valid bound name shape buildable := by
  rw [plan, plan, isMegamorphic_unmarked, position_unmarked]
  split
  · rfl
  · cases c.position? name shape with
    | none => rfl
    | some i =>
      simp only [nodes_unmarked, List.getElem?_map]
      cases c.nodes[i]? with
      | none => rfl
      | some n =>
        simp only [Option.map_some, Option.bind_some, Node.slot_unmarked, Node.isBoolean_unmarked]
        rcases n.slot? shape with _ | _ | b <;> rfl

theorem apply_unmarked (c : Chain β) (name : String) (shape : Shape) (change : Change)
    (b : Option (Branch β)) : c.unmarked.apply name shape change (b.map Branch.unmarked) =
      (c.apply name shape change b).unmarked := by
  have hset : ∀ i slot, Links.ofNodes (c.unmarked.nodes.modify i fun n =>
        n.setSlot shape (slot.map Branch.unmarked)) =
      (Links.ofNodes (c.nodes.modify i fun n => n.setSlot shape slot)).unmarked := by
    intro i slot
    rw [nodes_unmarked, Node.modify_unmarked, Links.ofNodes_unmarked]
  cases b with
  | none =>
    cases change with
    | openSlot i => exact congrArg (Chain.mk · c.installed) (hset i none)
    | _ => rfl
  | some b =>
    cases change with
    | openSlot i => exact congrArg (Chain.mk · c.installed) (hset i none)
    | fill i merges => exact congrArg (Chain.mk · c.installed) (hset i (some b))
    | append =>
      have happend : Links.ofNodes (c.unmarked.nodes ++ [.ofBranch name shape b.unmarked]) =
          (Links.ofNodes (c.nodes ++ [.ofBranch name shape b])).unmarked := by
        rw [nodes_unmarked, Node.ofBranch_unmarked, ← List.map_singleton, ← List.map_append,
          Links.ofNodes_unmarked]
      exact congrArg (Chain.mk · (c.installed + 1)) happend
    | keep => rfl
    | collapse => rfl

end Chain
end InlineCache
