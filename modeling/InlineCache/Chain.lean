import InlineCache.Chain.Node

/-! The chain of a call site: cache nodes in trial order in front of an end. A chain grows up to a
bound; past it the site gives up its nodes and becomes megamorphic for good. A reader walks the
links by the receiver at hand, a writer finds the node in charge by message and shape. -/
namespace InlineCache

inductive Links (β : Type) where
  | cached (node : Node β) (rest : Links β)
  | generic
  | megamorphic
  deriving DecidableEq, Repr, Inhabited

/-- The links of a chain and the number of nodes ever installed in it. -/
structure Chain (β : Type) where
  links : Links β := .generic
  installed : Nat := 0
  deriving DecidableEq, Repr, Inhabited

inductive ChainState where
  | uninitialized
  | monomorphic
  | polymorphic
  | megamorphic
  deriving DecidableEq, Repr

variable {β : Type}

namespace Links

/-- The nodes of a chain in trial order. -/
def nodes : Links β → List (Node β)
  | cached n r => n :: r.nodes
  | generic => []
  | megamorphic => []

/-- Nodes linked in front of an end that lets the chain grow. -/
def ofNodes : List (Node β) → Links β
  | [] => .generic
  | n :: r => .cached n (ofNodes r)

@[simp] theorem nodes_ofNodes (ns : List (Node β)) : (ofNodes ns).nodes = ns := by
  induction ns with
  | nil => rfl
  | cons n r ih => simp [ofNodes, nodes, ih]

/-- Walks a chain for a call. The first node whose test passes decides; the walk leaves its mark in
the branch it tried and nowhere else. -/
def walk (valid : TokenId → Bool) (call : Call) : Links β → Links β × Verdict β
  | cached n r =>
    match n.enter? valid call with
    | some (n, verdict) => (.cached n r, verdict)
    | none =>
      let (r, verdict) := r.walk valid call
      (.cached n r, verdict)
  | generic => (.generic, .generic)
  | megamorphic => (.megamorphic, .megamorphic)

end Links

/-- What a publication does to a chain. -/
inductive Change where
  /-- The chain says already all that is worth saying. -/
  | keep
  /-- The branch at a node is dropped: it is invalid and nothing can be cached instead. -/
  | openSlot (index : Nat)
  /-- The branch at a node is replaced or filled; `merges` where it was open in a boolean node. -/
  | fill (index : Nat) (merges : Bool)
  /-- A new node goes behind all others. -/
  | append
  /-- The site becomes megamorphic. -/
  | collapse
  deriving DecidableEq, Repr

/-- Whether a change calls for a branch. The one that makes a site megamorphic does, although it
then drops the branch. -/
def Change.needsBranch : Change → Bool
  | keep | openSlot _ => false
  | fill .. | append | collapse => true

namespace Chain

def isMegamorphic (c : Chain β) : Bool :=
  match c.links with
  | .megamorphic => true
  | _ => false

/-- The state of a chain: by the nodes ever installed, unless it has given up. -/
def state (c : Chain β) : ChainState :=
  if c.isMegamorphic then .megamorphic
  else match c.installed with
    | 0 => .uninitialized
    | 1 => .monomorphic
    | _ => .polymorphic

/-- The nodes of a chain in trial order. -/
def nodes (c : Chain β) : List (Node β) := c.links.nodes

/-- The place of the node in charge of a message and a shape. -/
def position? (c : Chain β) (name : String) (shape : Shape) : Option Nat :=
  c.nodes.findIdx? fun n => n.covers name shape

/-- What publishing a resolution does to a chain. A valid branch stays; an invalid one is replaced,
or dropped if nothing can be cached; the bound is only looked at where no node is in charge. -/
def plan (c : Chain β) (valid : TokenId → Bool) (bound : Nat) (name : String) (shape : Shape)
    (buildable : Bool) : Change :=
  if c.isMegamorphic then .keep
  else match c.position? name shape with
    | none =>
      if !buildable then .keep
      else if bound ≤ c.installed then .collapse
      else .append
    | some i =>
      match c.nodes[i]?.bind fun n => (n.slot? shape).map fun slot => (n.isBoolean, slot) with
      | none => .keep
      | some (_, some b) =>
        if b.isValid valid then .keep
        else if buildable then .fill i false
        else .openSlot i
      | some (boolean, none) => if buildable then .fill i boolean else .keep

/-- The chain after a change, given the branch that the change calls for. -/
def apply (c : Chain β) (name : String) (shape : Shape) (change : Change)
    (b : Option (Branch β)) : Chain β :=
  match change, b with
  | .openSlot i, _ => { c with links := .ofNodes (c.nodes.modify i fun n => n.setSlot shape none) }
  | .fill i _, some b =>
    { c with links := .ofNodes (c.nodes.modify i fun n => n.setSlot shape (some b)) }
  | .append, some b =>
    { links := .ofNodes (c.nodes ++ [.ofBranch name shape b]), installed := c.installed + 1 }
  | .collapse, some _ => { c with links := .megamorphic }
  | _, _ => c

end Chain

example : ({} : Chain Unit).plan (fun _ => true) 0 "m" .int true = .collapse := by decide
example : ({} : Chain Unit).plan (fun _ => true) 1 "m" .int true = .append := by decide

end InlineCache
