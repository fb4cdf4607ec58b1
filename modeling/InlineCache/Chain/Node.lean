import InlineCache.Dispatch.Call
import InlineCache.Token

/-! The parts of a chain. A branch remembers what to do for one receiver shape and the tokens that
this rests on. A node guards its branches by a message name and a test of the shape: one node with
two branches serves both booleans, any other shape has a node of its own. -/
namespace InlineCache

/-- A method as a branch calls it: the method that was found, or a copy made for the branch. -/
structure CallTarget (β : Type) where
  method : Method β
  cloned : Bool
  deriving DecidableEq, Repr

/-- What a valid branch does. -/
inductive Target (β : Type) where
  | direct (target : CallTarget β)
  | handler (target : CallTarget β)
  | probe
  deriving DecidableEq, Repr

/-- What is remembered for one receiver shape, and how often it was tried. -/
structure Branch (β : Type) where
  tokens : List TokenId
  target : Target β
  entered : Nat := 0
  deriving DecidableEq, Repr

inductive ShapeGuard where
  | boolean
  | exactly (shape : Shape)
  deriving DecidableEq, Repr

/-- The test of a call: the message and the shape of the receiver. -/
structure Guard where
  name : String
  shape : ShapeGuard
  deriving DecidableEq, Repr

/-- A cache node. A branch is open where nothing is remembered. -/
inductive Node (β : Type) where
  | boolean (guard : Guard) (onFalse onTrue : Option (Branch β))
  | single (guard : Guard) (branch : Option (Branch β))
  deriving DecidableEq, Repr

/-- What a walk along a chain comes to: a valid branch, an invalid one, an open branch or the end of
the chain, or the end of a chain that grows no more. -/
inductive Verdict (β : Type) where
  | served (target : Target β)
  | repair
  | generic
  | megamorphic
  deriving DecidableEq, Repr

variable {β : Type}

/-- Whether a call with a receiver passes the test. -/
def Guard.matches (g : Guard) (name : String) (receiver : Value) : Bool :=
  g.name == name && match g.shape, receiver with
    | .boolean, .bool _ => true
    | .boolean, _ => false
    | .exactly shape, receiver => receiver.shape == shape

/-- Whether the test is the one in charge of a message and a shape. -/
def Guard.covers (g : Guard) (name : String) (shape : Shape) : Bool :=
  g.name == name && match g.shape with
    | .boolean => shape.isBool
    | .exactly cached => cached == shape

namespace Branch

/-- Whether all that a branch rests on still holds. -/
def isValid (valid : TokenId → Bool) (b : Branch β) : Bool := b.tokens.all valid

/-- Tries a branch. The try is counted before the tokens are looked at. -/
def enter (valid : TokenId → Bool) (b : Branch β) : Branch β × Verdict β :=
  ({ b with entered := b.entered + 1 },
    if b.isValid valid then .served b.target else .repair)

end Branch

/-- Tries the branch in a slot; an open slot is as good as no node. -/
def enterSlot (valid : TokenId → Bool) : Option (Branch β) → Option (Branch β) × Verdict β
  | none => (none, .generic)
  | some b =>
    let (b, verdict) := b.enter valid
    (some b, verdict)

namespace Node

def guard : Node β → Guard
  | boolean g _ _ => g
  | single g _ => g

/-- Whether a node is in charge of a message and a shape. -/
def covers (n : Node β) (name : String) (shape : Shape) : Bool := n.guard.covers name shape

/-- Tries a node on a call; nothing if its test fails. -/
def enter? (valid : TokenId → Bool) (n : Node β) (call : Call) : Option (Node β × Verdict β) :=
  if n.guard.matches call.name call.receiver then
    match n with
    | boolean g onFalse onTrue =>
      if call.receiver = .bool true then
        let (onTrue, verdict) := enterSlot valid onTrue
        some (.boolean g onFalse onTrue, verdict)
      else
        let (onFalse, verdict) := enterSlot valid onFalse
        some (.boolean g onFalse onTrue, verdict)
    | single g branch =>
      let (branch, verdict) := enterSlot valid branch
      some (.single g branch, verdict)
  else none

/-- The slot of a node for a shape; a two-branch node has one only for the booleans. -/
def slot? (n : Node β) (shape : Shape) : Option (Option (Branch β)) :=
  match n, shape with
  | boolean _ onFalse onTrue, .bool b => some (if b then onTrue else onFalse)
  | boolean .., _ => none
  | single _ branch, _ => some branch

/-- Puts a branch, or nothing, into the slot for a shape. -/
def setSlot (n : Node β) (shape : Shape) (b : Option (Branch β)) : Node β :=
  match n, shape with
  | boolean g onFalse onTrue, .bool v => if v then .boolean g onFalse b else .boolean g b onTrue
  | boolean g onFalse onTrue, _ => .boolean g onFalse onTrue
  | single g _, _ => .single g b

def isBoolean : Node β → Bool
  | boolean .. => true
  | single .. => false

/-- A node for a message and a shape with only the branch for that shape filled. -/
def ofBranch (name : String) (shape : Shape) (b : Branch β) : Node β :=
  match shape with
  | .bool false => .boolean ⟨name, .boolean⟩ (some b) none
  | .bool true => .boolean ⟨name, .boolean⟩ none (some b)
  | shape => .single ⟨name, .exactly shape⟩ (some b)

end Node

example : (⟨"m", .boolean⟩ : Guard).matches "m" (.bool false) = true := by decide
example : (⟨"m", .exactly .int⟩ : Guard).matches "m" (.object 1 .integer) = false := by decide

end InlineCache
