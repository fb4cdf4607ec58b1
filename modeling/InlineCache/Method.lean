import InlineCache.Value

/-! Method definitions and methods. The library never looks into a body: its type is a parameter. -/
namespace InlineCache

structure MethodDef (β : Type) where
  name : String
  /-- A private method is found only by lookups that ignore visibility. -/
  isPrivate : Bool := false
  /-- Asks for a copy of the method in every cache branch that calls it. -/
  alwaysClone : Bool := false
  body : β
  deriving DecidableEq, Repr

/-- A definition with an identity and the class that owns it. -/
structure Method (β : Type) extends MethodDef β where
  id : Nat
  owner : ClassId
  deriving DecidableEq, Repr

namespace Method

variable {β : Type}

/-- Two methods that differ at most in their identity. -/
def IsCopy (m n : Method β) : Prop := m.toMethodDef = n.toMethodDef ∧ m.owner = n.owner

/-- The same method under a fresh identity. -/
def copy (m : Method β) (id : Nat) : Method β := { m with id }

theorem isCopy_copy (m : Method β) (id : Nat) : (m.copy id).IsCopy m := ⟨rfl, rfl⟩

end Method
end InlineCache
