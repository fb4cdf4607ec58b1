/-! Receivers, arguments and results of message sends, and the shapes under which a call site
remembers them. A shape is finer than a class only at the two booleans; an object is known by its
class alone. -/
namespace InlineCache

structure ClassId where
  number : Nat
  deriving DecidableEq, Repr, Inhabited

namespace ClassId

def object : ClassId := ⟨0⟩
def nilClass : ClassId := ⟨1⟩
def trueClass : ClassId := ⟨2⟩
def falseClass : ClassId := ⟨3⟩
def integer : ClassId := ⟨4⟩
def float : ClassId := ⟨5⟩
def symbol : ClassId := ⟨6⟩
def string : ClassId := ⟨7⟩

def display (c : ClassId) : String := "#" ++ toString c.number

end ClassId

/-- A value. An object is its own number and its class. -/
inductive Value where
  | nil
  | bool (b : Bool)
  | int (i : Int)
  | float (x : Float)
  | symbol (name : String)
  | str (text : String)
  | object (id : Nat) (classId : ClassId)
  deriving DecidableEq, Repr, Inhabited

/-- The discriminant a cache guard tests: each boolean by itself, the other builtin kinds by kind,
objects by class. -/
inductive Shape where
  | nil
  | bool (b : Bool)
  | int
  | float
  | symbol
  | str
  | ofClass (classId : ClassId)
  deriving DecidableEq, Repr, Inhabited

namespace Shape

/-- Whether the shape is one of the two booleans. -/
def isBool : Shape → Bool
  | bool _ => true
  | _ => false

def classId : Shape → ClassId
  | nil => .nilClass
  | bool true => .trueClass
  | bool false => .falseClass
  | int => .integer
  | float => .float
  | symbol => .symbol
  | str => .string
  | ofClass c => c

def display : Shape → String
  | nil => "nil"
  | bool b => if b then "true" else "false"
  | int => "Integer"
  | float => "Float"
  | symbol => "Symbol"
  | str => "String"
  | ofClass c => "class " ++ c.display

end Shape

namespace Value

def shape : Value → Shape
  | nil => .nil
  | bool b => .bool b
  | int _ => .int
  | float _ => .float
  | symbol _ => .symbol
  | str _ => .str
  | object _ c => .ofClass c

/-- The class a message to the value is looked up in. -/
def classId : Value → ClassId
  | nil => .nilClass
  | bool true => .trueClass
  | bool false => .falseClass
  | int _ => .integer
  | float _ => .float
  | symbol _ => .symbol
  | str _ => .string
  | object _ c => c

@[simp] theorem classId_shape (v : Value) : v.shape.classId = v.classId := by
  cases v with
  | bool b => cases b <;> rfl
  | _ => rfl

def asBool? : Value → Option Bool
  | bool b => some b
  | _ => none

/-- Equality as programs see it: floats by their numeric value, objects by identity. -/
def equal : Value → Value → Bool
  | nil, nil => true
  | bool a, bool b => a == b
  | int a, int b => a == b
  | float a, float b => a == b
  | symbol a, symbol b => a == b
  | str a, str b => a == b
  | object a _, object b _ => a == b
  | _, _ => false

def kindName : Value → String
  | nil => "Nil"
  | bool _ => "Bool"
  | int _ => "Int"
  | float _ => "Float"
  | symbol _ => "Symbol"
  | str _ => "String"
  | object .. => "Object"

end Value

example : (Value.bool true).shape ≠ (Value.bool false).shape := by decide
example : (Value.object 1 .integer).classId = (Value.int 1).classId := by decide

end InlineCache
