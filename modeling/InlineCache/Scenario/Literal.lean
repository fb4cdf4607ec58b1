import InlineCache.Decimal.Numeral
import InlineCache.Text.Blank
import InlineCache.World

/-! Literals, in which a scenario writes receivers, arguments and results: `nil`, `true`, `false`,
integers, floats, `:symbol`, `"text"` and `new Class`. -/
namespace InlineCache.Scenario

/-- A literal. An object is named by its class, which may not exist. -/
inductive Literal where
  | value (v : Value)
  | new (className : String)
  deriving DecidableEq, Repr

inductive LiteralError where
  | unknownClass (name : String)
  | emptySymbol
  | invalid (raw : String)
  deriving DecidableEq, Repr

/-- The wording of a refusal; an invalid literal is quoted as it was written. -/
def LiteralError.message : LiteralError → String
  | unknownClass name => "unknown class " ++ name
  | emptySymbol => "empty symbol literal"
  | invalid raw => "invalid literal `" ++ raw ++ "`"

/-- The text between two double quotes; it is taken verbatim and may hold quotes itself. -/
def unquoted? : List Char → Option (List Char)
  | '"' :: r => if r.getLast? = some '"' then some r.dropLast else none
  | _ => none

/-- An integer or float; an integer that does not fit is read as a float. -/
def numberOfChars? (cs : List Char) : Option Value :=
  match (Decimal.intOfChars? cs).filter Decimal.fitsSigned with
  | some i => some (.int i)
  | none => (Decimal.floatOfChars? cs).map .float

/-- Reads a literal without the blanks around it; nothing if it has none of the forms. -/
def Literal.ofChars? (cs : List Char) : Option (Except LiteralError Literal) :=
  match cs with
  | ['n', 'i', 'l'] => some (.ok (.value .nil))
  | ['t', 'r', 'u', 'e'] => some (.ok (.value (.bool true)))
  | ['f', 'a', 'l', 's', 'e'] => some (.ok (.value (.bool false)))
  | 'n' :: 'e' :: 'w' :: ' ' :: r => some (.ok (.new (String.ofList (Text.trimChars r))))
  | [':'] => some (.error .emptySymbol)
  | ':' :: r => some (.ok (.value (.symbol (String.ofList r))))
  | cs => ((unquoted? cs).map fun b => .ok (.value (.str (String.ofList b)))).or
      ((numberOfChars? cs).map fun v => .ok (.value v))

def Literal.read (raw : String) : Except LiteralError Literal :=
  (ofChars? (Text.trimChars raw.toList)).getD (.error (.invalid raw))

/-- The value of a literal; each `new` makes an object of a class that is defined. -/
def evalLiteral {β : Type} (w : World β) (raw : String) :
    Except LiteralError (World β × Value) :=
  match Literal.read raw with
  | .error e => .error e
  | .ok (.value v) => .ok (w, v)
  | .ok (.new name) =>
    match w.registry.classId? name with
    | some c => .ok (w.newObject c)
    | none => .error (.unknownClass name)

example : Literal.ofChars? ['"', '"', '"'] = some (.ok (.value (.str "\""))) := rfl
example : Literal.ofChars? [':'] = some (.error .emptySymbol) := rfl
example : Literal.ofChars? ['"'] = none := rfl

end InlineCache.Scenario
