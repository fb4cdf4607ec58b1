import InlineCache.Decimal.Layout
import InlineCache.Text.Json
import InlineCache.Text.Quoted
import InlineCache.Value

/-! The texts of a value: how it is displayed, and its JSON form. -/
namespace InlineCache.Value

/-- A displayed float never has an exponent and drops the point of a whole number; of two equally
near decimals the upper one is taken. -/
def displayFloat : Decimal.Format := ⟨.up, fun _ => true, false⟩

/-- A float in JSON is positional from `10 ^ -5` up to below `10 ^ 16` and keeps the point of a
whole number; of two equally near decimals the even one is taken. -/
def jsonFloat : Decimal.Format := ⟨.toEven, fun e => -5 ≤ e && e < 16, true⟩

/-- The text of a float, infinities and undefined values included. -/
def floatText (x : Float) : String :=
  match displayFloat.write? x with
  | some cs => String.ofList cs
  | none => if x.isNaN then "NaN" else if x < 0 then "-inf" else "inf"

/-- The text of a value: strings in quoted form, symbols raw behind a colon. -/
def display : Value → String
  | nil => "nil"
  | bool b => if b then "true" else "false"
  | int i => toString i
  | float x => floatText x
  | symbol s => ":" ++ s
  | str s => Text.quote s
  | object id c => "#<object " ++ toString id ++ " of " ++ c.display ++ ">"

/-- The kind of a value before its text. -/
def shown (v : Value) : String := v.kindName ++ " " ++ v.display

/-- The JSON form of a value. Floats that are not finite are null. -/
def json : Value → Text.Json
  | nil => .null
  | bool b => .bool b
  | int i => .int i
  | float x => match jsonFloat.write? x with
    | some cs => .number (String.ofList cs)
    | none => .null
  | symbol s => .str (":" ++ s)
  | str s => .str s
  | object id c => .object [("object", .nat id), ("class", .nat c.number)]

end InlineCache.Value
