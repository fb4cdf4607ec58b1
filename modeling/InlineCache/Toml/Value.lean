/-! The data of a TOML document, and what can be wrong with one. -/
namespace InlineCache.Toml

/-- A TOML value. The members of a table are in the order in which they came to be; a date or time
is kept as it was written. -/
inductive Value where
  | string (s : String)
  | integer (i : Int)
  | float (x : Float)
  | boolean (b : Bool)
  | datetime (text : String)
  | array (items : List Value)
  | table (members : List (String × Value))
  deriving Repr, Inhabited

/-- Why a text is refused: it is no TOML document, or does not fit the data that is asked for. -/
inductive Error where
  | malformed
  | missingField (name : String)
  | unknownField (name : String) (expected : List String)
  | unknownVariant (name : String) (expected : List String)
  | misfit
  deriving DecidableEq, Repr

def marked (name : String) : String := "`" ++ name ++ "`"

def oneOf : List String → String
  | [a] => marked a
  | [a, b] => marked a ++ " or " ++ marked b
  | names => "one of " ++ ", ".intercalate (names.map marked)

/-- The part of an error that names fields or variants. -/
def Error.detail? : Error → Option String
  | missingField name => some ("missing field " ++ marked name)
  | unknownField name expected =>
    some ("unknown field " ++ marked name ++ ", expected " ++ oneOf expected)
  | unknownVariant name expected =>
    some ("unknown variant " ++ marked name ++ ", expected " ++ oneOf expected)
  | malformed | misfit => none

/-- The text of an error, under the heading that all errors of a document have. -/
def Error.message (e : Error) : String :=
  match e.detail? with
  | some detail => "TOML parse error: " ++ detail
  | none => "TOML parse error"

end InlineCache.Toml
