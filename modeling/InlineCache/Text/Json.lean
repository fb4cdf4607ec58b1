/-! JSON documents with their members in written order, in a compact and an indented spelling. -/
namespace InlineCache.Text

/-- A JSON document. A number is given by its spelling. -/
inductive Json where
  | null
  | bool (b : Bool)
  | number (spelling : String)
  | str (s : String)
  | list (items : List Json)
  | object (members : List (String × Json))
  deriving Inhabited

namespace Json

def int (i : Int) : Json := .number (toString i)

def nat (n : Nat) : Json := .number (toString n)

/-- An optional text; nothing is `null`. -/
def strOrNull : Option String → Json
  | some s => .str s
  | none => .null

def hex4 (n : Nat) : List Char :=
  let ds := Nat.toDigits 16 n
  List.replicate (4 - ds.length) '0' ++ ds

/-- One character of a JSON string: the quote, the backslash and controls are escaped, all else
stands as it is. -/
def escapeChar (c : Char) : List Char :=
  if c = '"' then ['\\', '"']
  else if c = '\\' then ['\\', '\\']
  else if c = '\x08' then ['\\', 'b']
  else if c = '\x0c' then ['\\', 'f']
  else if c = '\n' then ['\\', 'n']
  else if c = '\r' then ['\\', 'r']
  else if c = '\t' then ['\\', 't']
  else if c.toNat < 0x20 then ['\\', 'u'] ++ hex4 c.toNat
  else [c]

def quoted (s : String) : String := String.ofList ('"' :: s.toList.flatMap escapeChar ++ ['"'])

mutual

/-- The compact spelling, without blanks. -/
def compact : Json → String
  | null => "null"
  | bool b => if b then "true" else "false"
  | number s => s
  | str s => quoted s
  | list items => "[" ++ ",".intercalate (compactItems items) ++ "]"
  | object members => "\x7b" ++ ",".intercalate (compactMembers members) ++ "\x7d"

def compactItems : List Json → List String
  | [] => []
  | x :: r => compact x :: compactItems r

def compactMembers : List (String × Json) → List String
  | [] => []
  | (k, x) :: r => (quoted k ++ ":" ++ compact x) :: compactMembers r

end

/-- Two blanks for each level. -/
def indent (depth : Nat) : String := String.ofList (List.replicate (2 * depth) ' ')

/-- Parts on lines of their own, one level inside a pair of brackets. -/
def bracketed (depth : Nat) (opening closing : String) (parts : List String) : String :=
  if parts.isEmpty then opening ++ closing
  else
    let lines := parts.map fun p => indent (depth + 1) ++ p
    opening ++ "\n" ++ ",\n".intercalate lines ++ "\n" ++ indent depth ++ closing

mutual

/-- The indented spelling of a document that starts at a depth. -/
def indented (depth : Nat) : Json → String
  | list items => bracketed depth "[" "]" (indentedItems (depth + 1) items)
  | object members => bracketed depth "\x7b" "\x7d" (indentedMembers (depth + 1) members)
  | null => "null"
  | bool b => if b then "true" else "false"
  | number s => s
  | str s => quoted s

def indentedItems (depth : Nat) : List Json → List String
  | [] => []
  | x :: r => indented depth x :: indentedItems depth r

def indentedMembers (depth : Nat) : List (String × Json) → List String
  | [] => []
  | (k, x) :: r => (quoted k ++ ": " ++ indented depth x) :: indentedMembers depth r

end

/-- The indented spelling of a whole document. -/
def pretty (j : Json) : String := indented 0 j

end Json
end InlineCache.Text
