/-! Readers: functions that take a value off the front of a text. A reader that fails takes nothing,
so the next alternative starts where it did. -/
namespace InlineCache.Toml

/-- Takes a value off the front of a text, or fails. -/
abbrev Reader (α : Type) : Type := StateT (List Char) Option α

namespace Reader

variable {α : Type}

def fail : Reader α := fun _ => none

/-- Takes a character that passes a test. -/
def one (p : Char → Bool) : Reader Char
  | c :: r => if p c then some (c, r) else none
  | [] => none

def char (c : Char) : Reader Unit
  | d :: r => if d = c then some ((), r) else none
  | [] => none

def word : List Char → Reader Unit
  | [] => pure ()
  | c :: r => do char c; word r

/-- Takes the longest run of characters that pass a test. -/
def run (p : Char → Bool) : Reader (List Char) := fun cs => some (cs.takeWhile p, cs.dropWhile p)

def run1 (p : Char → Bool) : Reader (List Char) := do
  let c ← one p
  let r ← run p
  pure (c :: r)

/-- Looks at the next character without taking it. -/
def peek : Reader (Option Char) := fun cs => some (cs.head?, cs)

def eof : Reader Unit
  | [] => some ((), [])
  | _ => none

/-- Takes values from a text until the reader fails or takes nothing. -/
def manyFrom (r : Reader α) (cs : List Char) : List α × List Char :=
  match r cs with
  | none => ([], cs)
  | some (a, rest) =>
    if _h : rest.length < cs.length then
      let (as, rest) := manyFrom r rest
      (a :: as, rest)
    else ([], cs)
termination_by cs.length

def many (r : Reader α) : Reader (List α) := fun cs => some (manyFrom r cs)

/-- Takes one or more values with separators between them. -/
def sepBy1 (r : Reader α) (sep : Reader Unit) : Reader (List α) := do
  let a ← r
  let as ← many (do sep; r)
  pure (a :: as)

/-- Takes any number of values with separators between them. -/
def sepBy (r : Reader α) (sep : Reader Unit) : Reader (List α) := sepBy1 r sep <|> pure []

end Reader

/-- A blank inside a line. -/
def isSpace (c : Char) : Bool := c == ' ' || c == '\t'

/-- A character that may stand in a comment: a tab or anything but a control character. -/
def isLineChar (c : Char) : Bool := c == '\t' || (' ' ≤ c && c ≠ '\x7f')

def spaces : Reader Unit := do
  let _ ← Reader.run isSpace
  pure ()

/-- The end of a line, which is not a lone carriage return. -/
def newline : Reader Unit := Reader.char '\n' <|> Reader.word ['\r', '\n']

def comment : Reader Unit := do
  Reader.char '#'
  let _ ← Reader.run isLineChar
  pure ()

def lineEnd : Reader Unit := newline <|> Reader.eof

/-- What may follow on a line after its content. -/
def trailing : Reader Unit := do
  spaces
  let _ ← optional comment
  lineEnd

/-- Blanks, line ends and comments between the items of an array. -/
def spacing : Reader Unit := do
  let blank : Reader Unit := do
    let _ ← Reader.run1 isSpace
    pure ()
  let _ ← Reader.many (blank <|> newline <|> (do comment; newline))
  pure ()

end InlineCache.Toml
