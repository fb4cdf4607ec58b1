import InlineCache.Toml.Reader

/-! Strings: in double quotes with escapes, in single quotes without, each on one line or over
several lines between three quotes. -/
namespace InlineCache.Toml

/-- A character that may stand in a string in double quotes without an escape. -/
def isBasicChar (c : Char) : Bool := isLineChar c && c ≠ '"' && c ≠ '\\'

/-- A character that may stand in a string in single quotes. -/
def isLiteralChar (c : Char) : Bool := isLineChar c && c ≠ '\''

def hexValue? (c : Char) : Option Nat :=
  if '0' ≤ c ∧ c ≤ '9' then some (c.toNat - 48)
  else if 'a' ≤ c ∧ c ≤ 'f' then some (c.toNat - 87)
  else if 'A' ≤ c ∧ c ≤ 'F' then some (c.toNat - 55)
  else none

/-- The character of a code point written in hexadecimal digits. -/
def charOfHex? (ds : List Char) : Option Char := do
  let vs ← ds.mapM hexValue?
  let n := vs.foldl (fun n v => 16 * n + v) 0
  if n.isValidChar then some (Char.ofNat n) else none

/-- The character that a letter stands for behind a backslash. -/
def escaped? : Char → Option Char
  | 'b' => some '\x08'
  | 'f' => some '\x0c'
  | 'n' => some '\n'
  | 'r' => some '\r'
  | 't' => some '\t'
  | '\\' => some '\\'
  | '"' => some '"'
  | _ => none

/-- Puts a character in front of what a reader took. -/
def push (c : Char) (r : Option (List Char × List Char)) : Option (List Char × List Char) :=
  r.map fun x => (c :: x.1, x.2)

/-- Puts the character of an escape in front of what a reader took. -/
def pushHex (ds : List Char) (r : Option (List Char × List Char)) :
    Option (List Char × List Char) :=
  (charOfHex? ds).bind fun c => push c r

/-- The rest of a string in double quotes. -/
def basicBody : List Char → Option (List Char × List Char)
  | [] => none
  | '"' :: r => some ([], r)
  | '\\' :: 'u' :: a :: b :: c :: d :: r => pushHex [a, b, c, d] (basicBody r)
  | '\\' :: 'U' :: a :: b :: c :: d :: e :: f :: g :: h :: r =>
    pushHex [a, b, c, d, e, f, g, h] (basicBody r)
  | '\\' :: e :: r => (escaped? e).bind fun c => push c (basicBody r)
  | c :: r => if isBasicChar c then push c (basicBody r) else none

/-- The rest of a string in single quotes. -/
def literalBody : List Char → Option (List Char × List Char)
  | [] => none
  | c :: r =>
    if c = '\'' then some ([], r)
    else if isLiteralChar c then push c (literalBody r)
    else none

/-- Where a reader of several lines is: in the text, between a backslash and the line end that it
joins, or in the blanks after a joined line end, which do not count. -/
inductive Joining where
  | no
  | before
  | after
  deriving DecidableEq, Repr

/-- The rest of a string over several lines in double quotes. One or two quotes may stand in the
text, also right before the three that end it. -/
def basicLines : Joining → List Char → Option (List Char × List Char)
  | .before, '\n' :: r => basicLines .after r
  | .before, '\r' :: '\n' :: r => basicLines .after r
  | .before, c :: r => if isSpace c then basicLines .before r else none
  | .after, ' ' :: r => basicLines .after r
  | .after, '\t' :: r => basicLines .after r
  | .after, '\n' :: r => basicLines .after r
  | .after, '\r' :: '\n' :: r => basicLines .after r
  | _, '"' :: '"' :: '"' :: '"' :: '"' :: r => some (['"', '"'], r)
  | _, '"' :: '"' :: '"' :: '"' :: r => some (['"'], r)
  | _, '"' :: '"' :: '"' :: r => some ([], r)
  | _, '"' :: r => push '"' (basicLines .no r)
  | _, '\n' :: r => push '\n' (basicLines .no r)
  | _, '\r' :: '\n' :: r => push '\n' (basicLines .no r)
  | _, '\\' :: 'u' :: a :: b :: c :: d :: r => pushHex [a, b, c, d] (basicLines .no r)
  | _, '\\' :: 'U' :: a :: b :: c :: d :: e :: f :: g :: h :: r =>
    pushHex [a, b, c, d, e, f, g, h] (basicLines .no r)
  | _, '\\' :: '\n' :: r => basicLines .after r
  | _, '\\' :: '\r' :: '\n' :: r => basicLines .after r
  | _, '\\' :: e :: r =>
    if isSpace e then basicLines .before r
    else (escaped? e).bind fun c => push c (basicLines .no r)
  | _, c :: r => if isBasicChar c then push c (basicLines .no r) else none
  | _, [] => none

/-- The rest of a string over several lines in single quotes. -/
def literalLines : List Char → Option (List Char × List Char)
  | '\'' :: '\'' :: '\'' :: '\'' :: '\'' :: r => some (['\'', '\''], r)
  | '\'' :: '\'' :: '\'' :: '\'' :: r => some (['\''], r)
  | '\'' :: '\'' :: '\'' :: r => some ([], r)
  | '\'' :: r => push '\'' (literalLines r)
  | '\n' :: r => push '\n' (literalLines r)
  | '\r' :: '\n' :: r => push '\n' (literalLines r)
  | c :: r => if isLiteralChar c then push c (literalLines r) else none
  | [] => none

/-- A line end right after the opening quotes does not count. -/
def dropNewline : List Char → List Char
  | '\n' :: r => r
  | '\r' :: '\n' :: r => r
  | r => r

def basicString : Reader (List Char)
  | '"' :: r => basicBody r
  | _ => none

def literalString : Reader (List Char)
  | '\'' :: r => literalBody r
  | _ => none

/-- A string in any of the four forms. Three quotes always open a string over several lines. -/
def anyString : Reader (List Char)
  | '"' :: '"' :: '"' :: r => basicLines .no (dropNewline r)
  | '\'' :: '\'' :: '\'' :: r => literalLines (dropNewline r)
  | '"' :: r => basicBody r
  | '\'' :: r => literalBody r
  | _ => none

example : basicBody "a\\tb\" x".toList = some (['a', '\t', 'b'], [' ', 'x']) := by decide
example : basicLines .no "A \\\n   B\"\"\"\"".toList = some (['A', ' ', 'B', '"'], []) := by
  decide +kernel

end InlineCache.Toml
