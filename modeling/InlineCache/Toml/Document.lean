import InlineCache.Toml.Scalar

/-! Whole documents. A document is read line by line; headers and dotted keys then build a tree of
tables. A table is made by its own header, by the headers of tables inside it, or by dotted keys,
and how it was made decides what may still be added to it. -/
namespace InlineCache.Toml

open Reader

/-- The most parts a dotted key may have, and the most values that may stand inside one another. -/
def depthLimit : Nat := 79

/-- A key without dots: bare, or a string on one line. -/
def simpleKey : Reader String := do
  let cs ← basicString <|> literalString <|> run1 fun c =>
    c.isAlphanum || c == '-' || c == '_'
  pure (String.ofList cs)

/-- A key: simple keys between dots, with blanks around each. -/
def key : Reader (List String) := do
  let part : Reader String := do
    spaces
    let k ← simpleKey
    spaces
    pure k
  let path ← sepBy1 part (char '.')
  if path.length ≤ depthLimit then pure path else fail

/-- How a table came to be: by its own header or braces, by the header of a table inside it, or by
dotted keys. -/
inductive Origin where
  | explicit
  | implied
  | dotted
  deriving DecidableEq, Repr

/-- What stands under a key while a document is built. -/
inductive Item where
  | value (v : Value)
  | table (origin : Origin) (members : List (String × Item))
  | tables (elements : List (List (String × Item)))
  deriving Inhabited

/-- The members of a table under construction. -/
abbrev Members : Type := List (String × Item)

namespace Members

def get? (t : Members) (k : String) : Option Item := (t.find? fun e => e.1 == k).map Prod.snd

/-- Replaces the item under a key, or adds it behind all others. -/
def set (t : Members) (k : String) (x : Item) : Members :=
  if (t.get? k).isSome then t.map fun e => if e.1 == k then (k, x) else e else t ++ [(k, x)]

def remove (t : Members) (k : String) : Members := t.filter fun e => !(e.1 == k)

/-- Adds a value under a dotted key. Tables on the way are made as needed. One that is there may be
entered unless it was made by a header of its own, but the last must be one that dotted keys made;
an array of tables may be entered on the way, at its last element. -/
def insert (v : Value) : List String → Members → Option Members
  | [], _ => none
  | [k], t => if (t.get? k).isSome then none else some (t.set k (.value v))
  | k :: rest, t =>
    match t.get? k with
    | none => do pure (t.set k (.table .dotted (← insert v rest [])))
    | some (.table .dotted m) => do pure (t.set k (.table .dotted (← insert v rest m)))
    | some (.table .implied m) =>
      if rest.length = 1 then none
      else do pure (t.set k (.table .implied (← insert v rest m)))
    | some (.tables es) =>
      if rest.length = 1 then none
      else do
        let m ← insert v rest (← es.getLast?)
        pure (t.set k (.tables (es.dropLast ++ [m])))
    | some (.table .explicit _) | some (.value _) => none

/-- Changes the table that a header's path leads to. Any table may be entered, an array of tables at
its last element; tables that are not there are implied. -/
def enter (f : Members → Option Members) : List String → Members → Option Members
  | [], t => f t
  | k :: rest, t =>
    match t.get? k with
    | none => do pure (t.set k (.table .implied (← enter f rest [])))
    | some (.table origin m) => do pure (t.set k (.table origin (← enter f rest m)))
    | some (.tables es) => do
      let m ← enter f rest (← es.getLast?)
      pure (t.set k (.tables (es.dropLast ++ [m])))
    | some (.value _) => none

def insertAll (pairs : List (List String × Value)) (t : Members) : Option Members :=
  pairs.foldlM (fun t p => insert p.2 p.1 t) t

end Members

mutual

def Item.toValue : Item → Value
  | .value v => v
  | .table _ m => .table (membersToValue m)
  | .tables es => .array (elementsToValue es)

def membersToValue : List (String × Item) → List (String × Value)
  | [] => []
  | (k, x) :: r => (k, x.toValue) :: membersToValue r

def elementsToValue : List (List (String × Item)) → List Value
  | [] => []
  | m :: r => .table (membersToValue m) :: elementsToValue r

end

/-- An array of values that are read in a given way. A comma may follow the last one. -/
def array (item : Reader Value) : Reader Value := do
  char '['
  let items ← sepBy (do
    spacing
    let v ← item
    spacing
    pure v) (char ',')
  if items.isEmpty then pure () else do
    let _ ← optional (char ',')
  spacing
  char ']'
  pure (.array items)

/-- A table in braces on one line, without a comma behind the last pair. -/
def inlineTable (item : Reader Value) : Reader Value := do
  char '\x7b'
  let pairs ← sepBy (do
    let path ← key
    char '='
    spaces
    let v ← item
    spaces
    pure (path, v)) (char ',')
  spaces
  char '\x7d'
  match Members.insertAll pairs [] with
  | some m => pure (.table (membersToValue m))
  | none => fail

/-- A value with at most the given number of arrays and tables inside one another. -/
def value : Nat → Reader Value
  | 0 => scalar
  | depth + 1 => array (value depth) <|> inlineTable (value depth) <|> scalar

inductive Line where
  | blank
  | header (path : List String)
  | element (path : List String)
  | pair (path : List String) (v : Value)
  deriving Repr

/-- Takes a line. Two brackets right behind one another always open an element of an array. -/
def line : Reader Line := do
  spaces
  match ← peek with
  | some '#' =>
    comment
    lineEnd
    pure .blank
  | some '[' =>
    let opened ← optional (word ['[', '['])
    match opened with
    | some _ =>
      let path ← key
      word [']', ']']
      trailing
      pure (.element path)
    | none =>
      char '['
      let path ← key
      char ']'
      trailing
      pure (.header path)
  | some c =>
    if c = '\n' ∨ c = '\r' then
      newline
      pure .blank
    else
      let path ← key
      char '='
      spaces
      let v ← value depthLimit
      trailing
      pure (.pair path v)
  | none => fail

/-- The lines of a document, behind an optional byte order mark. -/
def lines? (cs : List Char) : Option (List Line) :=
  let cs := match cs with
    | '\ufeff' :: r => r
    | r => r
  let (ls, rest) := manyFrom line cs
  if (rest.dropWhile isSpace).isEmpty then some ls else none

/-- The pairs at the front of some lines, up to the next header, and the rest. -/
def takePairs : List Line → List (List String × Value) × List Line
  | .blank :: r => takePairs r
  | .pair path v :: r =>
    let (pairs, rest) := takePairs r
    ((path, v) :: pairs, rest)
  | r => ([], r)

theorem length_takePairs (ls : List Line) : (takePairs ls).2.length ≤ ls.length := by
  induction ls with
  | nil => simp [takePairs]
  | cons l r ih =>
    cases l with
    | blank => simp only [takePairs, List.length_cons]; omega
    | pair path v => simp only [takePairs, List.length_cons]; omega
    | header path => simp [takePairs]
    | element path => simp [takePairs]

/-- Opens a table by its header. One that is there must be implied; it moves behind the others. -/
def openTable (pairs : List (List String × Value)) (k : String) (t : Members) : Option Members := do
  let m ← match t.get? k with
    | none => some []
    | some (.table .implied m) => some m
    | some _ => none
  let m ← Members.insertAll pairs m
  pure ((t.remove k).set k (.table .explicit m))

/-- Adds an element to an array of tables, which only headers can have made. -/
def openElement (pairs : List (List String × Value)) (k : String) (t : Members) :
    Option Members := do
  let es ← match t.get? k with
    | none => some []
    | some (.tables es) => some es
    | some _ => none
  let m ← Members.insertAll pairs []
  pure (t.set k (.tables (es ++ [m])))

/-- Builds the tables of the sections that follow the first header. -/
def buildSections (root : Members) (ls : List Line) : Option Members :=
  match ls with
  | [] => some root
  | .header path :: r => do
    let root ← Members.enter (openTable (takePairs r).1 (path.getLastD "")) path.dropLast root
    buildSections root (takePairs r).2
  | .element path :: r => do
    let root ← Members.enter (openElement (takePairs r).1 (path.getLastD "")) path.dropLast root
    buildSections root (takePairs r).2
  | .blank :: r => buildSections root r
  | .pair .. :: _ => none
termination_by ls.length
decreasing_by all_goals have := length_takePairs r; simp only [List.length_cons]; omega

/-- Reads a document as the members of its outermost table. -/
def parse (text : String) : Except Error (List (String × Value)) :=
  let members := do
    let ls ← lines? text.toList
    let (pairs, rest) := takePairs ls
    let root ← Members.insertAll pairs []
    buildSections root rest
  match members with
  | some m => .ok (membersToValue m)
  | none => .error .malformed

end InlineCache.Toml
