import InlineCache.Toml.Document

/-! Fitting TOML values to the data that is asked for. The members of a table are looked at in the
order of the document and the first that does not fit is the error; fields that are missing are
reported after that, in the order in which they are declared. A record may also be written as an
array of its fields in that order. -/
namespace InlineCache.Toml

/-- The key under which a date or time stands where a table is asked for. -/
def datetimeKey : String := "$__toml_private_datetime"

def asString : Value → Except Error String
  | .string s => .ok s
  | _ => .error .misfit

def asBool : Value → Except Error Bool
  | .boolean b => .ok b
  | _ => .error .misfit

def asNat : Value → Except Error Nat
  | .integer i => if i < 0 then .error .misfit else .ok i.toNat
  | _ => .error .misfit

/-- The items of an array, each fitted. -/
def asList {α : Type} (item : Value → Except Error α) : Value → Except Error (List α)
  | .array items => items.mapM item
  | _ => .error .misfit

/-- One of some named variants. A table with the variant as its only key and nothing under it will
do as well as the name. -/
def asVariant {α : Type} (variants : List (String × α)) (v : Value) : Except Error α :=
  let named (name : String) : Except Error α :=
    match variants.find? fun e => e.1 == name with
    | some e => .ok e.2
    | none => .error (.unknownVariant name (variants.map Prod.fst))
  match v with
  | .string name => named name
  | .table [(name, x)] => do
    let a ← named name
    match x with
    | .table [] | .array [] => .ok a
    | _ => .error .misfit
  | _ => .error .misfit

/-- How a record was written. -/
inductive Spelling where
  | keyed
  | positional
  deriving DecidableEq, Repr

/-- A field that must be there. -/
def required {α : Type} (spelling : Spelling) (name : String) : Option α → Except Error α
  | some x => .ok x
  | none => match spelling with
    | .keyed => .error (.missingField name)
    | .positional => .error .misfit

/-- A field that a table may leave out, but an array may not. -/
def perhaps {α : Type} (spelling : Spelling) : Option α → Except Error (Option α)
  | some x => .ok (some x)
  | none => match spelling with
    | .keyed => .ok none
    | .positional => .error .misfit

/-- How a record is read: its fields in order, what is known of it before any field is seen, what a
field adds, and what is made of it in the end. -/
structure Record (π α : Type) where
  fields : List String
  start : π
  visit : π → String → Value → Except Error π
  finish : Spelling → π → Except Error α

namespace Record

variable {π α : Type}

/-- The error for a field that a record does not have. -/
def unknown (fields : List String) (name : String) : Except Error π :=
  .error (.unknownField name fields)

/-- Reads a record from the members of a table. -/
def ofMembers (r : Record π α) (ms : List (String × Value)) : Except Error α := do
  r.finish .keyed (← ms.foldlM (fun p m => r.visit p m.1 m.2) r.start)

/-- Reads a record from its fields in order; items behind the last field are not looked at. -/
def ofItems (r : Record π α) (items : List Value) : Except Error α := do
  r.finish .positional
    (← (r.fields.zip items).foldlM (fun p m => r.visit p m.1 m.2) r.start)

def read (r : Record π α) : Value → Except Error α
  | .table ms => r.ofMembers ms
  | .datetime text => r.ofMembers [(datetimeKey, .string text)]
  | .array items => r.ofItems items
  | _ => .error .misfit

end Record

/-- What is left of a value when the member that names its variant is taken out. -/
inductive Content where
  | members (ms : List (String × Value))
  | items (vs : List Value)

/-- Takes the member that names a variant out of a table, or the first item off an array. -/
def takeVariant {α : Type} (tag : String) (variants : List (String × α)) :
    Value → Except Error (α × Content)
  | .table ms => do
    match ms.find? fun m => m.1 == tag with
    | none => .error (.missingField tag)
    | some m =>
      let a ← name m.2
      .ok (a, .members (ms.filter fun m => !(m.1 == tag)))
  | .array [] | .datetime _ => .error (.missingField tag)
  | .array (v :: vs) => do .ok (← name v, .items vs)
  | _ => .error .misfit
where
  /-- The variant that a text names. -/
  name : Value → Except Error α
    | .string s => match variants.find? fun e => e.1 == s with
      | some e => .ok e.2
      | none => .error (.unknownVariant s (variants.map Prod.fst))
    | _ => .error .misfit

/-- Reads a record from content; an array may not have items behind the last field. -/
def Record.ofContent {π α : Type} (r : Record π α) : Content → Except Error α
  | .members ms => r.ofMembers ms
  | .items vs => do
    let a ← r.ofItems vs
    if vs.length ≤ r.fields.length then .ok a else .error .misfit

end InlineCache.Toml
