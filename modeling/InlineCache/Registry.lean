import InlineCache.Method
import InlineCache.Table
import InlineCache.Token

/-! Classes with single inheritance, their method tables, and the lookup of a message. Every class
has a rolling token that stands for "the answers of lookups on this class are unchanged": changing
a class rolls the tokens of the class and of all classes below it. -/
namespace InlineCache

/-- What is kept of one class. The number of a class is its place in the registry. -/
structure ClassEntry (β : Type) where
  name : String
  superclass : Option ClassId
  methods : Table (Method β) := {}
  unmodified : RollingToken
  cacheable : Bool := true
  deriving DecidableEq, Repr, Inhabited

/-- All classes, with all tokens that were ever made. -/
structure Registry (β : Type) where
  tokens : TokenStore := {}
  classes : Array (ClassEntry β) := #[]
  deriving DecidableEq, Repr, Inhabited

/-- Why a change of the registry is refused. -/
inductive RegistryError where
  | unknownSuperclass (superclass : ClassId) (name : String)
  | nameTaken (name : String)
  | unknownClass (classId : ClassId)
  deriving DecidableEq, Repr

def RegistryError.message : RegistryError → String
  | unknownSuperclass s name => "unknown superclass " ++ s.display ++ " for class " ++ name
  | nameTaken name => "class " ++ name ++ " is already defined"
  | unknownClass c => "unknown class " ++ c.display

/-- The answer to a full lookup. The token of a defined class is valid for as long as the answer
holds; nothing is known of a class that is not defined, so no token stands for it. -/
structure Lookup (β : Type) where
  classId : ClassId
  method : Option (Method β)
  token : Option TokenId
  cacheable : Bool
  deriving DecidableEq, Repr

namespace Registry

variable {β : Type}

def entry? (r : Registry β) (c : ClassId) : Option (ClassEntry β) := r.classes[c.number]?

/-- Adds a class with a fresh token at the next free place. -/
def addClass (r : Registry β) (name : String) (superclass : Option ClassId) : Registry β :=
  let (tokens, unmodified) := RollingToken.start r.tokens (name ++ " unmodified")
  { tokens, classes := r.classes.push { name, superclass, unmodified } }

/-- The classes every registry starts with; all but the first have it as superclass. -/
def builtinNames : List String :=
  ["Object", "NilClass", "TrueClass", "FalseClass", "Integer", "Float", "Symbol", "String"]

def builtin : Registry β :=
  builtinNames.foldl
    (fun r name => r.addClass name (if r.classes.isEmpty then none else some .object)) {}

def classId? (r : Registry β) (name : String) : Option ClassId :=
  (r.classes.findIdx? fun e => e.name == name).map ClassId.mk

def superclass? (r : Registry β) (c : ClassId) : Option ClassId :=
  (r.entry? c).bind ClassEntry.superclass

/-- The name of a class; a class that is not defined is named by its number. -/
def className (r : Registry β) (c : ClassId) : String :=
  match r.entry? c with
  | some e => e.name
  | none => "<class " ++ c.display ++ ">"

def currentToken? (r : Registry β) (c : ClassId) : Option TokenId :=
  (r.entry? c).map fun e => e.unmodified.current

/-- A class and its superclasses, nearest first. A superclass was there before its subclass, so it
has a smaller number. -/
def ancestry (r : Registry β) (c : ClassId) : List ClassId :=
  match r.entry? c with
  | none => []
  | some e => c :: match e.superclass with
    | none => []
    | some s => if _h : s.number < c.number then r.ancestry s else []
termination_by c.number

/-- Whether a class is another class or inherits from it. -/
def inherits (r : Registry β) (c ancestor : ClassId) : Bool := (r.ancestry c).contains ancestor

/-- Replaces the token of one class. -/
def rollClass (r : Registry β) (c : ClassId) : Registry β :=
  match r.entry? c with
  | none => r
  | some e =>
    let (tokens, unmodified) := e.unmodified.roll r.tokens
    { tokens, classes := r.classes.modify c.number fun e => { e with unmodified } }

/-- Replaces the tokens of a class and of all classes below it. -/
def rollBelow (r : Registry β) (c : ClassId) : Registry β :=
  ((List.range r.classes.size).filter fun i => r.inherits ⟨i⟩ c).foldl
    (fun r i => r.rollClass ⟨i⟩) r

/-- Changes the entry of a class and rolls the tokens of what inherits from it. -/
def change (r : Registry β) (c : ClassId) (f : ClassEntry β → ClassEntry β) : Registry β :=
  { r with classes := r.classes.modify c.number f }.rollBelow c

/-- Defines a class under `Object` or a given superclass. An unknown superclass is reported before
a name that is taken. -/
def defineClass (r : Registry β) (name : String) (superclass : Option ClassId) :
    Except RegistryError (Registry β × ClassId) :=
  let s := superclass.getD .object
  if (r.entry? s).isNone then .error (.unknownSuperclass s name)
  else if (r.classId? name).isSome then .error (.nameTaken name)
  else .ok (r.addClass name (some s), ⟨r.classes.size⟩)

def setCacheable (r : Registry β) (c : ClassId) (cacheable : Bool) :
    Except RegistryError (Registry β) :=
  if (r.entry? c).isNone then .error (.unknownClass c)
  else .ok (r.change c fun e => { e with cacheable })

/-- Puts a method into the table of the class that owns it. -/
def defineMethod (r : Registry β) (m : Method β) : Except RegistryError (Registry β) :=
  if (r.entry? m.owner).isNone then .error (.unknownClass m.owner)
  else .ok (r.change m.owner fun e => { e with methods := e.methods.put m.name m })

/-- Removes a method from the table of a class itself; tells whether there was one. -/
def removeMethod (r : Registry β) (c : ClassId) (name : String) :
    Except RegistryError (Registry β × Bool) :=
  match r.entry? c with
  | none => .error (.unknownClass c)
  | some e =>
    if e.methods.contains name then
      .ok (r.change c fun e => { e with methods := e.methods.erase name }, true)
    else .ok (r, false)

/-- The nearest definition of a message on a class or above it. -/
def find? (r : Registry β) (c : ClassId) (name : String) : Option (Method β) :=
  (r.ancestry c).findSome? fun a => (r.entry? a).bind fun e => e.methods.get? name

/-- The full lookup of a message. The nearest definition decides: a private one is no answer to a
lookup that minds visibility, and hides those above it. -/
def resolve (r : Registry β) (c : ClassId) (name : String) (ignoreVisibility : Bool) : Lookup β :=
  match r.entry? c with
  | none => { classId := c, method := none, token := none, cacheable := false }
  | some e =>
    { classId := c
      method := (r.find? c name).filter fun m => ignoreVisibility || !m.isPrivate
      token := some e.unmodified.current
      cacheable := e.cacheable }

/-- Adds a token that belongs to no class. -/
def freshToken (r : Registry β) (name : String) : Registry β × TokenId :=
  let (tokens, t) := r.tokens.fresh name
  ({ r with tokens }, t)

def invalidateToken (r : Registry β) (t : TokenId) : Registry β :=
  { r with tokens := r.tokens.invalidate t }

end Registry

example : (Registry.builtin : Registry Unit).classId? "Symbol" = some .symbol := by
  decide +kernel
example : (Registry.builtin : Registry Unit).ancestry .string = [.string, .object] := by
  decide +kernel

end InlineCache
