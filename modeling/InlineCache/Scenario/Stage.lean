import InlineCache.Scenario.Literal
import InlineCache.Scenario.Model
import InlineCache.Value.Display
import InlineCache.World.Flight

/-! A scenario made ready: its classes and methods defined and its sites made, in that order. -/
namespace InlineCache.Scenario

/-- What is wrong with a scenario, and where. -/
inductive Fault where
  | unknownClass (name : String)
  | literal (error : LiteralError)
  | registry (error : RegistryError)
  | twoResults
  | noResult
  | duplicateSite (name : String)
  | unknownSite (name : String)
  | inClass (name : String) (fault : Fault)
  | inMethod (className name : String) (fault : Fault)
  | inStep (number : Nat) (fault : Fault)
  deriving DecidableEq, Repr

def Fault.messages : Fault → List String
  | unknownClass name => ["unknown class " ++ name]
  | literal e => [e.message]
  | registry e => [e.message]
  | twoResults => ["`returns` and `fails` are mutually exclusive"]
  | noResult => ["one of `returns` or `fails` is required"]
  | duplicateSite name => ["duplicate site " ++ name]
  | unknownSite name => ["unknown site " ++ name]
  | inClass name f => ("class " ++ name) :: f.messages
  | inMethod className name f => ("method " ++ className ++ "#" ++ name) :: f.messages
  | inStep number f => ("step " ++ toString number) :: f.messages

inductive Body where
  | returns (v : Value)
  | fails (message : String)
  deriving DecidableEq, Repr

def Body.result (a : Activation Body) : Except Failure Value :=
  match a.method.body with
  | .returns v => .ok v
  | .fails message => .error (.raised message none)

/-- A world with the names of its sites. -/
structure Stage where
  world : World Body
  sites : List (String × SiteId) := []

namespace Stage

def classId (s : Stage) (name : String) : Except Fault ClassId :=
  match s.world.registry.classId? name with
  | some c => .ok c
  | none => .error (.unknownClass name)

def site (s : Stage) (name : String) : Except Fault SiteId :=
  match s.sites.find? fun e => e.1 == name with
  | some e => .ok e.2
  | none => .error (.unknownSite name)

def literal (s : Stage) (raw : String) : Except Fault (Stage × Value) :=
  match evalLiteral s.world raw with
  | .ok (world, v) => .ok ({ s with world }, v)
  | .error e => .error (.literal e)

/-- The values of literals, from left to right. -/
def literals (s : Stage) : List String → Except Fault (Stage × List Value)
  | [] => .ok (s, [])
  | raw :: r => do
    let (s, v) ← s.literal raw
    let (s, vs) ← s.literals r
    .ok (s, v :: vs)

/-- The body of a method; exactly one of a result and a failure must be given. -/
def body (s : Stage) (m : MethodSpec) : Except Fault (Stage × Body) :=
  match m.returns, m.fails with
  | some raw, none => do
    let (s, v) ← s.literal raw
    .ok (s, .returns v)
  | none, some message => .ok (s, .fails message)
  | some _, some _ => .error .twoResults
  | none, none => .error .noResult

/-- Defines a class. A superclass that is not known is reported without saying for which class. -/
def defineClass (s : Stage) (c : ClassSpec) : Except Fault Stage := do
  let superclass ← match c.superclass with
    | none => .ok none
    | some name => (s.classId name).map some
  let (world, result) := s.world.defineClass c.name superclass
  match result with
  | .error e => .error (.inClass c.name (.registry e))
  | .ok id =>
    if c.uncacheable then
      let (world, result) := world.setCacheable id false
      match result with
      | .error e => .error (.registry e)
      | .ok () => .ok { s with world }
    else .ok { s with world }

/-- Defines a method. The class is looked for before the result is read. -/
def define (s : Stage) (m : MethodSpec) : Except Fault Stage := do
  let c ← s.classId m.className
  let (s, body) ← s.body m
  let (world, result) := s.world.defineMethod c
    { name := m.name, isPrivate := m.isPrivate, alwaysClone := m.alwaysClone, body }
  match result with
  | .error e => .error (.registry e)
  | .ok _ => .ok { s with world }

/-- Makes a site, whose name must be new. -/
def addSite (bound : Nat) (s : Stage) (spec : SiteSpec) : Except Fault Stage :=
  if (s.sites.find? fun e => e.1 == spec.name).isSome then .error (.duplicateSite spec.name)
  else
    let (world, id) := s.world.addSite
      { name := spec.message.getD spec.name, options := spec.options, bound, invoker := 0 }
    .ok { world, sites := s.sites ++ [(spec.name, id)] }

end Stage

/-- Adds a place to a fault. -/
def within {α : Type} (place : Fault → Fault) : Except Fault α → Except Fault α
  | .ok x => .ok x
  | .error f => .error (place f)

/-- The stage of a scenario before its first step. -/
def build (s : Scenario) (c : Config) : Except Fault Stage := do
  let stage : Stage := { world := (({} : World Body).addInvoker c.allowCloning).1 }
  let stage ← s.classes.foldlM Stage.defineClass stage
  let stage ← s.methods.foldlM
    (fun stage m => within (.inMethod m.className m.name) (stage.define m)) stage
  s.sites.foldlM (Stage.addSite c.maxChainLength) stage

end InlineCache.Scenario
