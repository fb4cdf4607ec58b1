import InlineCache.Scenario.Run

/-! Scenarios without caches. An interpreter that keeps the class tree, the methods of each class and the
options of each site, and looks every message up when it is sent. It has no tokens, no chains and no
settings, and methods have no identity: what it says is what a scenario means. -/
namespace InlineCache.Scenario

/-- What can be found under a name. -/
structure Definition where
  isPrivate : Bool
  body : Body

structure PlainClass where
  name : String
  superclass : Option ClassId
  methods : String → Option Definition := fun _ => none

/-- Puts a definition under a name, or takes away what is there. -/
def PlainClass.set (c : PlainClass) (name : String) (d : Option Definition) : PlainClass :=
  { c with methods := fun n => if n = name then d else c.methods n }

structure PlainSite where
  message : String
  options : SiteOptions

/-- The classes that are there from the start; all but the first are below the first. -/
def builtinClasses : Array PlainClass :=
  (Registry.builtinNames.map fun name =>
    { name, superclass := if name = "Object" then none else some .object }).toArray

/-- All that matters for what a scenario answers. -/
structure Interpreter where
  classes : Array PlainClass := builtinClasses
  sites : List (String × PlainSite) := []
  nextObject : Nat := 1

/-- What running a body comes to. -/
def Body.reply : Body → Except Failure Outcome
  | returns v => .ok (.returned v)
  | fails message => .error (.raised message none)

namespace Interpreter

/-- The nearest definition of a message on a class or above it. -/
def find? (p : Interpreter) (c : ClassId) (name : String) : Option Definition :=
  match p.classes[c.number]? with
  | none => none
  | some e =>
    match e.methods name, e.superclass with
    | some d, _ => some d
    | none, none => none
    | none, some s => if _h : s.number < c.number then p.find? s name else none
termination_by c.number

/-- The definition that a lookup comes to. A private one that is nearest hides those above it. -/
def lookup (p : Interpreter) (c : ClassId) (name : String) (ignoreVisibility : Bool) :
    Option Definition :=
  (p.find? c name).filter fun d => ignoreVisibility || !d.isPrivate

def className (p : Interpreter) (c : ClassId) : String :=
  match p.classes[c.number]? with
  | some e => e.name
  | none => "<class " ++ c.display ++ ">"

/-- The reply to a message: by the method, by the handler of the class, or by the site itself. -/
def answer (p : Interpreter) (o : SiteOptions) (name : String) (receiver : Value) :
    Except Failure Outcome :=
  match o.action, p.lookup receiver.classId name o.ignoreVisibility, o.missing with
  | .probe, found, _ => .ok (.responds found.isSome)
  | .invoke, some d, _ => d.body.reply
  | .invoke, none, .returnMissing => .ok .missing
  | .invoke, none, .callHandler =>
    match p.lookup receiver.classId handlerName true with
    | some d => d.body.reply
    | none => .error (.noMethod name (p.className receiver.classId))

def classId? (p : Interpreter) (name : String) : Option ClassId :=
  (p.classes.findIdx? fun c => c.name == name).map ClassId.mk

def classId (p : Interpreter) (name : String) : Except Fault ClassId :=
  match p.classId? name with
  | some c => .ok c
  | none => .error (.unknownClass name)

def site (p : Interpreter) (name : String) : Except Fault PlainSite :=
  match p.sites.find? fun e => e.1 == name with
  | some e => .ok e.2
  | none => .error (.unknownSite name)

/-- The value of a literal; objects are numbered as they are made. -/
def literal (p : Interpreter) (raw : String) : Except Fault (Interpreter × Value) :=
  match Literal.read raw with
  | .error e => .error (.literal e)
  | .ok (.value v) => .ok (p, v)
  | .ok (.new name) =>
    match p.classId? name with
    | some c => .ok ({ p with nextObject := p.nextObject + 1 }, .object p.nextObject c)
    | none => .error (.literal (.unknownClass name))

def literals (p : Interpreter) : List String → Except Fault (Interpreter × List Value)
  | [] => .ok (p, [])
  | raw :: rest => do
    let (p, v) ← p.literal raw
    let (p, vs) ← p.literals rest
    .ok (p, v :: vs)

def body (p : Interpreter) (m : MethodSpec) : Except Fault (Interpreter × Body) :=
  match m.returns, m.fails with
  | some raw, none => do
    let (p, v) ← p.literal raw
    .ok (p, .returns v)
  | none, some message => .ok (p, .fails message)
  | some _, some _ => .error .twoResults
  | none, none => .error .noResult

def set (p : Interpreter) (c : ClassId) (name : String) (d : Option Definition) : Interpreter :=
  { p with classes := p.classes.modify c.number fun e => e.set name d }

/-- What a class itself has under a name. -/
def own? (p : Interpreter) (c : ClassId) (name : String) : Option Definition :=
  p.classes[c.number]?.bind fun e => e.methods name

def addClass (p : Interpreter) (name : String) (superclass : ClassId) : Except Fault Interpreter :=
  if (p.classId? name).isSome then .error (.inClass name (.registry (.nameTaken name)))
  else .ok { p with classes := p.classes.push { name, superclass := some superclass } }

/-- A new class, under `Object` if no superclass is named. -/
def defineClass (p : Interpreter) (c : ClassSpec) : Except Fault Interpreter :=
  match c.superclass with
  | none => p.addClass c.name .object
  | some name => do p.addClass c.name (← p.classId name)

def define (p : Interpreter) (m : MethodSpec) : Except Fault Interpreter := do
  let c ← p.classId m.className
  let (p, body) ← p.body m
  .ok (p.set c m.name (some { isPrivate := m.isPrivate, body }))

/-- Takes a method away from a class itself; tells whether there was one. -/
def remove (p : Interpreter) (className name : String) : Except Fault (Interpreter × Bool) := do
  let c ← p.classId className
  .ok (p.set c name none, (p.own? c name).isSome)

def addSite (p : Interpreter) (spec : SiteSpec) : Except Fault Interpreter :=
  if (p.sites.find? fun e => e.1 == spec.name).isSome then .error (.duplicateSite spec.name)
  else .ok { p with sites := p.sites ++
    [(spec.name, { message := spec.message.getD spec.name, options := spec.options })] }

/-- A scenario before its first step. -/
def build (s : Scenario) : Except Fault Interpreter := do
  let p ← s.classes.foldlM defineClass {}
  let p ← s.methods.foldlM (fun p m => within (.inMethod m.className m.name) (p.define m)) p
  s.sites.foldlM addSite p

def perform (p : Interpreter) (index : Nat) : StepSpec → Except Fault (Interpreter × StepReport)
  | .call c => do
    let site ← p.site c.site
    let (p, receiver) ← p.literal c.receiver
    let (p, _) ← p.literals c.args
    let name := c.send.getD site.message
    let result := Stage.resultText (p.answer site.options name receiver)
    .ok (p, { index, description := Stage.callText c.site name c.receiver c.args, result,
              expected := c.expect, matched := c.expect.map fun e => e == result })
  | .define m => do
    let p ← p.define m
    .ok (p, { index, description := "define " ++ m.className ++ "#" ++ m.name, result := "ok" })
  | .remove className name => do
    let (p, removed) ← p.remove className name
    .ok (p, { index, description := "remove " ++ className ++ "#" ++ name,
              result := if removed then "ok" else "not defined" })

def performAll (p : Interpreter) (index : Nat) :
    List StepSpec → Except Fault (Interpreter × List StepReport)
  | [] => .ok (p, [])
  | step :: rest => do
    let (p, report) ← within (.inStep index) (p.perform index step)
    let (p, reports) ← p.performAll (index + 1) rest
    .ok (p, report :: reports)

end Interpreter

/-- The step reports of a scenario, with no cache involved. -/
def interpret (s : Scenario) : Except Fault (List StepReport) := do
  let p ← Interpreter.build s
  let (_, reports) ← p.performAll 1 s.steps
  .ok reports

end InlineCache.Scenario
