import InlineCache.Report
import InlineCache.Scenario.Stage

/-! Checking a scenario without performing any call, and running it. -/
namespace InlineCache.Scenario

structure Summary where
  classes : Nat
  methods : Nat
  sites : Nat
  steps : Nat
  deriving DecidableEq, Repr

structure StepReport where
  index : Nat
  description : String
  result : String
  expected : Option String := none
  matched : Option Bool := none
  deriving DecidableEq, Repr

/-- What became of a run: its steps, and the sites at the end. -/
structure RunReport where
  maxChainLength : Nat
  steps : List StepReport
  sites : List SiteReport
  deriving DecidableEq, Repr

namespace Stage

/-- Looks up all that a step names and reads its literals. -/
def check (s : Stage) : StepSpec → Except Fault Unit
  | .call c => do
    let _ ← s.site c.site
    let (s, _) ← s.literal c.receiver
    let _ ← s.literals c.args
    .ok ()
  | .define m => do
    let _ ← s.classId m.className
    let _ ← s.body m
    .ok ()
  | .remove className _ => do
    let _ ← s.classId className
    .ok ()

/-- The text of a result; of a failure only the outermost text is shown. -/
def resultText : Except Failure Outcome → String
  | .ok (.returned v) => v.display
  | .ok (.responds b) => "responds " ++ if b then "true" else "false"
  | .ok .missing => "missing"
  | .error f => "error: " ++ f.messages.headD ""

def callText (site message receiver : String) (args : List String) : String :=
  site ++ ": " ++ message ++ "(" ++ ", ".intercalate (receiver :: args) ++ ")"

def perform (s : Stage) (index : Nat) : StepSpec → Except Fault (Stage × StepReport)
  | .call c => do
    let id ← s.site c.site
    let (s, receiver) ← s.literal c.receiver
    let (s, args) ← s.literals c.args
    let name := c.send.getD (s.world.site id).name
    let (world, reply) := s.world.send id { name, receiver, args } Body.result
    let result := resultText reply
    .ok ({ s with world },
      { index, description := callText c.site name c.receiver c.args, result,
        expected := c.expect, matched := c.expect.map fun e => e == result })
  | .define m => do
    let s ← s.define m
    .ok (s, { index, description := "define " ++ m.className ++ "#" ++ m.name, result := "ok" })
  | .remove className name => do
    let c ← s.classId className
    let (world, result) := s.world.removeMethod c name
    match result with
    | .error e => .error (.registry e)
    | .ok removed =>
      .ok ({ s with world },
        { index, description := "remove " ++ className ++ "#" ++ name,
          result := if removed then "ok" else "not defined" })

/-- Performs steps that are numbered from an index on. -/
def performAll (s : Stage) (index : Nat) : List StepSpec → Except Fault (Stage × List StepReport)
  | [] => .ok (s, [])
  | step :: rest => do
    let (s, report) ← within (.inStep index) (s.perform index step)
    let (s, reports) ← s.performAll (index + 1) rest
    .ok (s, report :: reports)

/-- Checks steps that are numbered from an index on. -/
def checkAll (s : Stage) (index : Nat) : List StepSpec → Except Fault Unit
  | [] => .ok ()
  | step :: rest => do
    within (.inStep index) (s.check step)
    s.checkAll (index + 1) rest

/-- The label of a shape: objects are labelled with the name of their class. -/
def label (s : Stage) : Shape → String
  | .ofClass c => s.world.registry.className c
  | shape => shape.display

end Stage

/-- Validates every name and literal of a scenario under its own settings. -/
def check (s : Scenario) : Except Fault Summary := do
  let stage ← build s (s.config.getD {})
  stage.checkAll 1 s.steps
  .ok { classes := s.classes.length, methods := s.methods.length, sites := s.sites.length,
        steps := s.steps.length }

def run (s : Scenario) (c : Config) : Except Fault RunReport := do
  let stage ← build s c
  let (stage, steps) ← stage.performAll 1 s.steps
  .ok { maxChainLength := c.maxChainLength, steps,
        sites := stage.sites.map fun e => stage.world.describe stage.label e.2 }

/-- The number of steps whose result was not the expected one. -/
def RunReport.mismatches (r : RunReport) : Nat :=
  r.steps.countP fun s => s.matched == some false

/-- The settings of a run: a file of settings takes the place of the scenario's own, and a given
bound goes before both. -/
def resolveConfig (s : Scenario) (file : Option Config) (bound : Option Nat) : Config :=
  let c := file.getD (s.config.getD {})
  { c with maxChainLength := bound.getD c.maxChainLength }

end InlineCache.Scenario
