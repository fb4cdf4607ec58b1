import InlineCache.Config
import InlineCache.Dispatch.Call

/-! Scenarios: a class hierarchy, methods, call sites and a script of calls and changes of methods.
All classes, methods and values are named by texts that are looked up when the scenario is used. -/
namespace InlineCache.Scenario

structure ClassSpec where
  name : String
  superclass : Option String := none
  /-- Lookups on the class are not cached. -/
  uncacheable : Bool := false
  deriving DecidableEq, Repr

/-- A method to define. It either returns the value of a literal or fails with a message. -/
structure MethodSpec where
  className : String
  name : String
  returns : Option String := none
  fails : Option String := none
  isPrivate : Bool := false
  alwaysClone : Bool := false
  deriving DecidableEq, Repr

/-- A call site to make. The message is the name unless it is given. -/
structure SiteSpec where
  name : String
  message : Option String := none
  action : Action := .invoke
  missing : Option Missing := none
  ignoreVisibility : Bool := false
  deriving DecidableEq, Repr

/-- A call through a site, with the receiver and the arguments as literals. -/
structure CallSpec where
  site : String
  receiver : String
  args : List String := []
  /-- Sends another message than the one of the site. -/
  send : Option String := none
  /-- The result that the step should have. -/
  expect : Option String := none
  deriving DecidableEq, Repr

inductive StepSpec where
  | call (c : CallSpec)
  | define (m : MethodSpec)
  | remove (className name : String)
  deriving DecidableEq, Repr

end Scenario

structure Scenario where
  config : Option Config := none
  classes : List Scenario.ClassSpec := []
  methods : List Scenario.MethodSpec := []
  sites : List Scenario.SiteSpec := []
  steps : List Scenario.StepSpec := []
  deriving DecidableEq, Repr, Inhabited

/-- The options of a site: those of its action, unless it says otherwise. -/
def Scenario.SiteSpec.options (s : Scenario.SiteSpec) : SiteOptions :=
  let base : SiteOptions := match s.action with
    | .invoke => {}
    | .probe => .probing
  { base with missing := s.missing.getD base.missing, ignoreVisibility := s.ignoreVisibility }

end InlineCache
