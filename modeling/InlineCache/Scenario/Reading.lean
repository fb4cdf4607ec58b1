import InlineCache.Scenario.Model

/-! Scenarios as TOML documents. Unknown keys are refused everywhere but in steps that call or
remove, which only take what they need. -/
namespace InlineCache.Scenario

open Toml

/-- The texts that stand for actions. -/
def actions : List (String × Action) := [("invoke", .invoke), ("probe", .probe)]

/-- The texts that stand for what is done about missing methods. -/
def missings : List (String × Missing) :=
  [("method_missing", .callHandler), ("return_missing", .returnMissing)]

/-- What is known of a class while it is read. -/
structure ClassDraft where
  name : Option String := none
  superclass : Option String := none
  uncacheable : Option Bool := none

def classRecord : Record ClassDraft ClassSpec where
  fields := ["name", "superclass", "uncacheable"]
  start := {}
  visit d k v := match k with
    | "name" => do .ok { d with name := some (← asString v) }
    | "superclass" => do .ok { d with superclass := some (← asString v) }
    | "uncacheable" => do .ok { d with uncacheable := some (← asBool v) }
    | k => Record.unknown ["name", "superclass", "uncacheable"] k
  finish spelling d := do
    .ok { name := ← required spelling "name" d.name
          superclass := ← perhaps spelling d.superclass
          uncacheable := d.uncacheable.getD false }

/-- What is known of a method while it is read. -/
structure MethodDraft where
  className : Option String := none
  name : Option String := none
  returns : Option String := none
  fails : Option String := none
  isPrivate : Option Bool := none
  alwaysClone : Option Bool := none

def methodFields : List String := ["class", "name", "returns", "fails", "private", "always_clone"]

def methodRecord : Record MethodDraft MethodSpec where
  fields := methodFields
  start := {}
  visit d k v := match k with
    | "class" => do .ok { d with className := some (← asString v) }
    | "name" => do .ok { d with name := some (← asString v) }
    | "returns" => do .ok { d with returns := some (← asString v) }
    | "fails" => do .ok { d with fails := some (← asString v) }
    | "private" => do .ok { d with isPrivate := some (← asBool v) }
    | "always_clone" => do .ok { d with alwaysClone := some (← asBool v) }
    | k => Record.unknown methodFields k
  finish spelling d := do
    .ok { className := ← required spelling "class" d.className
          name := ← required spelling "name" d.name
          returns := ← perhaps spelling d.returns
          fails := ← perhaps spelling d.fails
          isPrivate := d.isPrivate.getD false
          alwaysClone := d.alwaysClone.getD false }

/-- What is known of a site while it is read. -/
structure SiteDraft where
  name : Option String := none
  message : Option String := none
  action : Option Action := none
  missing : Option Missing := none
  ignoreVisibility : Option Bool := none

def siteFields : List String := ["name", "method", "action", "missing", "ignore_visibility"]

def siteRecord : Record SiteDraft SiteSpec where
  fields := siteFields
  start := {}
  visit d k v := match k with
    | "name" => do .ok { d with name := some (← asString v) }
    | "method" => do .ok { d with message := some (← asString v) }
    | "action" => do .ok { d with action := some (← asVariant actions v) }
    | "missing" => do .ok { d with missing := some (← asVariant missings v) }
    | "ignore_visibility" => do .ok { d with ignoreVisibility := some (← asBool v) }
    | k => Record.unknown siteFields k
  finish spelling d := do
    .ok { name := ← required spelling "name" d.name
          message := ← perhaps spelling d.message
          action := d.action.getD .invoke
          missing := ← perhaps spelling d.missing
          ignoreVisibility := d.ignoreVisibility.getD false }

/-- What is known of a call while it is read. -/
structure CallDraft where
  site : Option String := none
  receiver : Option String := none
  args : Option (List String) := none
  send : Option String := none
  expect : Option String := none

/-- The keys of a call; others are passed over. -/
def callRecord : Record CallDraft CallSpec where
  fields := ["site", "receiver", "args", "send", "expect"]
  start := {}
  visit d k v := match k with
    | "site" => do .ok { d with site := some (← asString v) }
    | "receiver" => do .ok { d with receiver := some (← asString v) }
    | "args" => do .ok { d with args := some (← asList asString v) }
    | "send" => do .ok { d with send := some (← asString v) }
    | "expect" => do .ok { d with expect := some (← asString v) }
    | _ => .ok d
  finish spelling d := do
    .ok { site := ← required spelling "site" d.site
          receiver := ← required spelling "receiver" d.receiver
          args := d.args.getD []
          send := ← perhaps spelling d.send
          expect := ← perhaps spelling d.expect }

/-- What is known of a removal while it is read. -/
structure RemovalDraft where
  className : Option String := none
  name : Option String := none

/-- The keys of a removal; others are passed over. -/
def removalRecord : Record RemovalDraft (String × String) where
  fields := ["class", "name"]
  start := {}
  visit d k v := match k with
    | "class" => do .ok { d with className := some (← asString v) }
    | "name" => do .ok { d with name := some (← asString v) }
    | _ => .ok d
  finish spelling d := do
    .ok (← required spelling "class" d.className, ← required spelling "name" d.name)

inductive StepKind where
  | call
  | define
  | remove

/-- Reads a step; its kind stands under `op`. -/
def readStep (v : Toml.Value) : Except Error StepSpec := do
  let (kind, content) ←
    takeVariant "op" [("call", StepKind.call), ("define", .define), ("remove", .remove)] v
  match kind with
  | .call => do .ok (.call (← callRecord.ofContent content))
  | .define => do .ok (.define (← methodRecord.ofContent content))
  | .remove => do
    let (className, name) ← removalRecord.ofContent content
    .ok (.remove className name)

/-- What is known of a scenario while it is read. -/
structure Draft where
  config : Option Config := none
  classes : Option (List ClassSpec) := none
  methods : Option (List MethodSpec) := none
  sites : Option (List SiteSpec) := none
  steps : Option (List StepSpec) := none

def scenarioFields : List String := ["config", "class", "method", "site", "step"]

def record : Record Draft Scenario where
  fields := scenarioFields
  start := {}
  visit d k v := match k with
    | "config" => do .ok { d with config := some (← Config.record.read v) }
    | "class" => do .ok { d with classes := some (← asList classRecord.read v) }
    | "method" => do .ok { d with methods := some (← asList methodRecord.read v) }
    | "site" => do .ok { d with sites := some (← asList siteRecord.read v) }
    | "step" => do .ok { d with steps := some (← asList readStep v) }
    | k => Record.unknown scenarioFields k
  finish _ d := .ok {
    config := d.config
    classes := d.classes.getD []
    methods := d.methods.getD []
    sites := d.sites.getD []
    steps := d.steps.getD [] }

def parse (text : String) : Except Error Scenario := do
  record.ofMembers (← Toml.parse text)

/-- The texts of an error in a scenario, the outermost first. -/
def errorMessages (e : Error) : List String := ["invalid scenario", e.message]

end InlineCache.Scenario
