import InlineCache.Script.Session

/-! Running scripts. Other steps run inside a step at two kinds of moments: after each lookup of a
send, taken one list at a time from the step that sends, and in method bodies that run steps. The
nesting of the former is that of the script; of the latter at most twelve steps are in progress at
a time, so every run ends. -/
namespace InlineCache.Script

/-- A session together with the answers of the steps that ran inside the step in progress. -/
structure Progress where
  session : Session
  inner : List Answer := []

namespace Progress

def withWorld (p : Progress) (world : World Body) : Progress :=
  { p with session := { p.session with world } }

def add (p : Progress) (a : Answer) : Progress := { p with inner := p.inner ++ [a] }

/-- The answer of a step, wrapped if other steps ran inside it. -/
def close (p : Progress) (a : Answer) : Session × Answer :=
  (p.session, if p.inner.isEmpty then a else .nested a p.inner)

end Progress

/-- The most steps that may be in progress when a method body runs steps. -/
def maxDepth : Nat := 12

/-- The failure of a body that would run steps too deep. -/
def tooDeep : Failure := .raised "too deep" none

/-- The result of a body that runs no steps. -/
def Body.result (a : Activation Body) : Except Failure Value :=
  match a.method.body with
  | .const v => .ok v
  | .fail message context => .error (.raised message context)
  | .noMethod name className => .error (.noMethod name className)
  | .tag text => .ok (.str (match a.args with
    | [] => text
    | v :: _ => text ++ ":" ++ v.display))
  | .display => .ok (.str (a.receiver.display ++ "(" ++
      ", ".intercalate (a.args.map Value.display) ++ ")&" ++
      (match a.block with
        | some b => b.display
        | none => "-")))
  | .receiver => .ok a.receiver
  | .block => .ok (a.block.getD .nil)
  | .arg i => .ok ((a.args[i]?).getD .nil)
  | .run _ v => .ok v

mutual

/-- Runs a step while `depth` steps, itself included, are in progress. -/
def runStep (depth : Nat) (s : Session) (step : Step) : Except UnknownName (Session × Answer) :=
  match step with
  | .command c => s.perform c
  | .callMethod name receiver args block => do
    let m ← Session.named s.methods "method" name
    let (s, call) ← s.evalCall name receiver args block
    let (p, result) := runBody depth { session := s } (call.activate m)
    .ok (p.close (.outcome (result.map .returned)))
  | .invoke name receiver args block => do
    let t ← Session.named s.targets "target" name
    let (s, call) ← s.evalCall name receiver args block
    let p : Progress := { session := s }
    let p := p.withWorld (s.world.countInvocation Session.sharedInvoker)
    let (p, result) := runBody depth p (call.activate t.method)
    .ok (p.close (.outcome (result.map .returned)))
  | .call site receiver args block send times during => do
    let id ← Session.named s.sites "site" site
    let name := send.getD (s.world.site id).name
    let (s, call) ← s.evalCall name receiver args block
    let (p, reply) := runSends depth { session := s } id call during 0 none times
    .ok (p.close (.called reply (p.session.summary id)))
termination_by (maxDepth + 1 - depth, sizeOf step, 0)

/-- Runs steps one after another inside the step in progress. -/
def runSteps (depth : Nat) (p : Progress) (steps : List Step) : Progress :=
  match steps with
  | [] => p
  | step :: rest =>
    let p := match runStep depth p.session step with
      | .ok (session, a) => { p with session }.add a
      | .error name => p.add (.unknown name)
    runSteps depth p rest
termination_by (maxDepth + 1 - depth, sizeOf steps, 0)

/-- Sends a message through a site some times in a row; `used` lists of `during` have been run.
Gives the reply of the last send. -/
def runSends (depth : Nat) (p : Progress) (id : SiteId) (call : Call)
    (during : List (List Step)) (used : Nat) (reply : Option (Except Failure Outcome))
    (times : Nat) : Progress × Option (Except Failure Outcome) :=
  match times with
  | 0 => (p, reply)
  | n + 1 =>
    let (world, flight) := p.session.world.begin id call
    have := flight.rank_le
    let (p, used, reply) := runFlight depth (p.withWorld world) id call during used flight
    runSends depth p id call during used (some reply) n
termination_by (maxDepth + 1 - depth, sizeOf during, times + 3)

/-- Takes a send to its end. At a pause the next list of `during` is run, if there is one. -/
def runFlight (depth : Nat) (p : Progress) (id : SiteId) (call : Call)
    (during : List (List Step)) (used : Nat) (flight : Flight Body) :
    Progress × Nat × Except Failure Outcome :=
  match flight with
  | .paused pause =>
    let p := match h : during[used]? with
      | some steps =>
        have := List.sizeOf_lt_of_mem (List.mem_of_getElem? h)
        runSteps (depth + 1) p steps
      | none => p
    match hr : p.session.world.resume id call pause with
    | (world, next) =>
      have : next.rank < (Flight.paused pause).rank := by
        simpa only [hr] using World.rank_resume p.session.world id call pause
      runFlight depth (p.withWorld world) id call during (used + 1) next
  | .landed (.running route activation) =>
    have : 0 < sizeOf during := by cases during <;> simp +arith
    let (p, result) := runBody depth p activation
    (p.withWorld (p.session.world.finish id route), used, result.map .returned)
  | .landed (.finished route reply) =>
    (p.withWorld (p.session.world.finish id route), used, reply)
termination_by (maxDepth + 1 - depth, sizeOf during, flight.rank)
decreasing_by
  · exact Prod.Lex.right' _ (by omega) (Prod.Lex.left _ _ this)
  · exact Prod.Lex.right _ (Prod.Lex.right _ this)
  · exact Prod.Lex.right _ (Prod.Lex.left _ _ this)

def runBody (depth : Nat) (p : Progress) (a : Activation Body) :
    Progress × Except Failure Value :=
  match a.method.body with
  | .run steps v =>
    if _h : maxDepth < depth then (p, .error tooDeep)
    else (runSteps (depth + 1) p steps, .ok v)
  | _ => (p, Body.result a)
termination_by (maxDepth + 1 - depth, 0, 0)

end

/-- Runs a script on a new world and gives the answers of its steps. -/
def run (bound : Nat) (cloning : Bool) (steps : List Step) : List Answer :=
  (runSteps 1 { session := .start bound cloning } steps).inner

end InlineCache.Script
