import InlineCache.World

/-! A message send as a sequence of atomic stages. The first stage tries the chain; if that serves
the call its method runs, else the message is looked up, perhaps the handler too, the resolution is
published and the decision that follows from it is carried out. After each lookup, and while a
method body runs, anything may happen to the world. -/
namespace InlineCache

/-- A send that has looked something up and has not acted upon it yet. -/
inductive Pause (β : Type) where
  | lookedUp (route : Route) (lookup : Lookup β)
  | lookedUpHandler (route : Route) (lookup handler : Lookup β)
  deriving DecidableEq, Repr

/-- A send past its lookups: a method body runs, or the reply is there. -/
inductive Landing (β : Type) where
  | running (route : Route) (activation : Activation β)
  | finished (route : Route) (reply : Except Failure Outcome)

inductive Flight (β : Type) where
  | paused (pause : Pause β)
  | landed (landing : Landing β)

/-- The number of stages that may still pause. -/
def Pause.rank {β : Type} : Pause β → Nat
  | lookedUp .. => 2
  | lookedUpHandler .. => 1

/-- The number of pauses that a send may still make. -/
def Flight.rank {β : Type} : Flight β → Nat
  | paused p => p.rank
  | landed _ => 0

theorem Flight.rank_le {β : Type} (f : Flight β) : f.rank ≤ 2 := by
  cases f with
  | paused p => cases p <;> simp [rank, Pause.rank]
  | landed l => simp [rank]

namespace World

variable {β : Type}

/-- Starts the body of a method that the invoker of a site calls. -/
def launch (w : World β) (s : SiteId) (route : Route) (activation : Activation β) :
    World β × Landing β :=
  (w.countInvocation (w.site s).invoker, .running route activation)

/-- Serves a call from a valid branch. -/
def serve (w : World β) (s : SiteId) (call : Call) (target : Target β) : World β × Landing β :=
  match (w.site s).options.action, target with
  | .invoke, .direct t => w.launch s .hit (call.activate t.method)
  | .invoke, .handler t => w.launch s .hit (call.toHandler.activate t.method)
  | .probe, .direct _ | .probe, .probe => (w, .finished .hit (.ok (.responds true)))
  | .invoke, .probe | .probe, .handler _ => (w, .finished .hit (.error .malformedChain))

/-- Looks a message up for a send that its chain did not serve. -/
def lookUp (w : World β) (s : SiteId) (call : Call) (route : Route) : World β × Flight β :=
  let w := w.modifySite s fun site => { site with stats := site.stats.count route }
  (w, .paused (.lookedUp route (w.registry.lookup (w.site s).options call)))

/-- The first stage of a send. -/
def begin (w : World β) (s : SiteId) (call : Call) : World β × Flight β :=
  let site := w.site s
  let (links, verdict) := site.chain.links.walk w.isValid call
  let w := w.modifySite s fun site => { site with chain := { site.chain with links } }
  match verdict with
  | .served target =>
    let (w, landing) := w.serve s call target
    (w, .landed landing)
  | .repair => w.lookUp s call .repair
  | .generic => w.lookUp s call .miss
  | .megamorphic => w.lookUp s call .megamorphic

def carryOut (w : World β) (s : SiteId) (route : Route) : Decision β → World β × Landing β
  | .invoke activation => w.launch s route activation
  | .responds answer => (w, .finished route (.ok (.responds answer)))
  | .missing => (w, .finished route (.ok .missing))
  | .noMethod name className => (w, .finished route (.error (.noMethod name className)))

/-- The last stage before a method body: the resolution is published, unless the site was found
megamorphic, and acted upon. -/
def settle (w : World β) (s : SiteId) (call : Call) (route : Route) (res : Resolution β) :
    World β × Landing β :=
  let w := if route = .megamorphic then w else w.publish s call res
  w.carryOut s route
    (res.decide (w.site s).options call (w.registry.className call.receiver.classId))

/-- The stage after a pause. -/
def resume (w : World β) (s : SiteId) (call : Call) : Pause β → World β × Flight β
  | .lookedUp route lookup =>
    if (w.site s).options.wantsHandler lookup then
      (w, .paused (.lookedUpHandler route lookup (w.registry.lookupHandler call)))
    else
      let (w, landing) := w.settle s call route { lookup, handler := none }
      (w, .landed landing)
  | .lookedUpHandler route lookup handler =>
    let (w, landing) := w.settle s call route { lookup, handler := some handler }
    (w, .landed landing)

/-- Every stage leaves fewer pauses to come. -/
theorem rank_resume (w : World β) (s : SiteId) (call : Call) (p : Pause β) :
    (w.resume s call p).2.rank < (Flight.paused p).rank := by
  cases p with
  | lookedUp route lookup =>
    simp only [resume]
    split <;> simp [Flight.rank, Pause.rank]
  | lookedUpHandler route lookup handler => simp [resume, Flight.rank, Pause.rank]

/-- Takes a send through its pauses with nothing in between. -/
def land (w : World β) (s : SiteId) (call : Call) (flight : Flight β) : World β × Landing β :=
  match flight with
  | .landed landing => (w, landing)
  | .paused p => (w.resume s call p).1.land s call (w.resume s call p).2
termination_by flight.rank
decreasing_by exact rank_resume w s call p

/-- A send up to its method body, with nothing in between. -/
def dispatch (w : World β) (s : SiteId) (call : Call) : World β × Landing β :=
  let (w, flight) := w.begin s call
  w.land s call flight

/-- The end of a send. A hit is counted when it is over. -/
def finish (w : World β) (s : SiteId) (route : Route) : World β :=
  if route = .hit then
    w.modifySite s fun site => { site with stats := site.stats.count .hit }
  else w

/-- A whole send with nothing in between, for bodies that do not change the world. -/
def send (w : World β) (s : SiteId) (call : Call)
    (body : Activation β → Except Failure Value) : World β × Except Failure Outcome :=
  let (w, landing) := w.dispatch s call
  match landing with
  | .running route activation => (w.finish s route, (body activation).map .returned)
  | .finished route reply => (w.finish s route, reply)

end World
end InlineCache
