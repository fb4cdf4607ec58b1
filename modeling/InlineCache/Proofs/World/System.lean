import InlineCache.Proofs.Registry.Standing
import InlineCache.World.Flight

/-! Any number of sends at once. The system is a world together with all sends ever begun; an event
lets one of them go on by one stage, begins another, or does something to the world outside of any
send. A run is a list of events, so runs cover every interleaving: what another thread does
between two lookups, what a method body does while its send waits, and sends that never end. -/
namespace InlineCache

variable {β : Type}

/-- Something done to a world outside of any send. -/
inductive Act (β : Type) where
  | defineClass (name : String) (superclass : Option ClassId)
  | setCacheable (c : ClassId) (cacheable : Bool)
  | defineMethod (c : ClassId) (d : MethodDef β)
  | removeMethod (c : ClassId) (name : String)
  | freshToken (name : String)
  | invalidateToken (t : TokenId)
  | newObject (c : ClassId)
  | addInvoker (cloning : Bool)
  | addSite (name : String) (options : SiteOptions) (bound invoker : Nat)
  | prepare (invoker : Nat) (m : Method β)
  | cloneTarget (m : Method β)
  | countInvocation (invoker : Nat)

/-- The world after something was done to it. A new site starts with an empty chain; its invoker must
be there. -/
def World.act (w : World β) : Act β → World β
  | .defineClass name superclass => (w.defineClass name superclass).1
  | .setCacheable c cacheable => (w.setCacheable c cacheable).1
  | .defineMethod c d => (w.defineMethod c d).1
  | .removeMethod c name => (w.removeMethod c name).1
  | .freshToken name => { w with registry := (w.registry.freshToken name).1 }
  | .invalidateToken t => w.invalidateToken t
  | .newObject c => (w.newObject c).1
  | .addInvoker cloning => (w.addInvoker cloning).1
  | .addSite name options bound invoker =>
    if invoker < w.invokers.size then (w.addSite { name, options, bound, invoker }).1 else w
  | .prepare i m => (w.prepare i m).1
  | .cloneTarget m => (w.cloneTarget m).1
  | .countInvocation i => w.countInvocation i

/-- How far a send has come: under way, or over with a reply. -/
inductive Stage (β : Type) where
  | flying (flight : Flight β)
  | ended (route : Route) (reply : Except Failure Outcome)

/-- A send, with the site and the call it was begun with. -/
structure Sending (β : Type) where
  site : SiteId
  call : Call
  stage : Stage β

/-- A world and all sends ever begun in it, in the order of their beginning. -/
structure System (β : Type) where
  world : World β := {}
  sends : Array (Sending β) := #[]

/-- What may happen next. The result of a method body comes with the end of its send. -/
inductive Event (β : Type) where
  | act (a : Act β)
  | begin (s : SiteId) (call : Call)
  | resume (i : Nat)
  | finish (i : Nat) (result : Except Failure Value)

namespace System

/-- Replaces the world and the stage of a send. -/
def advance (σ : System β) (world : World β) (i : Nat) (stage : Stage β) : System β :=
  { world, sends := σ.sends.modify i fun q => { q with stage } }

/-- One event. It is idle where it asks for what cannot be: a send on a site that does not exist, or
a stage that a send is not at. -/
def step (σ : System β) : Event β → System β
  | .act a => { σ with world := σ.world.act a }
  | .begin s call =>
    if s.place < σ.world.sites.size then
      let (world, flight) := σ.world.begin s call
      { world, sends := σ.sends.push { site := s, call, stage := .flying flight } }
    else σ
  | .resume i => match σ.sends[i]? with
    | some { site, call, stage := .flying (.paused pause) } =>
      let (world, flight) := σ.world.resume site call pause
      σ.advance world i (.flying flight)
    | _ => σ
  | .finish i result => match σ.sends[i]? with
    | some { site, call := _, stage := .flying (.landed landing) } => match landing with
      | .running route _ =>
        σ.advance (σ.world.finish site route) i (.ended route (result.map .returned))
      | .finished route reply => σ.advance (σ.world.finish site route) i (.ended route reply)
    | _ => σ

/-- A run from a given state. -/
def runFrom (σ : System β) (events : List (Event β)) : System β := events.foldl step σ

/-- A run from the start: the builtin classes, no invoker, no site and no send. -/
def run (events : List (Event β)) : System β := runFrom {} events

@[simp] theorem runFrom_nil (σ : System β) : σ.runFrom [] = σ := rfl

@[simp] theorem runFrom_cons (σ : System β) (e : Event β) (events : List (Event β)) :
    σ.runFrom (e :: events) = (σ.step e).runFrom events := rfl

theorem runFrom_append (σ : System β) (es fs : List (Event β)) :
    σ.runFrom (es ++ fs) = (σ.runFrom es).runFrom fs := List.foldl_append

theorem run_append (es fs : List (Event β)) : run (es ++ fs) = (run es).runFrom fs :=
  runFrom_append {} es fs

/-- What holds at the start and is kept by every event holds in every reachable state. -/
theorem run_induct {motive : System β → Prop} (start : motive {})
    (step : ∀ σ e, motive σ → motive (σ.step e)) (events : List (Event β)) :
    motive (run events) := by
  have hrun : ∀ σ : System β, motive σ → motive (σ.runFrom events) := by
    induction events with
    | nil => exact fun _ h => h
    | cons e rest ih => exact fun σ h => ih (σ.step e) (step σ e h)
  exact hrun {} start

end System

section Registry

/-- The operation on the registry that an event consists in, if any. -/
def Act.operation? (w : World β) : Act β → Option (Registry.Operation β)
  | .defineClass name superclass => some (.defineClass name superclass)
  | .setCacheable c cacheable => some (.setCacheable c cacheable)
  | .defineMethod c d => some (.defineMethod { d with id := w.nextMethod, owner := c })
  | .removeMethod c name => some (.removeMethod c name)
  | .freshToken name => some (.freshToken name)
  | .invalidateToken t => some (.invalidateToken t)
  | _ => none

def Event.operation? (w : World β) : Event β → Option (Registry.Operation β)
  | .act a => a.operation? w
  | _ => none

namespace World

theorem registry_act (w : World β) (a : Act β) :
    (w.act a).registry = match a.operation? w with
      | some op => w.registry.perform op
      | none => w.registry := by
  cases a with
  | defineClass name superclass =>
    simp only [act, defineClass, Act.operation?, Registry.perform]
    cases w.registry.defineClass name superclass <;> rfl
  | setCacheable c cacheable =>
    simp only [act, setCacheable, Act.operation?, Registry.perform]
    cases w.registry.setCacheable c cacheable <;> rfl
  | defineMethod c d =>
    simp only [act, defineMethod, Act.operation?, Registry.perform]
    split <;> simp_all
  | removeMethod c name =>
    simp only [act, removeMethod, Act.operation?, Registry.perform]
    cases w.registry.removeMethod c name <;> rfl
  | addSite name options bound invoker =>
    simp only [act, Act.operation?]
    split <;> rfl
  | prepare i m =>
    simp only [act, prepare, Act.operation?]
    split <;> rfl
  | _ => rfl

@[simp] theorem registry_modifySite (w : World β) (s : SiteId) (f : Site β → Site β) :
    (w.modifySite s f).registry = w.registry := rfl

@[simp] theorem registry_countInvocation (w : World β) (i : Nat) :
    (w.countInvocation i).registry = w.registry := rfl

@[simp] theorem registry_prepare (w : World β) (i : Nat) (m : Method β) :
    (w.prepare i m).1.registry = w.registry := by
  rw [prepare]
  split <;> rfl

@[simp] theorem registry_buildBranch (w : World β) (i : Nat)
    (recipe : List TokenId × Recipe β) : (w.buildBranch i recipe).1.registry = w.registry := by
  obtain ⟨tokens, m | m | _⟩ := recipe
  · exact registry_prepare w i m
  · exact registry_prepare w i m
  · rfl

@[simp] theorem registry_publish (w : World β) (s : SiteId) (call : Call) (res : Resolution β) :
    (w.publish s call res).registry = w.registry := by
  simp only [publish, registry_modifySite]
  split <;> simp

@[simp] theorem registry_serve (w : World β) (s : SiteId) (call : Call) (target : Target β) :
    (w.serve s call target).1.registry = w.registry := by
  unfold serve
  split <;> rfl

@[simp] theorem registry_begin (w : World β) (s : SiteId) (call : Call) :
    (w.begin s call).1.registry = w.registry := by
  simp only [begin]
  split <;> simp [lookUp]

@[simp] theorem registry_carryOut (w : World β) (s : SiteId) (route : Route)
    (decision : Decision β) : (w.carryOut s route decision).1.registry = w.registry := by
  cases decision <;> rfl

@[simp] theorem registry_settle (w : World β) (s : SiteId) (call : Call) (route : Route)
    (res : Resolution β) : (w.settle s call route res).1.registry = w.registry := by
  rw [settle, registry_carryOut]
  split
  · rfl
  · exact registry_publish w s call res

@[simp] theorem registry_resume (w : World β) (s : SiteId) (call : Call) (pause : Pause β) :
    (w.resume s call pause).1.registry = w.registry := by
  cases pause with
  | lookedUp route lookup =>
    simp only [resume]
    split
    · rfl
    · exact registry_settle w s call route _
  | lookedUpHandler route lookup handler => exact registry_settle w s call route _

@[simp] theorem registry_finish (w : World β) (s : SiteId) (route : Route) :
    (w.finish s route).registry = w.registry := by
  rw [finish]
  split <;> rfl

end World

/-- No send ever changes the registry; the other events do one operation or none. -/
theorem System.registry_step (σ : System β) (e : Event β) :
    (σ.step e).world.registry = match e.operation? σ.world with
      | some op => σ.world.registry.perform op
      | none => σ.world.registry := by
  cases e with
  | act a => exact World.registry_act σ.world a
  | begin s call =>
    simp only [step, Event.operation?]
    split
    · exact World.registry_begin σ.world s call
    · rfl
  | resume i =>
    simp only [step, Event.operation?]
    split
    · exact World.registry_resume σ.world _ _ _
    · rfl
  | finish i result =>
    simp only [step, Event.operation?]
    split
    · split <;> exact World.registry_finish σ.world _ _
    · rfl

end Registry

/-- The history of operations on the registry that a run consists in. -/
def System.history (σ : System β) : List (Event β) → List (Registry.Operation β)
  | [] => []
  | e :: rest => (e.operation? σ.world).toList ++ (σ.step e).history rest

namespace System

theorem registry_runFrom (σ : System β) (events : List (Event β)) :
    (σ.runFrom events).world.registry = σ.world.registry.performAll (σ.history events) := by
  induction events generalizing σ with
  | nil => rfl
  | cons e rest ih =>
    rw [runFrom_cons, ih, registry_step, history, Registry.performAll, Registry.performAll,
      List.foldl_append]
    cases e.operation? σ.world <;> rfl

theorem history_append (σ : System β) (es fs : List (Event β)) :
    σ.history (es ++ fs) = σ.history es ++ (σ.runFrom es).history fs := by
  induction es generalizing σ with
  | nil => rfl
  | cons e rest ih =>
    rw [List.cons_append, history, history, ih, List.append_assoc, runFrom_cons]

theorem wellFormed_step {σ : System β} (h : σ.world.registry.WellFormed) (e : Event β) :
    (σ.step e).world.registry.WellFormed := by
  rw [registry_step]
  split
  · exact h.perform _
  · exact h

theorem wellFormed_run (events : List (Event β)) : (run events).world.registry.WellFormed := by
  rw [run, registry_runFrom]
  exact (Registry.evolves_performAll Registry.wellFormed_builtin _).2

theorem evolves_runFrom {σ : System β} (hw : σ.world.registry.WellFormed)
    (events : List (Event β)) :
    Registry.Evolves σ.world.registry (σ.runFrom events).world.registry := by
  rw [registry_runFrom]
  exact (Registry.evolves_performAll hw _).1

/-- The class that an event changes, if it is a mutation that takes place. -/
def changed? (σ : System β) (e : Event β) : Option ClassId :=
  (e.operation? σ.world).bind σ.world.registry.changed?

/-- Once a class or something above it has been changed, the token that was handed out for it before
is over for good, whatever else happens. -/
theorem not_isValid_runFrom {σ : System β} (hw : σ.world.registry.WellFormed)
    {before after : List (Event β)} {e : Event β} {c d : ClassId} {t : TokenId}
    (ht : σ.world.registry.currentToken? c = some t)
    (hd : changed? (σ.runFrom before) e = some d)
    (hc : (σ.runFrom before).world.registry.inherits c d = true) :
    (σ.runFrom (before ++ e :: after)).world.registry.tokens.isValid t = false := by
  obtain ⟨op, hop, hd⟩ := Option.bind_eq_some_iff.mp hd
  rw [registry_runFrom] at hd hc
  rw [registry_runFrom, history_append, history, hop, Option.toList_some, List.singleton_append]
  exact Registry.not_isValid_performAll hw ht hd hc

/-- In the course of events lookups on a class stay as they were, or the class or something above it
has been changed. -/
theorem resolve_runFrom_or_changed {σ : System β} (hw : σ.world.registry.WellFormed) {c : ClassId}
    {t : TokenId} (hc : σ.world.registry.currentToken? c = some t) (events : List (Event β)) :
    (∀ name iv, (σ.runFrom events).world.registry.resolve c name iv =
      σ.world.registry.resolve c name iv) ∨
    ∃ before e after d, events = before ++ e :: after ∧
      changed? (σ.runFrom before) e = some d ∧
      (σ.runFrom before).world.registry.inherits c d = true := by
  induction events generalizing σ t with
  | nil => exact .inl fun _ _ => rfl
  | cons e rest ih =>
    by_cases hx : ∃ d, σ.changed? e = some d ∧ σ.world.registry.inherits c d = true
    · obtain ⟨d, hd, hin⟩ := hx
      exact .inr ⟨[], e, rest, d, rfl, hd, hin⟩
    · have hstep : ∀ name iv, (σ.step e).world.registry.resolve c name iv =
          σ.world.registry.resolve c name iv := by
        intro name iv
        rw [registry_step]
        cases hop : e.operation? σ.world with
        | none => rfl
        | some op =>
          obtain ⟨entry, he, _⟩ := Registry.currentToken?_eq_some.mp hc
          refine Registry.resolve_perform hw he (fun d hd hin => hx ⟨d, ?_, hin⟩) name iv
          rw [changed?, hop, Option.bind_some, hd]
      have hc' : (σ.step e).world.registry.currentToken? c = some t := by
        rw [← Registry.token_resolve _ c "" true, hstep, Registry.token_resolve, hc]
      obtain hsame | ⟨before, e', after, d, rfl, hd, hin⟩ := ih (wellFormed_step hw e) hc'
      · exact .inl fun name iv => (hsame name iv).trans (hstep name iv)
      · exact .inr ⟨e :: before, e', after, d, rfl, hd, hin⟩

end System
end InlineCache
