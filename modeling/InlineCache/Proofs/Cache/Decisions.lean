import InlineCache.Proofs.Cache.Failure
import InlineCache.Proofs.Registry.Tables

/-! What sends come to under every interleaving. Whatever a send looked up and when, it ends up with a
decision about its own call: the body of a method found under the name that was looked up, or a
reply that the site gives by itself. -/
namespace InlineCache

variable {β : Type}

/-- The methods of a resolution have the names that were looked up. -/
structure Resolution.Named (res : Resolution β) (call : Call) : Prop where
  method : ∀ m, res.lookup.method = some m → m.name = call.name
  handler : ∀ m, res.handlerMethod? = some m → m.name = handlerName

/-- A body is run on behalf of a call: with its receiver and its block, and with its arguments as they
are or, for the handler, behind the symbol of the missing name. -/
structure Activation.Answers (a : Activation β) (call : Call) : Prop where
  receiver : a.receiver = call.receiver
  block : a.block = call.block
  method : (a.method.name = call.name ∧ a.args = call.args) ∨
    (a.method.name = handlerName ∧ a.args = .symbol call.name :: call.args)

/-- The replies that a site gives to a call by itself, without any method body. -/
inductive Call.OwnReply (call : Call) : Except Failure Outcome → Prop where
  | responds (answer : Bool) : OwnReply call (.ok (.responds answer))
  | missing : OwnReply call (.ok .missing)
  | noMethod (className : String) : OwnReply call (.error (.noMethod call.name className))

/-- A send has come to what some resolution of its call decides. -/
def Landing.Decided (landing : Landing β) (call : Call) : Prop :=
  ∃ (res : Resolution β) (o : SiteOptions) (className : String),
    res.Named call ∧ landing.Carries (res.decide o call className)

/-- The invariant: methods have the names they were looked up by, in classes, in what waiting sends
hold, and in what sends have come to. -/
structure System.Decided (σ : System β) : Prop where
  registry : σ.world.registry.Named
  pauses : ∀ (i : Nat) (s : SiteId) (call : Call) (pause : Pause β),
    σ.sends[i]? = some ⟨s, call, .flying (.paused pause)⟩ → pause.resolution.Named call
  landings : ∀ (i : Nat) (s : SiteId) (call : Call) (landing : Landing β),
    σ.sends[i]? = some ⟨s, call, .flying (.landed landing)⟩ → landing.Decided call

theorem Registry.Named.resolution {r : Registry β} (h : r.Named) (o : SiteOptions) (call : Call) :
    (r.resolution o call).Named call := by
  refine ⟨fun m hm => h.resolve hm, fun m hm => ?_⟩
  obtain ⟨lk, hlk, hm⟩ := Option.bind_eq_some_iff.mp hm
  obtain ⟨_, hlk⟩ := Option.ite_none_right_eq_some.mp hlk
  obtain rfl := Option.some.inj hlk
  exact h.resolve hm

section Decisions

variable {call : Call}

/-- A decision to run a body is one for the method that was found, or for the handler. -/
theorem Resolution.Named.of_decide {res : Resolution β} (h : res.Named call) {o : SiteOptions}
    {className : String} {a : Activation β} (ha : res.decide o call className = .invoke a) :
    a.Answers call := by
  rw [decide] at ha
  split at ha
  · cases ha
  · rename_i m _ hm
    obtain rfl := Decision.invoke.inj ha
    exact ⟨rfl, rfl, .inl ⟨h.method m hm, rfl⟩⟩
  · cases ha
  · split at ha
    · rename_i m hm
      obtain rfl := Decision.invoke.inj ha
      exact ⟨rfl, rfl, .inr ⟨h.handler m hm, rfl⟩⟩
    · cases ha

/-- Where a body runs it answers the call. -/
theorem Landing.Decided.answers {route : Route} {a : Activation β}
    (h : (Landing.running route a).Decided call) : a.Answers call := by
  obtain ⟨res, o, className, hnamed, hcarries⟩ := h
  generalize hd : res.decide o call className = decision at hcarries
  cases hcarries with
  | invoke copy same receiver args block =>
    obtain ⟨hreceiver, hblock, hmethod⟩ := hnamed.of_decide hd
    refine ⟨receiver.trans hreceiver, block.trans hblock, ?_⟩
    rw [args, congrArg MethodDef.name copy.1]
    exact hmethod

/-- Where no body runs the reply is the site's own. -/
theorem Landing.Decided.own {route : Route} {reply : Except Failure Outcome}
    (h : (Landing.finished (β := β) route reply).Decided call) : call.OwnReply reply := by
  obtain ⟨res, o, className, _, hcarries⟩ := h
  generalize hd : res.decide o call className = decision at hcarries
  cases hcarries with
  | responds _ answer => exact .responds answer
  | missing _ => exact .missing
  | noMethod _ name cls =>
    obtain ⟨_, _, rfl, _⟩ := Resolution.noMethod_decide.mp (congrArg Decision.noMethod? hd)
    exact .noMethod cls

end Decisions

namespace World

/-- A send that its chain serves is served as the lookups of now would have it. -/
theorem agrees_of_served {σ : System β} (h : σ.Coherent) {s : SiteId} {call : Call}
    {target : Target β} (hv : σ.world.verdict s call = .served target) :
    target.Agrees σ.world.registry (σ.world.site s).options call.receiver.classId call.name := by
  obtain ⟨n, b, hn, hb, hvalid, rfl⟩ := branch_of_served (h.chains s).wellFormed hv
  rw [← Value.classId_shape]
  exact ((((h.chains s) n hn).branches _ _ b hb).agrees hvalid).1

theorem begin_landed {w : World β} {s : SiteId} {call : Call} {landing : Landing β}
    (h : (w.begin s call).2 = .landed landing) : ∃ target, w.verdict s call = .served target ∧
      landing = ((w.walkSite s call).serve s call target).2 := by
  by_cases hserved : ∃ target, w.verdict s call = .served target
  · obtain ⟨target, ht⟩ := hserved
    rw [begin_of_served ht, Flight.landed.injEq] at h
    exact ⟨target, ht, h.symm⟩
  · obtain ⟨route, hroute⟩ := begin_of_not_served fun target ht => hserved ⟨target, ht⟩
    cases hroute.symm.trans h

theorem decided_begin {σ : System β} (hc : σ.Coherent) (hn : σ.world.registry.Named) {s : SiteId}
    {call : Call} {landing : Landing β} (h : (σ.world.begin s call).2 = .landed landing) :
    landing.Decided call := by
  obtain ⟨target, hv, rfl⟩ := begin_landed h
  have hagrees := agrees_of_served hc hv
  rw [← options_walkSite σ.world s call] at hagrees
  exact ⟨_, _, _, hn.resolution _ call, carries_serve (σ.world.walkSite s call) s call hagrees⟩

end World

namespace System

theorem Decided.step {σ : System β} (h : σ.Decided) (hc : σ.Coherent) (e : Event β) :
    (σ.step e).Decided := by
  refine ⟨?_, ?_, ?_⟩
  · rw [registry_step]
    split
    · exact h.registry.perform _
    · exact h.registry
  · intro i s call pause hi
    obtain hsame | ⟨_, _, _, hstage⟩ | ⟨_, _, hbefore, hstage⟩ | ⟨_, _, _, _, hstage⟩ :=
      sends_step hi
    · exact h.pauses i s call pause hsame
    · rw [Stage.flying.injEq] at hstage
      obtain ⟨_, route, rfl⟩ := World.begin_paused hstage.symm
      exact ⟨fun m hm => h.registry.resolve hm, nofun⟩
    · rw [Stage.flying.injEq] at hstage
      obtain ⟨route, lookup, rfl, _, rfl⟩ := World.resume_paused hstage.symm
      exact ⟨(h.pauses i s call _ hbefore).method, fun m hm => h.registry.resolve hm⟩
    · cases hstage
  · intro i s call landing hi
    obtain hsame | ⟨_, _, _, hstage⟩ | ⟨pause, _, hbefore, hstage⟩ | ⟨_, _, _, _, hstage⟩ :=
      sends_step hi
    · exact h.landings i s call landing hsame
    · rw [Stage.flying.injEq] at hstage
      exact World.decided_begin hc h.registry hstage.symm
    · rw [Stage.flying.injEq] at hstage
      obtain ⟨route, rfl, _⟩ := World.resume_landed hstage.symm
      exact ⟨_, _, _, h.pauses i s call pause hbefore, World.carries_settle σ.world s call route _⟩
    · cases hstage

theorem decided_run (events : List (Event β)) : (run events).Decided := by
  refine (run_induct (motive := fun σ => σ.Coherent ∧ σ.Decided) ?_ ?_ events).2
  · exact ⟨coherent_run [], Registry.named_builtin, fun _ _ _ _ hi => absurd hi (by simp),
      fun _ _ _ _ hi => absurd hi (by simp)⟩
  · exact fun σ e h => ⟨h.1.step e, h.2.step h.1 e⟩

end System
end InlineCache
