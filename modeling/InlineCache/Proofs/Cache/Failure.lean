import InlineCache.Proofs.Cache.Transparency

/-! The dispatcher's own error among other events. A send decides from two lookups made at different
moments. It fails exactly if the first one finds no method and the second one no handler; that
need not be true of any single moment, but it is unless the class was changed in between. -/
namespace InlineCache

variable {β : Type}

/-- Whether a receiver can answer a message: by a method or by its handler. -/
def Registry.answers (r : Registry β) (o : SiteOptions) (call : Call) : Bool :=
  (r.lookup o call).method.isSome || (r.lookupHandler call).method.isSome

/-- The dispatcher's own error, where a send has come to that: the message and the class. -/
def Landing.noMethod? : Landing β → Option (String × String)
  | .finished _ (.error (.noMethod name className)) => some (name, className)
  | _ => none

def Decision.noMethod? : Decision β → Option (String × String)
  | .noMethod name className => some (name, className)
  | _ => none

def Stage.noMethod? : Stage β → Option (String × String)
  | .flying (.landed landing) => landing.noMethod?
  | _ => none

/-- The dispatcher's own error that a send has come to. -/
def System.noMethod? (σ : System β) (i : Nat) : Option (String × String) :=
  σ.sends[i]?.bind fun q => q.stage.noMethod?

/-- A send among other events, up to its decision: what comes before it, between its two lookups, and
between the second one and the decision. -/
structure Course (β : Type) where
  before : List (Event β)
  site : SiteId
  call : Call
  between : List (Event β)
  after : List (Event β)

namespace Course

/-- The number of the send. -/
def index (c : Course β) : Nat := (System.run c.before).sends.size

/-- The events of the send's own time. -/
def during (c : Course β) : List (Event β) :=
  c.between ++ .resume c.index :: (c.after ++ [.resume c.index])

def events (c : Course β) : List (Event β) := c.before ++ .begin c.site c.call :: c.during

/-- The state in which the message is looked up. -/
def first (c : Course β) : System β := System.run c.before

/-- The state in which the handler is looked up. -/
def second (c : Course β) : System β :=
  System.run (c.before ++ .begin c.site c.call :: c.between)

/-- The state in which the decision is made. -/
def last (c : Course β) : System β :=
  System.run (c.before ++ .begin c.site c.call :: (c.between ++ .resume c.index :: c.after))

def options (c : Course β) : SiteOptions := (c.first.world.site c.site).options

/-- In one single state between the beginning of the send and its decision the receiver cannot
answer. -/
def Justified (c : Course β) : Prop :=
  ∃ k, (System.run (c.before ++ .begin c.site c.call :: c.during.take k)).world.registry.answers
    c.options c.call = false

/-- The send comes to ask for the handler: the chain does not serve the call and the first lookup finds
no method. -/
structure Asks (c : Course β) : Prop where
  site : c.site.place < c.first.world.sites.size
  between : .resume c.index ∉ c.between
  after : .resume c.index ∉ c.after
  unserved : ∀ target, c.first.world.verdict c.site c.call ≠ .served target
  action : c.options.action = .invoke
  missing : c.options.missing = .callHandler
  unfound : (c.first.world.registry.lookup c.options c.call).method = none

/-- The second lookup finds no handler. -/
structure Fails (c : Course β) : Prop extends c.Asks where
  unhandled : (c.second.world.registry.lookupHandler c.call).method = none

theorem second_eq (c : Course β) :
    c.second = c.first.runFrom (.begin c.site c.call :: c.between) := System.run_append _ _

theorem last_eq (c : Course β) :
    c.last = c.second.runFrom (.resume c.index :: c.after) := by
  rw [last, second, ← System.run_append]
  simp

theorem run_events (c : Course β) (rest : List (Event β)) :
    System.run (c.events ++ rest) = (c.last.step (.resume c.index)).runFrom rest := by
  rw [← System.runFrom_cons, last, ← System.run_append, events, during]
  simp

end Course

theorem SiteOptions.wantsHandler_iff {o : SiteOptions} {lk : Lookup β} :
    o.wantsHandler lk = true ↔ lk.method = none ∧ o.action = .invoke ∧ o.missing = .callHandler := by
  simp [wantsHandler, and_assoc]

theorem Landing.Carries.noMethod_eq {landing : Landing β} {decision : Decision β}
    (h : landing.Carries decision) : landing.noMethod? = decision.noMethod? := by
  cases h <;> rfl

/-- Nothing is called if the handler is asked for and there is none. -/
theorem Resolution.noMethod_decide {res : Resolution β} {o : SiteOptions} {call : Call}
    {cls name className : String} :
    (res.decide o call cls).noMethod? = some (name, className) ↔
      o.wantsHandler res.lookup = true ∧ res.handlerMethod? = none ∧ call.name = name ∧
        cls = className := by
  rw [SiteOptions.wantsHandler_iff, decide]
  cases o.action with
  | probe => simp [Decision.noMethod?]
  | invoke =>
    cases res.lookup.method with
    | some m => simp [Decision.noMethod?]
    | none =>
      cases o.missing with
      | returnMissing => simp [Decision.noMethod?]
      | callHandler => cases res.handlerMethod? <;> simp [Decision.noMethod?]

namespace World

theorem noMethod_serve (w : World β) (s : SiteId) (call : Call) (target : Target β) :
    (w.serve s call target).2.noMethod? = none := by
  unfold serve
  split <;> rfl

theorem noMethod_settle {w : World β} {s : SiteId} {call : Call} {route : Route}
    {res : Resolution β} {name className : String} :
    (w.settle s call route res).2.noMethod? = some (name, className) ↔
      (w.site s).options.wantsHandler res.lookup = true ∧ res.handlerMethod? = none ∧
        call.name = name ∧ w.registry.className call.receiver.classId = className := by
  rw [(carries_settle w s call route res).noMethod_eq, Resolution.noMethod_decide]

/-- The decision after a pause is the dispatcher's error only where the handler was looked up. -/
theorem noMethod_resume {w : World β} {s : SiteId} {call : Call} {pause : Pause β}
    {landing : Landing β} {name className : String}
    (h : (w.resume s call pause).2 = .landed landing)
    (hn : landing.noMethod? = some (name, className)) :
    ∃ route lookup handler, pause = .lookedUpHandler route lookup handler ∧ handler.method = none ∧
      call.name = name ∧ w.registry.className call.receiver.classId = className := by
  obtain ⟨route, rfl, hwants⟩ := resume_landed h
  obtain ⟨hw, hnone, hname, hclass⟩ := noMethod_settle.mp hn
  cases pause with
  | lookedUp earlier lookup =>
    simp only [resume] at h
    split at h
    · cases h
    · rename_i hnot
      exact absurd hw hnot
  | lookedUpHandler earlier lookup handler =>
    exact ⟨earlier, lookup, handler, rfl, hnone, hname, hclass⟩

end World

namespace System

theorem noMethod_of_stage {σ : System β} {i : Nat} {name className : String}
    (h : σ.noMethod? i = some (name, className)) : ∃ s call landing,
      σ.sends[i]? = some ⟨s, call, .flying (.landed landing)⟩ ∧
        landing.noMethod? = some (name, className) := by
  obtain ⟨⟨s, call, stage⟩, hi, hstage⟩ := Option.bind_eq_some_iff.mp h
  cases stage with
  | ended route reply => cases hstage
  | flying flight =>
    cases flight with
    | paused pause => cases hstage
    | landed landing => exact ⟨s, call, landing, hi, hstage⟩

theorem noMethod_of_landed {σ : System β} {i : Nat} {s : SiteId} {call : Call}
    {landing : Landing β} (h : σ.sends[i]? = some ⟨s, call, .flying (.landed landing)⟩) :
    σ.noMethod? i = landing.noMethod? := by
  rw [noMethod?, h]
  rfl

/-- A resumption moves a send on. -/
theorem resume_ne_paused {σ : System β} {i : Nat} {s : SiteId} {call : Call} {pause : Pause β}
    (h : σ.sends[i]? = some ⟨s, call, .flying (.paused pause)⟩) :
    (σ.step (.resume i)).sends[i]? ≠ some ⟨s, call, .flying (.paused pause)⟩ := by
  rw [step_resume h, sends_advance, if_pos rfl, h, Option.map_some]
  intro heq
  rw [Option.some.injEq, Sending.mk.injEq, Stage.flying.injEq] at heq
  obtain ⟨route, lookup, rfl, _, hpause⟩ := World.resume_paused heq.2.2
  cases hpause

/-- Where a send waits with its first lookup, its course so far. -/
theorem exists_begin {events : List (Event β)} {i : Nat} {s : SiteId} {call : Call} {route : Route}
    {lookup : Lookup β}
    (h : (run events).sends[i]? = some ⟨s, call, .flying (.paused (.lookedUp route lookup))⟩) :
    ∃ before between, events = before ++ .begin s call :: between ∧ i = (run before).sends.size ∧
      s.place < (run before).world.sites.size ∧ .resume i ∉ between ∧
      (∀ target, (run before).world.verdict s call ≠ .served target) ∧
      lookup = (run before).world.registry.lookup ((run before).world.site s).options call := by
  induction events using List.reverseRecOn with
  | nil => exact absurd h (by simp [run])
  | append_singleton es e ih =>
    rw [run_append] at h
    obtain hsame | ⟨rfl, hs, hi, hstage⟩ | ⟨pause, _, _, hstage⟩ | ⟨_, _, _, _, hstage⟩ :=
      sends_step h
    · obtain ⟨before, between, rfl, hi, hs, hnot, hserved, hlookup⟩ := ih hsame
      refine ⟨before, between ++ [e], by simp, hi, hs, ?_, hserved, hlookup⟩
      rw [List.mem_append, List.mem_singleton, not_or]
      exact ⟨hnot, fun he => resume_ne_paused hsame (he ▸ h)⟩
    · obtain ⟨hserved, _, hpause⟩ := World.begin_paused (Stage.flying.inj hstage).symm
      obtain ⟨_, rfl⟩ := Pause.lookedUp.inj hpause
      exact ⟨es, [], rfl, hi, hs, List.not_mem_nil, hserved, rfl⟩
    · obtain ⟨_, _, _, _, hpause⟩ := World.resume_paused (Stage.flying.inj hstage).symm
      cases hpause
    · cases hstage

/-- Where a send waits with both its lookups, its course so far. -/
theorem exists_asks {events : List (Event β)} {i : Nat} {s : SiteId} {call : Call} {route : Route}
    {lookup handler : Lookup β} (h : (run events).sends[i]? =
      some ⟨s, call, .flying (.paused (.lookedUpHandler route lookup handler))⟩) :
    ∃ c : Course β, c.Asks ∧ i = c.index ∧ c.call = call ∧
      events = c.before ++ .begin c.site c.call :: (c.between ++ .resume i :: c.after) ∧
      handler = c.second.world.registry.lookupHandler call := by
  induction events using List.reverseRecOn with
  | nil => exact absurd h (by simp [run])
  | append_singleton es e ih =>
    rw [run_append] at h
    obtain hsame | ⟨_, _, _, hstage⟩ | ⟨pause, rfl, hbefore, hstage⟩ | ⟨_, _, _, _, hstage⟩ :=
      sends_step h
    · obtain ⟨c, hc, hi, hcall, hes, hhandler⟩ := ih hsame
      refine ⟨{ c with after := c.after ++ [e] }, { hc with after := ?_ }, hi, hcall, ?_, hhandler⟩
      · rw [List.mem_append, List.mem_singleton, not_or]
        refine ⟨hc.after, fun he => resume_ne_paused hsame ?_⟩
        rw [hi]
        exact he ▸ hi ▸ h
      · rw [hes]
        simp
    · obtain ⟨_, _, hpause⟩ := World.begin_paused (Stage.flying.inj hstage).symm
      cases hpause
    · obtain ⟨_, lk, rfl, hwants, hpause⟩ := World.resume_paused (Stage.flying.inj hstage).symm
      obtain ⟨_, rfl, rfl⟩ := Pause.lookedUpHandler.inj hpause
      obtain ⟨before, between, rfl, hi, hs, hnot, hserved, rfl⟩ := exists_begin hbefore
      have hoptions := Site.options_of_setup (setup_runFrom hs (.begin s call :: between))
      rw [run_append, hoptions, SiteOptions.wantsHandler_iff] at hwants
      obtain ⟨hunfound, haction, hmissing⟩ := hwants
      subst hi
      refine ⟨⟨before, s, call, between, []⟩, ⟨hs, hnot, List.not_mem_nil, hserved, haction, hmissing,
        hunfound⟩, rfl, rfl, ?_, rfl⟩
      simp
    · cases hstage

/-- A send whose end was reported is not waiting to be ended. -/
theorem finish_ne_landed {σ : System β} {i : Nat} {s : SiteId} {call : Call} {landing : Landing β}
    {result : Except Failure Value} (h : σ.sends[i]? = some ⟨s, call, .flying (.landed landing)⟩) :
    (σ.step (.finish i result)).sends[i]? ≠ some ⟨s, call, .flying (.landed landing)⟩ := by
  simp only [step, h]
  cases landing with
  | running route activation =>
    simp only [sends_advance, if_pos, h, Option.map_some]
    intro heq
    cases heq
  | finished route reply =>
    simp only [sends_advance, if_pos, h, Option.map_some]
    intro heq
    cases heq

/-- Every send that has come to the dispatcher's error has done so in this way. -/
theorem exists_fails {events : List (Event β)} {i : Nat} {name className : String}
    (h : (run events).noMethod? i = some (name, className)) :
    ∃ (c : Course β) (rest : List (Event β)), c.Fails ∧ i = c.index ∧ events = c.events ++ rest ∧
      (∀ result, .finish i result ∉ rest) ∧ c.call.name = name ∧
      c.last.world.registry.className c.call.receiver.classId = className := by
  obtain ⟨s, call, landing, hi, hn⟩ := noMethod_of_stage h
  clear h
  induction events using List.reverseRecOn with
  | nil => exact absurd hi (by simp [run])
  | append_singleton es e ih =>
    rw [run_append] at hi
    obtain hsame | ⟨_, _, _, hstage⟩ | ⟨pause, rfl, hbefore, hstage⟩ | ⟨_, _, _, _, hstage⟩ :=
      sends_step hi
    · obtain ⟨c, rest, hc, hindex, rfl, hrest, hname, hclass⟩ := ih hsame
      refine ⟨c, rest ++ [e], hc, hindex, by simp, fun result => ?_, hname, hclass⟩
      rw [List.mem_append, List.mem_singleton, not_or]
      exact ⟨hrest result, fun he => finish_ne_landed hsame (he ▸ hi)⟩
    · have hbegin := (Stage.flying.inj hstage).symm
      cases hv : (run es).world.verdict s call with
      | served target =>
        rw [World.begin_of_served hv, Flight.landed.injEq] at hbegin
        rw [← hbegin, World.noMethod_serve] at hn
        cases hn
      | _ =>
        have hnot : ∀ target, (run es).world.verdict s call ≠ .served target := by
          intro target ht
          cases hv.symm.trans ht
        obtain ⟨_, hpaused⟩ := World.begin_of_not_served hnot
        cases hpaused.symm.trans hbegin
    · obtain ⟨route, lookup, handler, rfl, hnone, hname, hclass⟩ :=
        World.noMethod_resume (Stage.flying.inj hstage).symm hn
      obtain ⟨c, hc, hindex, rfl, rfl, rfl⟩ := exists_asks hbefore
      subst hindex
      exact ⟨c, [], ⟨hc, hnone⟩, rfl, by simp [Course.events, Course.during],
        fun _ => List.not_mem_nil, hname, hclass⟩
    · cases hstage

/-- And every send that goes this way comes to it. -/
theorem noMethod_of_fails {c : Course β} (h : c.Fails) {rest : List (Event β)}
    (hrest : ∀ result, .finish c.index result ∉ rest) :
    (run (c.events ++ rest)).noMethod? c.index =
      some (c.call.name, c.last.world.registry.className c.call.receiver.classId) := by
  have hoptions : ∀ events, ((c.first.runFrom events).world.site c.site).options = c.options :=
    fun events => Site.options_of_setup (setup_runFrom h.site events)
  have hwants := SiteOptions.wantsHandler_iff.mpr ⟨h.unfound, h.action, h.missing⟩
  obtain ⟨route, hroute⟩ := World.begin_of_not_served h.unserved
  have hbegun : (c.first.step (.begin c.site c.call)).sends[c.index]? = some ⟨c.site, c.call,
      .flying (.paused (.lookedUp route (c.first.world.registry.lookup c.options c.call)))⟩ := by
    rw [step_begin h.site, hroute, Course.index, ← Course.first, Array.getElem?_push, if_pos rfl]
    rfl
  have hsecond := paused_runFrom hbegun h.between
  rw [← runFrom_cons, ← c.second_eq] at hsecond
  have hasked : (c.second.step (.resume c.index)).sends[c.index]? = some ⟨c.site, c.call,
      .flying (.paused (.lookedUpHandler route (c.first.world.registry.lookup c.options c.call)
        (c.second.world.registry.lookupHandler c.call)))⟩ := by
    rw [step_resume hsecond, sends_advance, if_pos rfl, hsecond, Option.map_some,
      World.resume_of_wants route (by rw [c.second_eq, hoptions]; exact hwants)]
  have hlast := paused_runFrom hasked h.after
  rw [← runFrom_cons, ← c.last_eq] at hlast
  have hlanded : (c.last.step (.resume c.index)).sends[c.index]? = some ⟨c.site, c.call,
      .flying (.landed (c.last.world.settle c.site c.call route
        ⟨c.first.world.registry.lookup c.options c.call,
          some (c.second.world.registry.lookupHandler c.call)⟩).2)⟩ := by
    rw [step_resume hlast, sends_advance, if_pos rfl, hlast, Option.map_some]
    rfl
  rw [c.run_events, noMethod_of_landed (landed_runFrom hlanded hrest), World.noMethod_settle]
  refine ⟨?_, h.unhandled, rfl, rfl⟩
  rw [c.last_eq, c.second_eq, ← runFrom_append, hoptions]
  exact hwants

/-- A failure that no single state justifies needs a handler at the first lookup, a method at the second
one, and a change of the class or of one above it in between. -/
theorem justified_or_changed {c : Course β} (h : c.Fails) : c.Justified ∨
    (c.first.world.registry.lookupHandler c.call).method.isSome = true ∧
    (c.second.world.registry.lookup c.options c.call).method.isSome = true ∧
    ∃ before e after d, c.between = before ++ e :: after ∧
      changed? (run (c.before ++ .begin c.site c.call :: before)) e = some d ∧
      (run (c.before ++ .begin c.site c.call :: before)).world.registry.inherits
        c.call.receiver.classId d = true := by
  have hbegun : (run (c.before ++ [.begin c.site c.call])).world.registry =
      c.first.world.registry := by
    rw [run_append, runFrom_cons, runFrom_nil, registry_step]
    rfl
  cases hfirst : (c.first.world.registry.lookupHandler c.call).method with
  | none =>
    refine .inl ⟨0, ?_⟩
    rw [List.take_zero, hbegun, Registry.answers, h.unfound, hfirst]
    rfl
  | some m =>
    cases hsecond : (c.second.world.registry.lookup c.options c.call).method with
    | none =>
      refine .inl ⟨c.between.length, ?_⟩
      rw [Course.during, List.take_left, ← Course.second, Registry.answers, hsecond, h.unhandled]
      rfl
    | some m' =>
      refine .inr ⟨rfl, rfl, ?_⟩
      obtain ⟨t, ht⟩ := Registry.currentToken_of_found hfirst
      have hw : c.first.world.registry.WellFormed := wellFormed_run c.before
      obtain hsame | ⟨mid, e, after, d, heq, hd, hin⟩ :=
        resolve_runFrom_or_changed hw ht (.begin c.site c.call :: c.between)
      · rw [c.second_eq, Registry.lookup, hsame] at hsecond
        cases h.unfound.symm.trans hsecond
      · cases mid with
        | nil =>
          obtain ⟨rfl, _⟩ := List.cons.inj heq
          cases hd
        | cons b mid =>
          obtain ⟨rfl, hbetween⟩ := List.cons.inj heq
          refine ⟨mid, e, after, d, hbetween, ?_, ?_⟩
          · rw [run_append]
            exact hd
          · rw [run_append]
            exact hin

/-- A send comes to the dispatcher's error exactly if its first lookup, at its beginning, finds no
method and its second one, at its first resumption, finds no handler. In one state in between the
receiver cannot answer then, unless there was a handler at first and is a method at last, and the
class or a class above it was changed between the lookups. -/
theorem noMethod_iff_fails (events : List (Event β)) (i : Nat) (name className : String) :
    ((run events).noMethod? i = some (name, className) ↔
      ∃ (c : Course β) (rest : List (Event β)), c.Fails ∧ i = c.index ∧ events = c.events ++ rest ∧
        (∀ result, .finish i result ∉ rest) ∧ c.call.name = name ∧
        c.last.world.registry.className c.call.receiver.classId = className) ∧
    ∀ c : Course β, c.Fails → c.Justified ∨
      (c.first.world.registry.lookupHandler c.call).method.isSome = true ∧
      (c.second.world.registry.lookup c.options c.call).method.isSome = true ∧
      ∃ before e after d, c.between = before ++ e :: after ∧
        changed? (run (c.before ++ .begin c.site c.call :: before)) e = some d ∧
        (run (c.before ++ .begin c.site c.call :: before)).world.registry.inherits
          c.call.receiver.classId d = true := by
  refine ⟨⟨exists_fails, ?_⟩, fun c h => justified_or_changed h⟩
  rintro ⟨c, rest, h, rfl, rfl, hrest, rfl, rfl⟩
  exact noMethod_of_fails h hrest

end System

/-- A receiver whose handler gives way to a method between the two lookups of a send. -/
def handlerTraded : Course Unit where
  before := [.act (.defineClass "Moving" none), .act (.setCacheable ⟨8⟩ false),
    .act (.defineMethod ⟨8⟩ { name := "method_missing", body := () }), .act (.addInvoker true),
    .act (.addSite "pos" {} 8 0), .act (.newObject ⟨8⟩)]
  site := ⟨0⟩
  call := { name := "pos", receiver := .object 1 ⟨8⟩ }
  between := [.act (.defineMethod ⟨8⟩ { name := "pos", body := () }),
    .act (.removeMethod ⟨8⟩ "method_missing")]
  after := []

/-- It can answer all the time, and yet the send comes to the dispatcher's error. -/
theorem noMethod_handlerTraded :
    (System.run handlerTraded.events).noMethod? handlerTraded.index = some ("pos", "Moving") ∧
      ¬ handlerTraded.Justified := by
  refine ⟨by decide +kernel, ?_⟩
  have hsmall : ∀ k ≤ handlerTraded.during.length, (System.run (handlerTraded.before ++
      .begin handlerTraded.site handlerTraded.call ::
        handlerTraded.during.take k)).world.registry.answers handlerTraded.options
          handlerTraded.call = true := by
    decide +kernel
  rintro ⟨k, hk⟩
  by_cases hle : k ≤ handlerTraded.during.length
  · cases (hsmall k hle).symm.trans hk
  · have hall := hsmall handlerTraded.during.length (Nat.le_refl _)
    rw [List.take_length] at hall
    rw [List.take_of_length_le (Nat.le_of_not_le hle)] at hk
    cases hall.symm.trans hk

end InlineCache
