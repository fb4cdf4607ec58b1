import InlineCache.Proofs.Script.Commands
import InlineCache.Script.Run

/-! Scripts as runs. Whatever a script does to its world, with steps inside sends and inside method
bodies to any depth, a system does by a list of events; a send of the script ends there with the reply
that the script answers. So what holds of the runs of systems holds of the worlds that scripts come
to. -/
namespace InlineCache.Script

/-- The steps that run at a pause, if there are any. -/
def Progress.pause (depth : Nat) (p : Progress) (during : List (List Step)) (used : Nat) : Progress :=
  match _h : during[used]? with
  | some steps => runSteps (depth + 1) p steps
  | none => p

theorem runFlight_paused (depth : Nat) (p : Progress) (id : SiteId) (call : Call)
    (during : List (List Step)) (used : Nat) (pause : Pause Body) :
    let q := p.pause depth during used
    runFlight depth p id call during used (.paused pause) =
      runFlight depth (q.withWorld (q.session.world.resume id call pause).1) id call during
        (used + 1) (q.session.world.resume id call pause).2 := by
  rw [runFlight]
  rfl

/-- A send under way comes to its end: in whatever system the session is within, events of its own and
of what happens inside it lead to a system where it has ended with the same reply. -/
def Ends (depth : Nat) (p : Progress) (id : SiteId) (call : Call) (during : List (List Step))
    (used : Nat) (flight : Flight Body) : Prop :=
  ∀ (σ : System Body) (i : Nat), p.session.Within σ →
    σ.sends[i]? = some ⟨id, call, .flying flight⟩ → ∃ (τ : System Body) (route : Route), σ.Leads i τ ∧
      (runFlight depth p id call during used flight).1.session.Within τ ∧
      τ.sends[i]? = some ⟨id, call,
        .ended route (runFlight depth p id call during used flight).2.2⟩

/-- A number of sends in a row come to their ends, the last one with the reply that is answered. -/
def EndsAll (depth : Nat) (p : Progress) (id : SiteId) (call : Call) (during : List (List Step))
    (used : Nat) (reply : Option (Except Failure Outcome)) (times : Nat) : Prop :=
  ∀ σ : System Body, p.session.Within σ → id.place < p.session.world.sites.size →
    ∃ τ : System Body, σ.Leads σ.sends.size τ ∧
      (runSends depth p id call during used reply times).1.session.Within τ ∧
      (times = 0 ∧ (runSends depth p id call during used reply times).2 = reply ∨
        ∃ (i : Nat) (route : Route) (last : Except Failure Outcome),
          (runSends depth p id call during used reply times).2 = some last ∧
            τ.sends[i]? = some ⟨id, call, .ended route last⟩)

section

variable {depth : Nat} {p : Progress} {id : SiteId} {call : Call} {during : List (List Step)}
  {used : Nat}

theorem reaches_pause (h : ∀ steps, during[used]? = some steps →
    p.session.Reaches (runSteps (depth + 1) p steps).session) :
    p.session.Reaches (p.pause depth during used).session := by
  rw [Progress.pause]
  split
  · rename_i steps hsteps
    exact h steps hsteps
  · exact .refl p.session

/-- At a pause other steps run, and then the send is resumed. -/
theorem ends_paused {pause : Pause Body} {q : Progress} (hq : p.pause depth during used = q)
    (hpause : p.session.Reaches q.session)
    (hrest : Ends depth (q.withWorld (q.session.world.resume id call pause).1) id call during
      (used + 1) (q.session.world.resume id call pause).2) :
    Ends depth p id call during used (.paused pause) := by
  intro σ i hσ hi
  obtain ⟨hlt, _⟩ := Array.getElem?_eq_some_iff.mp hi
  obtain ⟨σ₁, hlead, hσ₁⟩ := hpause σ hσ
  have hi₁ := (hlead.sends_eq hlt hlt).trans hi
  have hstep := System.step_resume hi₁
  rw [hσ₁.world] at hstep
  have hi₂ : (σ₁.step (.resume i)).sends[i]? =
      some ⟨id, call, .flying (q.session.world.resume id call pause).2⟩ := by
    rw [hstep, System.sends_advance, if_pos rfl, hi₁]
    rfl
  have hσ₂ : (q.withWorld (q.session.world.resume id call pause).1).session.Within
      (σ₁.step (.resume i)) := hσ₁.step (.resume i) (congrArg System.world hstep.symm) rfl
  obtain ⟨τ, route, hτ, hin, hend⟩ := hrest (σ₁.step (.resume i)) i hσ₂ hi₂
  have hresume : σ₁.Leads i (σ₁.step (.resume i)) := .of_step (e := .resume i) (Nat.le_refl i) σ₁
  rw [runFlight_paused, hq]
  exact ⟨τ, route, (hlead.mono (Nat.le_of_lt hlt)).trans (hresume.trans hτ), hin, hend⟩

/-- A method body runs, and then the send is over. -/
theorem ends_running {route : Route} {activation : Activation Body}
    (hbody : p.session.Reaches (runBody depth p activation).1.session) :
    Ends depth p id call during used (.landed (.running route activation)) := by
  intro σ i hσ hi
  obtain ⟨hlt, _⟩ := Array.getElem?_eq_some_iff.mp hi
  rw [runFlight]
  generalize runBody depth p activation = r at hbody
  obtain ⟨q, result⟩ := r
  obtain ⟨σ₁, hlead, hσ₁⟩ := hbody σ hσ
  have hi₁ := (hlead.sends_eq hlt hlt).trans hi
  have hstep : σ₁.step (.finish i result) = σ₁.advance (q.session.world.finish id route) i
      (.ended route (result.map .returned)) := by
    simp only [System.step, hi₁, hσ₁.world]
  have hfinish : σ₁.Leads i (σ₁.step (.finish i result)) :=
    .of_step (e := .finish i result) (Nat.le_refl i) σ₁
  refine ⟨_, route, (hlead.mono (Nat.le_of_lt hlt)).trans hfinish,
    hσ₁.step _ (congrArg System.world hstep.symm) rfl, ?_⟩
  rw [hstep, System.sends_advance, if_pos rfl, hi₁]
  rfl

/-- A send with nothing to run is over at once. -/
theorem ends_finished {route : Route} {reply : Except Failure Outcome} :
    Ends depth p id call during used (.landed (.finished route reply)) := by
  intro σ i hσ hi
  rw [runFlight]
  have hstep : σ.step (.finish i (.ok .nil)) =
      σ.advance (p.session.world.finish id route) i (.ended route reply) := by
    simp only [System.step, hi, hσ.world]
  refine ⟨_, route, .of_step (e := .finish i (.ok .nil)) (Nat.le_refl i) σ,
    hσ.step _ (congrArg System.world hstep.symm) rfl, ?_⟩
  rw [hstep, System.sends_advance, if_pos rfl, hi]
  rfl

/-- A send begins and comes to its end, and then the rest of them do. -/
theorem endsAll_succ {reply : Option (Except Failure Outcome)} {n : Nat} {world : World Body}
    {flight : Flight Body} {q : Progress} {used' : Nat} {first : Except Failure Outcome}
    (hbegin : p.session.world.begin id call = (world, flight))
    (hflight : runFlight depth (p.withWorld world) id call during used flight = (q, used', first))
    (hfirst : Ends depth (p.withWorld world) id call during used flight)
    (hrest : EndsAll depth q id call during used' (some first) n) :
    EndsAll depth p id call during used reply (n + 1) := by
  intro σ hσ hid
  rw [runSends]
  simp only [hbegin, hflight]
  have hstep : σ.step (.begin id call) = ⟨world, σ.sends.push ⟨id, call, .flying flight⟩⟩ := by
    rw [System.step_begin (hσ.world ▸ hid), hσ.world, hbegin]
  have hbegun : σ.Leads σ.sends.size (σ.step (.begin id call)) :=
    .of_step (e := .begin id call) trivial σ
  have hi : (σ.step (.begin id call)).sends[σ.sends.size]? = some ⟨id, call, .flying flight⟩ := by
    rw [hstep]
    exact Array.getElem?_push_size
  obtain ⟨τ, route, hτ, hin, hend⟩ := hfirst _ σ.sends.size
    (hσ.step (.begin id call) (congrArg System.world hstep.symm) rfl) hi
  rw [hflight] at hin hend
  obtain ⟨hlt, _⟩ := Array.getElem?_eq_some_iff.mp hend
  have hall := hbegun.trans hτ
  have hgrown := hall.grown
  rw [hσ.world, hin.world] at hgrown
  obtain ⟨υ, hυ, hin', hlast⟩ := hrest τ hin (Nat.lt_of_lt_of_le hid hgrown.sites)
  refine ⟨υ, hall.trans (hυ.mono (Nat.le_of_lt hlt)), hin', .inr ?_⟩
  obtain ⟨_, hfirst⟩ | hsome := hlast
  · exact ⟨σ.sends.size, route, first, hfirst, (hυ.sends_eq hlt hlt).trans hend⟩
  · exact hsome

section Steps

variable {s s' : Session} {a : Answer} {receiver : Expr} {args : List Expr} {block : Option Expr}

theorem reaches_callMethod {name : String}
    (hbody : ∀ (m : Method Body) (s : Session) (call : Call),
      s.Reaches (runBody depth { session := s } (call.activate m)).1.session)
    (h : runStep depth s (.callMethod name receiver args block) = .ok (s', a)) : s.Reaches s' := by
  rw [runStep] at h
  obtain ⟨m, _, h⟩ := ok_of_bind h
  obtain ⟨⟨s₁, call⟩, hcall, h⟩ := ok_of_bind h
  have hrun := hbody m s₁ call
  simp only at h
  generalize runBody depth { session := s₁ } (call.activate m) = r at h hrun
  cases h
  exact (Session.reaches_evalCall hcall).trans hrun

theorem reaches_invoke {name : String}
    (hbody : ∀ (t : CallTarget Body) (s : Session) (call : Call),
      let p : Progress := { session := s }
      let q := p.withWorld (s.world.countInvocation Session.sharedInvoker)
      q.session.Reaches (runBody depth q (call.activate t.method)).1.session)
    (h : runStep depth s (.invoke name receiver args block) = .ok (s', a)) : s.Reaches s' := by
  rw [runStep] at h
  obtain ⟨t, _, h⟩ := ok_of_bind h
  obtain ⟨⟨s₁, call⟩, hcall, h⟩ := ok_of_bind h
  have hcounted : s₁.Reaches (Progress.withWorld { session := s₁ }
      (s₁.world.countInvocation Session.sharedInvoker)).session :=
    .of_act (.countInvocation Session.sharedInvoker) rfl rfl
  have hrun := hcounted.trans (hbody t s₁ call)
  simp only at h hrun
  generalize runBody depth _ (call.activate t.method) = r at h hrun
  cases h
  exact (Session.reaches_evalCall hcall).trans hrun

theorem reaches_call {site : String} {send : Option String} {times : Nat}
    (hsends : ∀ (id : SiteId) (s : Session) (call : Call),
      EndsAll depth { session := s } id call during 0 none times)
    (h : runStep depth s (.call site receiver args block send times during) = .ok (s', a)) :
    s.Reaches s' := by
  rw [runStep] at h
  obtain ⟨id, hid, h⟩ := ok_of_bind h
  obtain ⟨⟨s₁, call⟩, hcall, h⟩ := ok_of_bind h
  have hends := hsends id s₁ call
  simp only at h
  cases h
  intro σ hσ
  have hin := hσ.sites site id (Session.named_eq_ok.mp hid)
  obtain ⟨τ, hτ, hs₁⟩ := Session.reaches_evalCall hcall σ hσ
  have hgrown := hτ.grown
  rw [hσ.world, hs₁.world] at hgrown
  obtain ⟨υ, hυ, hs', _⟩ := hends τ hs₁ (Nat.lt_of_lt_of_le hin hgrown.sites)
  exact ⟨υ, hτ.trans (hυ.mono hτ.size_sends), hs'⟩

end Steps

/-- What the parts of a script do, however deep they are nested, events of a system do. -/
theorem simulation :
    (∀ depth s step s' a, runStep depth s step = .ok (s', a) → s.Reaches s') ∧
    (∀ depth p id call during used reply times,
      EndsAll depth p id call during used reply times) ∧
    (∀ depth p id call during used flight, Ends depth p id call during used flight) ∧
    (∀ depth (p : Progress) a, p.session.Reaches (runBody depth p a).1.session) ∧
    ∀ depth (p : Progress) steps, p.session.Reaches (runSteps depth p steps).session := by
  refine runStep.mutual_induct
    (fun depth s step => ∀ s' a, runStep depth s step = .ok (s', a) → s.Reaches s')
    EndsAll Ends
    (fun depth p a => p.session.Reaches (runBody depth p a).1.session)
    (fun depth p steps => p.session.Reaches (runSteps depth p steps).session)
    ?command ?callMethod ?invoke ?call ?none ?succ ?paused ?running ?finished ?tooDeep ?run ?other
    ?nil ?cons
  case command =>
    intro depth s c s' a h
    rw [runStep] at h
    exact Session.reaches_perform h
  case callMethod =>
    intro depth s name receiver args block hbody s' a h
    exact reaches_callMethod hbody h
  case invoke =>
    intro depth s name receiver args block hbody s' a h
    exact reaches_invoke hbody h
  case call =>
    intro depth s site receiver args block send times during hsends s' a h
    exact reaches_call hsends h
  case none =>
    intro depth p id call during used reply σ hσ _
    rw [runSends]
    exact ⟨σ, .refl _ σ, hσ, .inl ⟨rfl, rfl⟩⟩
  case succ =>
    intro depth p id call during used reply n world flight hbegin _ q used' first hflight hfirst hrest
    exact endsAll_succ hbegin hflight hfirst hrest
  case paused =>
    intro depth p id call during used pause q world next hresume _ hsteps hrest
    refine ends_paused rfl (reaches_pause hsteps) ?_
    have hresumed : (p.pause depth during used).session.world.resume id call pause =
        (world, next) := hresume
    rw [hresumed]
    exact hrest
  case running =>
    intro depth p id call during used route activation _ q result _ hbody
    exact ends_running hbody
  case finished =>
    intro depth p id call during used route reply
    exact ends_finished
  case tooDeep =>
    intro depth p a steps v hbody hdeep
    rw [runBody, hbody]
    simp only [dif_pos hdeep]
    exact .refl p.session
  case run =>
    intro depth p a steps v hbody hdeep hsteps
    rw [runBody, hbody]
    simp only [dif_neg hdeep]
    exact hsteps
  case other =>
    intro depth p a hbody
    rw [runBody]
    split
    · rename_i steps v hrun
      exact (hbody steps v hrun).elim
    · exact .refl p.session
  case nil =>
    intro depth p
    rw [runSteps]
    exact .refl p.session
  case cons =>
    intro depth p step rest q hstep hrest
    rw [runSteps]
    refine Session.Reaches.trans ?_ hrest
    cases hr : runStep depth p.session step with
    | ok r =>
      obtain ⟨s', a⟩ := r
      simp only [q, hr]
      exact hstep s' a hr
    | error name =>
      simp only [q, hr]
      exact .refl p.session

/-- The world that a script has come to is that of a run. -/
theorem exists_run (bound : Nat) (cloning : Bool) (steps : List Step) :
    ∃ events, (System.run events).world =
      (runSteps 1 { session := .start bound cloning } steps).session.world := by
  obtain ⟨_, _, _, _, hsteps⟩ := simulation
  obtain ⟨τ, ⟨events, _, rfl⟩, hτ⟩ := hsteps 1 { session := .start bound cloning } steps _
    (Session.within_start bound cloning)
  exact ⟨.act (.addInvoker cloning) :: events, hτ.world⟩

/-- When a script sends a message once or more, whatever other steps run inside the sends, the reply
that it answers is the one that a send of a run has ended with. -/
theorem exists_run_sends (bound : Nat) (cloning : Bool) (steps : List Step) (call : Call)
    (times : Nat) (hid : id.place <
      (runSteps 1 { session := .start bound cloning } steps).session.world.sites.size) :
    let p := runSteps 1 { session := .start bound cloning } steps
    let r := runSends 1 { session := p.session } id call during 0 none (times + 1)
    ∃ (events : List (Event Body)) (i : Nat) (route : Route) (reply : Except Failure Outcome),
      r.2 = some reply ∧ (System.run events).world = r.1.session.world ∧
      (System.run events).sends[i]? = some ⟨id, call, .ended route reply⟩ := by
  obtain ⟨_, hsends, _, _, hsteps⟩ := simulation
  obtain ⟨τ, ⟨events, _, rfl⟩, hτ⟩ := hsteps 1 { session := .start bound cloning } steps _
    (Session.within_start bound cloning)
  obtain ⟨υ, ⟨later, _, rfl⟩, hυ, ⟨h, _⟩ | ⟨i, route, reply, hreply, hend⟩⟩ :=
    hsends 1 { session := (runSteps 1 { session := .start bound cloning } steps).session } id call
      during 0 none (times + 1) _ hτ hid
  · cases h
  · rw [← System.runFrom_append] at hυ hend
    exact ⟨.act (.addInvoker cloning) :: (events ++ later), i, route, reply, hreply, hυ.world, hend⟩

end
end InlineCache.Script
