import InlineCache.Proofs.Cache.Fitness
import InlineCache.Proofs.Throughout
import InlineCache.Proofs.World.Invokers

/-! The method bodies of a run. A send has a body run at most once, on whatever way it goes and whatever
happens around it: at the moment its decision is to run one. That body's result is its reply, and
where there is none the site replies by itself. -/
namespace InlineCache

variable {β : Type}

namespace System

/-- All method bodies that sends come to in the course of events. -/
def invocations (σ : System β) : List (Event β) → List (Invocation β)
  | [] => []
  | e :: rest => (σ.invocation? e).toList ++ (σ.step e).invocations rest

/-- The method bodies that one send comes to in the course of events. -/
def bodies (σ : System β) (i : Nat) (events : List (Event β)) : List (Activation β) :=
  ((σ.invocations events).filter fun v => v.send == i).map Invocation.activation

theorem invocations_append (σ : System β) (es fs : List (Event β)) :
    σ.invocations (es ++ fs) = σ.invocations es ++ (σ.runFrom es).invocations fs := by
  induction es generalizing σ with
  | nil => rfl
  | cons e rest ih =>
    rw [List.cons_append, invocations, invocations, ih, List.append_assoc, runFrom_cons]

theorem bodies_append (σ : System β) (i : Nat) (es fs : List (Event β)) :
    σ.bodies i (es ++ fs) = σ.bodies i es ++ (σ.runFrom es).bodies i fs := by
  rw [bodies, invocations_append, List.filter_append, List.map_append]
  rfl

theorem mem_bodies_singleton {σ : System β} {i : Nat} {e : Event β} {a : Activation β} :
    a ∈ σ.bodies i [e] ↔ ∃ v ∈ σ.invocation? e, v.send = i ∧ v.activation = a := by
  simp [bodies, invocations, and_assoc]

/-- A send comes to a body where it begins, or where it goes on after a pause. -/
theorem mem_bodies_step {σ : System β} {i : Nat} {e : Event β} {a : Activation β}
    (h : a ∈ σ.bodies i [e]) :
    (σ.sends[i]? = none ∨ ∃ s call pause, σ.sends[i]? = some ⟨s, call, .flying (.paused pause)⟩) ∧
      ∃ s call flight, (σ.step e).sends[i]? = some ⟨s, call, .flying flight⟩ ∧
        flight.activation? = some a := by
  obtain ⟨v, hv, rfl, rfl⟩ := mem_bodies_singleton.mp h
  cases e with
  | begin s call =>
    by_cases hs : s.place < σ.world.sites.size
    · simp only [invocation?, if_pos hs] at hv
      obtain ⟨a, ha, rfl⟩ := Option.map_eq_some_iff.mp hv
      refine ⟨.inl (Array.getElem?_eq_none (Nat.le_refl _)), s, call, _, ?_, ha⟩
      rw [step_begin hs, Array.getElem?_push_size]
    · simp [invocation?, if_neg hs] at hv
  | resume i =>
    simp only [invocation?] at hv
    split at hv
    · rename_i s call pause hi
      obtain ⟨a, ha, rfl⟩ := Option.map_eq_some_iff.mp hv
      refine ⟨.inr ⟨s, call, pause, hi⟩, s, call, _, ?_, ha⟩
      rw [step_resume hi, sends_advance, if_pos rfl, hi, Option.map_some]
    · cases hv
  | act a => cases hv
  | finish i result => cases hv

/-- A send that an event leaves where it is comes to no body with it. -/
theorem bodies_of_same {σ : System β} {i : Nat} {e : Event β} {q : Sending β}
    (h : σ.sends[i]? = some q) (h' : (σ.step e).sends[i]? = some q) : σ.bodies i [e] = [] := by
  refine List.eq_nil_iff_forall_not_mem.mpr fun a ha => ?_
  obtain ⟨hbefore, s, call, flight, hafter, hflight⟩ := mem_bodies_step ha
  obtain rfl := Option.some.inj (hafter.symm.trans h')
  obtain hnone | ⟨_, _, pause, hpause⟩ := hbefore
  · cases hnone.symm.trans h
  · obtain ⟨_, _, hstage⟩ := Sending.mk.inj (Option.some.inj (h.symm.trans hpause))
    obtain rfl := Stage.flying.inj hstage
    cases hflight

theorem bodies_begin {σ : System β} {s : SiteId} {call : Call} (hs : s.place < σ.world.sites.size) :
    σ.bodies σ.sends.size [.begin s call] = (σ.world.begin s call).2.activation?.toList := by
  simp only [bodies, invocations, invocation?, if_pos hs]
  cases (σ.world.begin s call).2.activation? <;> simp

theorem bodies_resume {σ : System β} {i : Nat} {s : SiteId} {call : Call} {pause : Pause β}
    (hi : σ.sends[i]? = some ⟨s, call, .flying (.paused pause)⟩) :
    σ.bodies i [.resume i] = (σ.world.resume s call pause).2.activation?.toList := by
  simp only [bodies, invocations, invocation?, hi]
  cases (σ.world.resume s call pause).2.activation? <;> simp

/-- What a run tells of the bodies of a send: none before the send, one as soon as the send has come to
it, and no other until it is over. -/
structure Tally (events : List (Event β)) (i : Nat) : Prop where
  unborn : (run events).sends.size ≤ i → bodies {} i events = []
  flying : ∀ s call flight, (run events).sends[i]? = some ⟨s, call, .flying flight⟩ →
    bodies {} i events = flight.activation?.toList
  ended : ∀ s call route reply, (run events).sends[i]? = some ⟨s, call, .ended route reply⟩ →
    ∃ before result after landing, events = before ++ .finish i result :: after ∧
      (run before).sends[i]? = some ⟨s, call, .flying (.landed landing)⟩ ∧
      route = landing.route ∧ reply = landing.reply result ∧
      bodies {} i events = landing.activation?.toList

theorem tally_run (events : List (Event β)) (i : Nat) : Tally events i := by
  induction events using List.reverseRecOn with
  | nil => exact ⟨fun _ => rfl, fun _ _ _ h => absurd h (by simp [run]),
      fun _ _ _ _ h => absurd h (by simp [run])⟩
  | append_singleton es e ih =>
    have hrun : run (es ++ [e]) = (run es).step e := run_append es [e]
    have happend : bodies {} i (es ++ [e]) = bodies {} i es ++ (run es).bodies i [e] :=
      bodies_append {} i es [e]
    refine ⟨fun hi => ?_, fun s call flight hi => ?_, fun s call route reply hi => ?_⟩
    · rw [hrun] at hi
      rw [happend, ih.unborn (Nat.le_trans (size_sends_step _ e) hi), List.nil_append]
      refine List.eq_nil_iff_forall_not_mem.mpr fun a ha => ?_
      obtain ⟨_, _, _, _, hafter, _⟩ := mem_bodies_step ha
      obtain ⟨hlt, _⟩ := Array.getElem?_eq_some_iff.mp hafter
      exact absurd hlt (Nat.not_lt_of_le hi)
    · rw [hrun] at hi
      obtain hsame | ⟨rfl, hs, rfl, hstage⟩ | ⟨pause, rfl, hbefore, hstage⟩ | ⟨_, _, _, _, hstage⟩ :=
        sends_step hi
      · rw [happend, bodies_of_same hsame hi, List.append_nil]
        exact ih.flying s call flight hsame
      · rw [happend, ih.unborn (Nat.le_refl _), bodies_begin hs, Stage.flying.inj hstage]
        rfl
      · rw [happend, ih.flying s call _ hbefore, bodies_resume hbefore, Stage.flying.inj hstage]
        rfl
      · cases hstage
    · rw [hrun] at hi
      obtain hsame | ⟨_, _, _, hstage⟩ | ⟨_, _, _, hstage⟩ | ⟨result, landing, rfl, hbefore, hstage⟩ :=
        sends_step hi
      · obtain ⟨before, result, after, landing, rfl, hland, hroute, hreply, hbodies⟩ :=
          ih.ended s call route reply hsame
        refine ⟨before, result, after ++ [e], landing, by simp, hland, hroute, hreply, ?_⟩
        rw [happend, bodies_of_same hsame hi, List.append_nil, hbodies]
      · cases hstage
      · cases hstage
      · obtain ⟨hroute, hreply⟩ := Stage.ended.inj hstage
        refine ⟨es, result, [], landing, rfl, hbefore, hroute, hreply, ?_⟩
        rw [happend, ih.flying s call _ hbefore]
        exact List.append_nil _

/-- As often as its sends come to a body, an invoker counts one. -/
theorem invocations_runFrom {σ : System β} {j : Nat} (hj : j < σ.world.invokers.size)
    {events : List (Event β)} (h : .act (.countInvocation j) ∉ events) :
    ((σ.runFrom events).world.invoker j).invocations = (σ.world.invoker j).invocations +
      ((σ.invocations events).filter fun v => v.invoker == j).length := by
  induction events generalizing σ with
  | nil => rfl
  | cons e rest ih =>
    rw [List.mem_cons, not_or] at h
    have hcalls : σ.calls j e = ((σ.invocation? e).toList.filter fun v => v.invoker == j).length := by
      cases e with
      | act a =>
        cases a with
        | countInvocation i =>
          have hi : i ≠ j := fun hij => h.1 (hij ▸ rfl)
          simp [calls, Act.calls, invocation?, hi]
        | _ => rfl
      | _ => rfl
    rw [runFrom_cons, ih (Nat.lt_of_lt_of_le hj (grown_step σ e).invokers) h.2,
      (uses_step hj e).invocations, hcalls, invocations, List.filter_append, List.length_append,
      Nat.add_assoc]

end System

section Probing

variable {w : World β} {s : SiteId}

theorem Resolution.decide_of_probe {o : SiteOptions} (h : o.action = .probe) (res : Resolution β)
    (call : Call) (className : String) :
    res.decide o call className = .responds res.lookup.method.isSome := by
  rw [decide, h]

namespace World

theorem activation_serve_of_probe (h : (w.site s).options.action = .probe) (call : Call)
    (target : Target β) : (w.serve s call target).2.activation? = none := by
  unfold serve
  rw [h]
  cases target <;> rfl

theorem activation_begin_of_probe (h : (w.site s).options.action = .probe) (call : Call) :
    (w.begin s call).2.activation? = none := by
  rw [← options_walkSite w s call] at h
  rw [begin_eq]
  cases w.verdict s call with
  | served target => exact activation_serve_of_probe h call target
  | _ => rfl

theorem activation_settle_of_probe (h : (w.site s).options.action = .probe) (call : Call)
    (route : Route) (res : Resolution β) :
    (w.settle s call route res).2.activation? = none := by
  have hcarries := carries_settle w s call route res
  rw [res.decide_of_probe h] at hcarries
  generalize (w.settle s call route res).2 = landing at hcarries
  cases hcarries
  rfl

theorem activation_resume_of_probe (h : (w.site s).options.action = .probe) (call : Call)
    (pause : Pause β) : (w.resume s call pause).2.activation? = none := by
  cases hf : (w.resume s call pause).2 with
  | paused pause' => rfl
  | landed landing =>
    obtain ⟨route, rfl, _⟩ := resume_landed hf
    exact activation_settle_of_probe h call route _

theorem copies_of_probe (h : (w.site s).options.action = .probe) (j : Nat) (call : Call)
    (res : Resolution β) : w.copies s j call res = 0 := by
  refine if_neg fun ⟨_, _, hany⟩ => ?_
  cases hb : w.built? s res with
  | none => simp [hb] at hany
  | some b =>
    rw [hb, Option.any_some] at hany
    have hfits := fits_of_built hb
    generalize b.target = target at hfits hany
    cases hfits with
    | direct action => cases action.symm.trans h
    | handler action missing => cases action.symm.trans h
    | probe action => cases hany

/-- Whether an invoker runs the methods that the sends on a site find. -/
def callsFor (w : World β) (j : Nat) (s : SiteId) : Bool :=
  (w.site s).invoker == j && (w.site s).options.action == .invoke

theorem callsFor_eq_false {j : Nat} : w.callsFor j s = false ↔
    (w.site s).invoker ≠ j ∨ (w.site s).options.action = .probe := by
  cases h : (w.site s).options.action <;> simp [callsFor, h]

theorem runs_of_not_callsFor {j : Nat} (h : w.callsFor j s = false)
    {activation? : Option (Activation β)}
    (hprobe : (w.site s).options.action = .probe → activation? = none) :
    w.runs s j activation? = 0 := by
  obtain hne | haction := callsFor_eq_false.mp h
  · exact if_neg fun hrun => hne hrun.1
  · rw [hprobe haction, runs_none]

theorem copies_of_not_callsFor {j : Nat} (h : w.callsFor j s = false) (call : Call)
    (res : Resolution β) : w.copies s j call res = 0 := by
  obtain hne | haction := callsFor_eq_false.mp h
  · exact if_neg fun hcopy => hne hcopy.1
  · exact copies_of_probe haction j call res

end World
end Probing

namespace System

/-- Whether an event is nothing to an invoker but for probing sites: it is not told anything outside of a
send, and no send on a site that it runs methods for begins or goes on after a pause. -/
def onlyProbes (σ : System β) (j : Nat) : Event β → Bool
  | .act (.countInvocation i) | .act (.prepare i _) => i != j
  | .begin s _ => !(decide (s.place < σ.world.sites.size) && σ.world.callsFor j s)
  | .resume i => !(σ.sends[i]?.any fun q => σ.world.callsFor j q.site)
  | .act _ | .finish _ _ => true

/-- An invoker is used by sends on probing sites alone. -/
def OnlyProbes (σ : System β) (j : Nat) (events : List (Event β)) : Prop :=
  Throughout step (fun σ e => σ.onlyProbes j e = true) σ events

instance (σ : System β) (j : Nat) (events : List (Event β)) : Decidable (σ.OnlyProbes j events) :=
  inferInstanceAs (Decidable (Throughout ..))

theorem unused_of_onlyProbes {σ : System β} {j : Nat} {e : Event β} (h : σ.onlyProbes j e = true) :
    σ.calls j e = 0 ∧ σ.copies j e = 0 := by
  cases e with
  | act a =>
    cases a with
    | countInvocation i => exact ⟨if_neg (bne_iff_ne.mp h), rfl⟩
    | prepare i m => exact ⟨rfl, if_neg fun hi => bne_iff_ne.mp h hi.1⟩
    | _ => exact ⟨rfl, rfl⟩
  | begin s call =>
    refine ⟨?_, rfl⟩
    simp only [calls, invocation?]
    split
    · rename_i hs
      simp only [onlyProbes, hs, decide_true, Bool.true_and, Bool.not_eq_true'] at h
      rw [← runs_eq]
      exact World.runs_of_not_callsFor h fun hp => World.activation_begin_of_probe hp call
    · rfl
  | resume i =>
    simp only [onlyProbes] at h
    simp only [calls, invocation?, copies]
    cases hi : σ.sends[i]? with
    | none => exact ⟨rfl, rfl⟩
    | some send =>
      rw [hi] at h
      obtain ⟨s, call, stage⟩ := send
      cases stage with
      | ended route reply => exact ⟨rfl, rfl⟩
      | flying flight =>
        cases flight with
        | landed landing => exact ⟨rfl, rfl⟩
        | paused pause =>
          rw [Option.any_some, Bool.not_eq_true'] at h
          simp only [← runs_eq, World.copies_of_not_callsFor h, ite_self, and_true]
          exact World.runs_of_not_callsFor h fun hp => World.activation_resume_of_probe hp call pause
  | finish i result => exact ⟨rfl, rfl⟩

/-- Probing alone never moves the counters of an invoker. -/
theorem unused_runFrom {σ : System β} {j : Nat} (hj : j < σ.world.invokers.size)
    {events : List (Event β)} (h : σ.OnlyProbes j events) :
    σ.world.Uses (σ.runFrom events).world j 0 0 := by
  induction events generalizing σ with
  | nil => exact .of_same rfl
  | cons e rest ih =>
    obtain ⟨hcalls, hcopies⟩ := unused_of_onlyProbes h.1
    have hstep := (uses_step hj e).congr hcalls hcopies
    exact hstep.trans (ih (Nat.lt_of_lt_of_le hj (grown_step σ e).invokers) h.2)

/-- Under every interleaving and on whatever way a send goes: a send that is over had one body run, for
its own call, and its reply is what the end of that body reported, or it had none run and the reply
is the site's own; a send under way has had one run exactly if it has come to it. An invoker counts
just these, and probing sends alone leave both its counters as they are. -/
theorem invoked_exactly_once (events : List (Event β)) :
    (∀ (i : Nat) (s : SiteId) (call : Call) (route : Route) (reply : Except Failure Outcome),
      (run events).sends[i]? = some ⟨s, call, .ended route reply⟩ →
      (∃ a before result after, bodies {} i events = [a] ∧ a.Answers call ∧
        events = before ++ .finish i result :: after ∧
        (run before).sends[i]? = some ⟨s, call, .flying (.landed (.running route a))⟩ ∧
        reply = result.map .returned) ∨
      (bodies {} i events = [] ∧ call.OwnReply reply)) ∧
    (∀ (i : Nat) (s : SiteId) (call : Call) (flight : Flight β),
      (run events).sends[i]? = some ⟨s, call, .flying flight⟩ →
      bodies {} i events = flight.activation?.toList ∧
        ∀ a ∈ flight.activation?, a.Answers call) ∧
    ∀ (j : Nat) (later : List (Event β)), j < (run events).world.invokers.size →
      (.act (.countInvocation j) ∉ later →
        ((run (events ++ later)).world.invoker j).invocations =
          ((run events).world.invoker j).invocations +
            (((run events).invocations later).filter fun v => v.invoker == j).length) ∧
      ((run events).OnlyProbes j later →
        ((run (events ++ later)).world.invoker j).invocations =
            ((run events).world.invoker j).invocations ∧
          ((run (events ++ later)).world.invoker j).clones =
            ((run events).world.invoker j).clones) := by
  refine ⟨fun i s call route reply hi => ?_, fun i s call flight hi => ?_, fun j later hj => ?_⟩
  · obtain ⟨before, result, after, landing, hevents, hland, rfl, rfl, hbodies⟩ :=
      (tally_run events i).ended s call route reply hi
    have hdecided := (decided_run before).landings i s call landing hland
    cases landing with
    | running route a =>
      exact .inl ⟨a, before, result, after, hbodies, hdecided.answers, hevents, hland, rfl⟩
    | finished route reply => exact .inr ⟨hbodies, hdecided.own⟩
  · refine ⟨(tally_run events i).flying s call flight hi, fun a ha => ?_⟩
    cases flight with
    | paused pause => cases ha
    | landed landing =>
      have hdecided := (decided_run events).landings i s call landing hi
      cases landing with
      | running route body =>
        obtain rfl := Option.some.inj ha
        exact hdecided.answers
      | finished route reply => cases ha
  · rw [run_append]
    refine ⟨fun h => invocations_runFrom hj h, fun h => ?_⟩
    have hunused := unused_runFrom hj h
    exact ⟨hunused.invocations, hunused.clones⟩

/-- A send that missed and is over, one that hit and is under way, and one that only probes. -/
theorem invoked_exactly_once_warmSite :
    let call : Call := { name := "m", receiver := .bool true }
    let events : List (Event Unit) := warmSite ++ [.finish 0 (.ok .nil),
      .act (.addSite "m" .probing 8 0), .begin ⟨0⟩ call]
    let later : List (Event Unit) := [.begin ⟨1⟩ call, .resume 2, .finish 2 (.ok .nil)]
    (∃ a, bodies {} 0 events = [a] ∧ a.Answers call) ∧
    (∃ a, bodies {} 1 events = [a] ∧ a.Answers call) ∧
    (((run events).invocations later).filter fun v => v.invoker == 0).length = 0 ∧
    ((run (events ++ later)).world.invoker 0).clones = ((run events).world.invoker 0).clones := by
  intro call events later
  have hended : (run events).sends[0]? =
      some ⟨⟨0⟩, call, .ended .miss (.ok (.returned .nil))⟩ := by with_unfolding_all rfl
  have hflying : ∃ a, (run events).sends[1]? =
      some ⟨⟨0⟩, call, .flying (.landed (.running .hit a))⟩ := ⟨_, by with_unfolding_all rfl⟩
  have hj : 0 < (run events).world.invokers.size := by decide +kernel
  have hprobes : (run events).OnlyProbes 0 later := by decide +kernel
  have hnone : .act (.countInvocation 0) ∉ later := by simp [later]
  obtain ⟨hover, hunder, hcounts⟩ := invoked_exactly_once events
  refine ⟨?_, ?_, ?_, ((hcounts 0 later hj).2 hprobes).2⟩
  · obtain ⟨a, _, _, _, hbodies, hanswers, _⟩ | ⟨_, hown⟩ := hover 0 _ _ _ _ hended
    · exact ⟨a, hbodies, hanswers⟩
    · cases hown
  · obtain ⟨a, ha⟩ := hflying
    obtain ⟨hbodies, hanswers⟩ := hunder 1 _ _ _ ha
    exact ⟨a, hbodies, hanswers a rfl⟩
  · have hsame := ((hcounts 0 later hj).2 hprobes).1
    rw [(hcounts 0 later hj).1 hnone] at hsame
    exact Nat.add_eq_left.mp hsame

end System
end InlineCache
