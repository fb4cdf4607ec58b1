import Mathlib.Data.List.Induction
import InlineCache.Proofs.World.Growth

/-! What an event does to the sends. A send keeps its site and its call; its stage changes only with
an event of its own, so a send that waits is found as it was whatever happens meanwhile. -/
namespace InlineCache

variable {β : Type}

namespace World

theorem options_lookUp (w : World β) (s : SiteId) (call : Call) (route : Route) :
    ((w.lookUp s call route).1.site s).options = (w.site s).options :=
  Site.options_of_setup (setup_modifySite (fun _ => by rfl) w s s)

theorem options_walkSite (w : World β) (s : SiteId) (call : Call) :
    ((w.walkSite s call).site s).options = (w.site s).options :=
  Site.options_of_setup (setup_walkSite w s call s)

/-- The first lookup is made in the state that the send is in. -/
theorem pause_lookUp (w : World β) (s : SiteId) (call : Call) (route : Route) :
    (w.lookUp s call route).2 =
      .paused (.lookedUp route (w.registry.lookup (w.site s).options call)) := by
  rw [← options_lookUp w s call route]
  rfl

/-- A send that its chain does not serve waits with its first lookup. -/
theorem begin_of_not_served {w : World β} {s : SiteId} {call : Call}
    (h : ∀ target, w.verdict s call ≠ .served target) : ∃ route, (w.begin s call).2 =
      .paused (.lookedUp route (w.registry.lookup (w.site s).options call)) := by
  have hlook := fun route => pause_lookUp (w.walkSite s call) s call route
  rw [options_walkSite] at hlook
  rw [begin_eq]
  split
  · rename_i target hverdict
    exact absurd hverdict (h target)
  · exact ⟨.repair, hlook .repair⟩
  · exact ⟨.miss, hlook .miss⟩
  · exact ⟨.megamorphic, hlook .megamorphic⟩

theorem begin_of_served {w : World β} {s : SiteId} {call : Call} {target : Target β}
    (h : w.verdict s call = .served target) :
    (w.begin s call).2 = .landed ((w.walkSite s call).serve s call target).2 := by
  rw [begin_eq, h]

theorem begin_paused {w : World β} {s : SiteId} {call : Call} {pause : Pause β}
    (h : (w.begin s call).2 = .paused pause) : (∀ target, w.verdict s call ≠ .served target) ∧
      ∃ route, pause = .lookedUp route (w.registry.lookup (w.site s).options call) := by
  have hserved : ∀ target, w.verdict s call ≠ .served target := by
    intro target ht
    rw [begin_of_served ht] at h
    cases h
  obtain ⟨route, hroute⟩ := begin_of_not_served hserved
  rw [hroute, Flight.paused.injEq] at h
  exact ⟨hserved, route, h.symm⟩

theorem resume_paused {w : World β} {s : SiteId} {call : Call} {pause pause' : Pause β}
    (h : (w.resume s call pause).2 = .paused pause') : ∃ route lookup,
      pause = .lookedUp route lookup ∧ (w.site s).options.wantsHandler lookup = true ∧
      pause' = .lookedUpHandler route lookup (w.registry.lookupHandler call) := by
  cases pause with
  | lookedUp route lookup =>
    simp only [resume] at h
    split at h
    · rename_i hwants
      rw [Flight.paused.injEq] at h
      exact ⟨route, lookup, rfl, hwants, h.symm⟩
    · cases h
  | lookedUpHandler route lookup handler => cases h

theorem resume_of_wants {w : World β} {s : SiteId} {call : Call} {lookup : Lookup β} (route : Route)
    (h : (w.site s).options.wantsHandler lookup = true) :
    (w.resume s call (.lookedUp route lookup)).2 =
      .paused (.lookedUpHandler route lookup (w.registry.lookupHandler call)) := by
  simp only [resume, h, if_true]

theorem resume_landed {w : World β} {s : SiteId} {call : Call} {pause : Pause β}
    {landing : Landing β} (h : (w.resume s call pause).2 = .landed landing) :
    ∃ route, landing = (w.settle s call route pause.resolution).2 ∧
      ∀ lookup, pause = .lookedUp route lookup →
        (w.site s).options.wantsHandler lookup = false := by
  cases pause with
  | lookedUp route lookup =>
    simp only [resume] at h
    split at h
    · cases h
    · rename_i hwants
      refine ⟨route, (Flight.landed.inj h).symm, ?_⟩
      rintro lk hlk
      obtain ⟨_, rfl⟩ := Pause.lookedUp.inj hlk
      exact Bool.eq_false_iff.mpr hwants
  | lookedUpHandler route lookup handler =>
    refine ⟨route, (Flight.landed.inj h).symm, fun lk hlk => ?_⟩
    cases hlk

end World

namespace System

theorem sends_advance (σ : System β) (world : World β) (i : Nat) (stage : Stage β) (j : Nat) :
    (σ.advance world i stage).sends[j]? =
      if i = j then σ.sends[j]?.map fun q => { q with stage } else σ.sends[j]? :=
  Array.getElem?_modify

theorem step_begin {σ : System β} {s : SiteId} (hs : s.place < σ.world.sites.size) (call : Call) :
    σ.step (.begin s call) = ⟨(σ.world.begin s call).1,
      σ.sends.push ⟨s, call, .flying (σ.world.begin s call).2⟩⟩ := by
  rw [step, if_pos hs]

theorem step_resume {σ : System β} {i : Nat} {s : SiteId} {call : Call} {pause : Pause β}
    (h : σ.sends[i]? = some ⟨s, call, .flying (.paused pause)⟩) :
    σ.step (.resume i) = σ.advance (σ.world.resume s call pause).1 i
      (.flying (σ.world.resume s call pause).2) := by
  simp only [step, h]

/-- What an event does: it is idle, or something is done outside of any send, or a send begins, goes on
after a pause, or ends. -/
theorem step_cases (σ : System β) (e : Event β) :
    σ.step e = σ ∨
    (∃ a, e = .act a ∧ σ.step e = { σ with world := σ.world.act a }) ∨
    (∃ s call, e = .begin s call ∧ s.place < σ.world.sites.size ∧
      σ.step e = ⟨(σ.world.begin s call).1,
        σ.sends.push ⟨s, call, .flying (σ.world.begin s call).2⟩⟩) ∨
    (∃ i s call pause, e = .resume i ∧
      σ.sends[i]? = some ⟨s, call, .flying (.paused pause)⟩ ∧
      σ.step e = σ.advance (σ.world.resume s call pause).1 i
        (.flying (σ.world.resume s call pause).2)) ∨
    ∃ i result s call landing, e = .finish i result ∧
      σ.sends[i]? = some ⟨s, call, .flying (.landed landing)⟩ ∧
      σ.step e = σ.advance (σ.world.finish s landing.route) i
        (.ended landing.route (landing.reply result)) := by
  cases e with
  | act a => exact .inr (.inl ⟨a, rfl, rfl⟩)
  | begin s call =>
    by_cases hs : s.place < σ.world.sites.size
    · exact .inr (.inr (.inl ⟨s, call, rfl, hs, step_begin hs call⟩))
    · exact .inl (by rw [step, if_neg hs])
  | resume i =>
    by_cases hi : ∃ s call pause, σ.sends[i]? = some ⟨s, call, .flying (.paused pause)⟩
    · obtain ⟨s, call, pause, hi⟩ := hi
      exact .inr (.inr (.inr (.inl ⟨i, s, call, pause, rfl, hi, step_resume hi⟩)))
    · refine .inl ?_
      simp only [step]
      split
      · rename_i s call pause hpause
        exact absurd ⟨s, call, pause, hpause⟩ hi
      · rfl
  | finish i result =>
    by_cases hi : ∃ s call landing, σ.sends[i]? = some ⟨s, call, .flying (.landed landing)⟩
    · obtain ⟨s, call, landing, hi⟩ := hi
      exact .inr (.inr (.inr (.inr ⟨i, result, s, call, landing, rfl, hi, step_finish hi result⟩)))
    · refine .inl ?_
      simp only [step]
      split
      · rename_i s call landing hland
        exact absurd ⟨s, call, landing, hland⟩ hi
      · rfl

/-- Where a send stands after an event: where it stood before, or at the place that its beginning or
the end of its pause brought it to, or at its end. -/
theorem sends_step {σ : System β} {e : Event β} {j : Nat} {s : SiteId} {call : Call}
    {stage : Stage β} (h : (σ.step e).sends[j]? = some ⟨s, call, stage⟩) :
    σ.sends[j]? = some ⟨s, call, stage⟩ ∨
    (e = .begin s call ∧ s.place < σ.world.sites.size ∧ j = σ.sends.size ∧
      stage = .flying (σ.world.begin s call).2) ∨
    (∃ pause, e = .resume j ∧ σ.sends[j]? = some ⟨s, call, .flying (.paused pause)⟩ ∧
      stage = .flying (σ.world.resume s call pause).2) ∨
    ∃ result landing, e = .finish j result ∧
      σ.sends[j]? = some ⟨s, call, .flying (.landed landing)⟩ ∧
      stage = .ended landing.route (landing.reply result) := by
  cases e with
  | act a => exact .inl h
  | begin t other =>
    by_cases ht : t.place < σ.world.sites.size
    · rw [step_begin ht, Array.getElem?_push] at h
      split at h
      · rename_i hj
        rw [Option.some.injEq, Sending.mk.injEq] at h
        obtain ⟨rfl, rfl, rfl⟩ := h
        exact .inr (.inl ⟨rfl, ht, hj, rfl⟩)
      · exact .inl h
    · rw [step, if_neg ht] at h
      exact .inl h
  | resume i =>
    simp only [step] at h
    split at h
    · rename_i site call pause hsend
      rw [sends_advance] at h
      split at h
      · rename_i hij
        subst hij
        rw [hsend, Option.map_some, Option.some.injEq, Sending.mk.injEq] at h
        obtain ⟨rfl, rfl, rfl⟩ := h
        exact .inr (.inr (.inl ⟨pause, rfl, hsend, rfl⟩))
      · exact .inl h
    · exact .inl h
  | finish i result =>
    by_cases hland : ∃ site call landing, σ.sends[i]? = some ⟨site, call, .flying (.landed landing)⟩
    · obtain ⟨site, other, landing, hi⟩ := hland
      rw [step_finish hi result, sends_advance] at h
      split at h
      · rename_i hij
        subst hij
        rw [hi, Option.map_some, Option.some.injEq, Sending.mk.injEq] at h
        obtain ⟨rfl, rfl, rfl⟩ := h
        exact .inr (.inr (.inr ⟨result, landing, rfl, hi, rfl⟩))
      · exact .inl h
    · simp only [step] at h
      split at h
      · rename_i site other landing hi
        exact absurd ⟨site, other, landing, hi⟩ hland
      · exact .inl h

/-- Sends are never taken away. -/
theorem size_sends_step (σ : System β) (e : Event β) : σ.sends.size ≤ (σ.step e).sends.size := by
  cases e with
  | act a => exact Nat.le_refl _
  | begin s call =>
    simp only [step]
    split
    · rw [Array.size_push]
      exact Nat.le_succ _
    · exact Nat.le_refl _
  | resume i =>
    simp only [step]
    split
    · exact Nat.le_of_eq Array.size_modify.symm
    · exact Nat.le_refl _
  | finish i result =>
    simp only [step]
    split
    · split <;> exact Nat.le_of_eq Array.size_modify.symm
    · exact Nat.le_refl _

theorem size_sends_runFrom (σ : System β) (events : List (Event β)) :
    σ.sends.size ≤ (σ.runFrom events).sends.size := by
  induction events generalizing σ with
  | nil => exact Nat.le_refl _
  | cons e rest ih => exact Nat.le_trans (size_sends_step σ e) (ih (σ.step e))

/-- A send stays as it is with every event that is neither its resumption nor its end. -/
theorem sends_of_others {σ : System β} {e : Event β} {i : Nat} (hi : i < σ.sends.size)
    (hr : e ≠ .resume i) (hf : ∀ result, e ≠ .finish i result) :
    (σ.step e).sends[i]? = σ.sends[i]? := by
  cases e with
  | act a => rfl
  | begin t other =>
    by_cases ht : t.place < σ.world.sites.size
    · rw [step_begin ht, Array.getElem?_push, if_neg (Nat.ne_of_lt hi)]
    · rw [step, if_neg ht]
  | resume j =>
    have hne : j ≠ i := fun hj => hr (congrArg Event.resume hj)
    simp only [step]
    split
    · rw [sends_advance, if_neg hne]
    · rfl
  | finish j result =>
    have hne : j ≠ i := fun hj => hf result (congrArg (Event.finish · result) hj)
    simp only [step]
    split
    · split <;> rw [sends_advance, if_neg hne]
    · rfl

/-- A send that waits goes on waiting until it is resumed. -/
theorem paused_step {σ : System β} {e : Event β} {i : Nat} {s : SiteId} {call : Call}
    {pause : Pause β} (h : σ.sends[i]? = some ⟨s, call, .flying (.paused pause)⟩)
    (he : e ≠ .resume i) :
    (σ.step e).sends[i]? = some ⟨s, call, .flying (.paused pause)⟩ := by
  obtain ⟨hi, _⟩ := Array.getElem?_eq_some_iff.mp h
  by_cases hf : ∃ result, e = .finish i result
  · obtain ⟨result, rfl⟩ := hf
    simp only [step, h]
  · rw [sends_of_others hi he fun result hr => hf ⟨result, hr⟩, h]

theorem paused_runFrom {σ : System β} {events : List (Event β)} {i : Nat} {s : SiteId}
    {call : Call} {pause : Pause β} (h : σ.sends[i]? = some ⟨s, call, .flying (.paused pause)⟩)
    (he : .resume i ∉ events) :
    (σ.runFrom events).sends[i]? = some ⟨s, call, .flying (.paused pause)⟩ := by
  induction events generalizing σ with
  | nil => exact h
  | cons e rest ih =>
    rw [List.mem_cons, not_or] at he
    exact ih (paused_step h (Ne.symm he.1)) he.2

/-- A send whose decision is made stays as it is until its end is reported. -/
theorem landed_step {σ : System β} {e : Event β} {i : Nat} {s : SiteId} {call : Call}
    {landing : Landing β} (h : σ.sends[i]? = some ⟨s, call, .flying (.landed landing)⟩)
    (he : ∀ result, e ≠ .finish i result) :
    (σ.step e).sends[i]? = some ⟨s, call, .flying (.landed landing)⟩ := by
  obtain ⟨hi, _⟩ := Array.getElem?_eq_some_iff.mp h
  by_cases hr : e = .resume i
  · subst hr
    simp only [step, h]
  · rw [sends_of_others hi hr he, h]

theorem landed_runFrom {σ : System β} {events : List (Event β)} {i : Nat} {s : SiteId}
    {call : Call} {landing : Landing β}
    (h : σ.sends[i]? = some ⟨s, call, .flying (.landed landing)⟩)
    (he : ∀ result, .finish i result ∉ events) :
    (σ.runFrom events).sends[i]? = some ⟨s, call, .flying (.landed landing)⟩ := by
  induction events generalizing σ with
  | nil => exact h
  | cons e rest ih =>
    refine ih (landed_step h fun result hr => ?_) fun result hr => ?_
    · exact he result (hr ▸ List.mem_cons_self)
    · exact he result (List.mem_cons_of_mem e hr)

/-- Whatever happens while a send waits, what it looked up first stays what it was, and it stays the
same send. -/
theorem lookup_runFrom {σ : System β} {i : Nat} {s s' : SiteId} {call call' : Call}
    {pause pause' : Pause β} (h : σ.sends[i]? = some ⟨s, call, .flying (.paused pause)⟩)
    (events : List (Event β))
    (h' : (σ.runFrom events).sends[i]? = some ⟨s', call', .flying (.paused pause')⟩) :
    s' = s ∧ call' = call ∧ pause'.resolution.lookup = pause.resolution.lookup := by
  induction events using List.reverseRecOn generalizing pause' with
  | nil =>
    rw [runFrom_nil, h, Option.some.injEq, Sending.mk.injEq, Stage.flying.injEq,
      Flight.paused.injEq] at h'
    obtain ⟨rfl, rfl, rfl⟩ := h'
    exact ⟨rfl, rfl, rfl⟩
  | append_singleton es e ih =>
    rw [runFrom_append] at h'
    obtain hsame | ⟨_, _, hi, _⟩ | ⟨earlier, _, hbefore, hstage⟩ | ⟨_, _, _, _, hstage⟩ :=
      sends_step h'
    · exact ih hsame
    · obtain ⟨hlt, _⟩ := Array.getElem?_eq_some_iff.mp h
      exact absurd (Nat.lt_of_lt_of_le hlt (size_sends_runFrom σ es)) (hi ▸ Nat.lt_irrefl _)
    · obtain ⟨hs, hcall, hlookup⟩ := ih hbefore
      rw [Stage.flying.injEq] at hstage
      obtain ⟨route, lookup, rfl, _, rfl⟩ := World.resume_paused hstage.symm
      exact ⟨hs, hcall, hlookup⟩
    · cases hstage

/-- A send that is over came to its end by an event of its own, in the state in which its decision was
made. -/
theorem ended_run {events : List (Event β)} {i : Nat} {s : SiteId} {call : Call} {route : Route}
    {reply : Except Failure Outcome}
    (h : (run events).sends[i]? = some ⟨s, call, .ended route reply⟩) :
    ∃ before result after landing, events = before ++ .finish i result :: after ∧
      (run before).sends[i]? = some ⟨s, call, .flying (.landed landing)⟩ ∧
      route = landing.route ∧ reply = landing.reply result := by
  induction events using List.reverseRecOn with
  | nil => exact absurd h (by simp [run])
  | append_singleton es e ih =>
    rw [run_append] at h
    obtain hsame | ⟨_, _, _, hstage⟩ | ⟨_, _, _, hstage⟩ | ⟨result, landing, rfl, hi, hstage⟩ :=
      sends_step h
    · obtain ⟨before, result, after, landing, rfl, hrest⟩ := ih hsame
      exact ⟨before, result, after ++ [e], landing, by simp, hrest⟩
    · cases hstage
    · cases hstage
    · obtain ⟨hroute, hreply⟩ := Stage.ended.inj hstage
      exact ⟨es, result, [], landing, rfl, hi, hroute, hreply⟩

/-- Every send was begun on a site that was there. -/
theorem inside_run {events : List (Event β)} {i : Nat} {s : SiteId} {call : Call} {stage : Stage β}
    (h : (run events).sends[i]? = some ⟨s, call, stage⟩) :
    s.place < (run events).world.sites.size := by
  induction events using List.reverseRecOn generalizing stage with
  | nil => exact absurd h (by simp [run])
  | append_singleton es e ih =>
    rw [run_append] at h ⊢
    refine Nat.lt_of_lt_of_le ?_ (grown_step (run es) e).sites
    obtain hsame | ⟨_, hs, _, _⟩ | ⟨_, _, hbefore, _⟩ | ⟨_, _, _, hbefore, _⟩ := sends_step h
    · exact ih hsame
    · exact hs
    · exact ih hbefore
    · exact ih hbefore

end System
end InlineCache
