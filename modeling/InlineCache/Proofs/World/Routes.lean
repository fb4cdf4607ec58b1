import InlineCache.Proofs.World.Sends

/-! The way that a send takes through its site. It is settled when the send begins and stays with it,
and it alone says how the send is counted: a hit when it is over, any other way when it begins. -/
namespace InlineCache

variable {β : Type}

/-- The way of a send, at whatever stage it is. -/
def Stage.route : Stage β → Route
  | flying (.paused pause) => pause.route
  | flying (.landed landing) => landing.route
  | ended route _ => route

namespace World

theorem route_serve (w : World β) (s : SiteId) (call : Call) (target : Target β) :
    (w.serve s call target).2.route = .hit := by
  unfold serve
  split <;> rfl

theorem route_begin (w : World β) (s : SiteId) (call : Call) :
    (Stage.flying (w.begin s call).2).route = w.route s call := by
  rw [begin_eq, route]
  cases w.verdict s call with
  | served target => exact route_serve _ s call target
  | _ => rfl

/-- A send that waits was not served. -/
theorem route_ne_hit_of_paused {w : World β} {s : SiteId} {call : Call} {pause : Pause β}
    (h : (w.begin s call).2 = .paused pause) : w.route s call ≠ .hit := by
  have hserved := (begin_paused h).1
  rw [route]
  cases hv : w.verdict s call with
  | served target => exact absurd hv (hserved target)
  | _ => simp [Verdict.route]

theorem route_settle (w : World β) (s : SiteId) (call : Call) (route : Route) (res : Resolution β) :
    (w.settle s call route res).2.route = route := by
  rw [settle, carryOut.eq_def]
  split <;> rfl

theorem route_resume (w : World β) (s : SiteId) (call : Call) (pause : Pause β) :
    (Stage.flying (w.resume s call pause).2).route = pause.route := by
  cases pause with
  | lookedUp route lookup =>
    simp only [resume]
    split
    · rfl
    · exact route_settle w s call route _
  | lookedUpHandler route lookup handler => exact route_settle w s call route _

end World

namespace System

/-- With every event a send stays the same send on the same way. -/
theorem route_step {σ : System β} {i : Nat} {s : SiteId} {call : Call} {stage : Stage β}
    (h : σ.sends[i]? = some ⟨s, call, stage⟩) (e : Event β) :
    ∃ stage', (σ.step e).sends[i]? = some ⟨s, call, stage'⟩ ∧ stage'.route = stage.route := by
  obtain ⟨hi, _⟩ := Array.getElem?_eq_some_iff.mp h
  match stage, h with
  | .flying (.paused pause), h =>
    by_cases he : e = .resume i
    · subst he
      refine ⟨_, ?_, World.route_resume σ.world s call pause⟩
      rw [step_resume h, sends_advance, if_pos rfl, h, Option.map_some]
    · exact ⟨_, paused_step h he, rfl⟩
  | .flying (.landed landing), h =>
    by_cases he : ∃ result, e = .finish i result
    · obtain ⟨result, rfl⟩ := he
      refine ⟨.ended landing.route (landing.reply result), ?_, rfl⟩
      rw [step_finish h result, sends_advance, if_pos rfl, h, Option.map_some]
    · exact ⟨_, landed_step h fun result hr => he ⟨result, hr⟩, rfl⟩
  | .ended route reply, h =>
    refine ⟨.ended route reply, ?_, rfl⟩
    by_cases hr : e = .resume i
    · subst hr
      simp only [step, h]
    · by_cases hf : ∃ result, e = .finish i result
      · obtain ⟨result, rfl⟩ := hf
        simp only [step, h]
      · rw [sends_of_others hi hr fun result hq => hf ⟨result, hq⟩, h]

theorem route_runFrom {σ : System β} {i : Nat} {s : SiteId} {call : Call} {stage : Stage β}
    (h : σ.sends[i]? = some ⟨s, call, stage⟩) (events : List (Event β)) :
    ∃ stage', (σ.runFrom events).sends[i]? = some ⟨s, call, stage'⟩ ∧
      stage'.route = stage.route := by
  induction events generalizing σ stage with
  | nil => exact ⟨stage, h, rfl⟩
  | cons e rest ih =>
    obtain ⟨stage', h', hroute⟩ := route_step h e
    obtain ⟨last, hlast, hsame⟩ := ih h'
    exact ⟨last, hlast, hsame.trans hroute⟩

/-- A send is counted by the way it takes and in no other way, whatever happens while it is under
way. -/
theorem counted_by_route {σ : System β} {t : SiteId} (ht : t.place < σ.world.sites.size)
    (call : Call) :
    ((σ.step (.begin t call)).world.site t).stats =
      (σ.world.site t).stats.countBegin (σ.world.route t call) ∧
    ∀ (later : List (Event β)) (landing : Landing β) (result : Except Failure Value),
      let ρ := (σ.step (.begin t call)).runFrom later
      ρ.sends[σ.sends.size]? = some ⟨t, call, .flying (.landed landing)⟩ →
      ((ρ.step (.finish σ.sends.size result)).world.site t).stats =
        (ρ.world.site t).stats.countEnd (σ.world.route t call) := by
  constructor
  · rw [step_begin ht, World.site_begin, if_pos ⟨rfl, ht⟩]
  · intro later landing result ρ hland
    have hbegun : (σ.step (.begin t call)).sends[σ.sends.size]? =
        some ⟨t, call, .flying (σ.world.begin t call).2⟩ := by
      rw [step_begin ht, Array.getElem?_push_size]
    obtain ⟨stage, hstage, hroute⟩ := route_runFrom hbegun later
    obtain rfl : Stage.flying (.landed landing) = stage :=
      congrArg Sending.stage (Option.some.inj (hland.symm.trans hstage))
    rw [World.route_begin] at hroute
    have ht' : t.place < ρ.world.sites.size := Nat.lt_of_lt_of_le ht
      (Nat.le_trans (grown_step σ _).sites (grown_runFrom _ later).sites)
    rw [step_finish hland result, advance, World.site_finish, if_pos ⟨rfl, ht'⟩,
      show landing.route = _ from hroute]

end System
end InlineCache
