import InlineCache.Proofs.Cache.Decisions
import InlineCache.Proofs.World.Invokers

/-! Whole sends one after the other. A send with nothing between its stages is a run of events of its
own; it leaves the classes and the numbering of objects as they were, and replies what full
dispatch decides in the state that it finds. -/
namespace InlineCache

variable {β : Type}

namespace World

section NextObject

@[simp] theorem nextObject_prepare (w : World β) (i : Nat) (m : Method β) :
    (w.prepare i m).1.nextObject = w.nextObject := by
  rw [prepare]
  split <;> rfl

@[simp] theorem nextObject_buildBranch (w : World β) (i : Nat)
    (recipe : List TokenId × Recipe β) : (w.buildBranch i recipe).1.nextObject = w.nextObject := by
  obtain ⟨tokens, m | m | _⟩ := recipe
  · exact nextObject_prepare w i m
  · exact nextObject_prepare w i m
  · rfl

@[simp] theorem nextObject_publish (w : World β) (s : SiteId) (call : Call) (res : Resolution β) :
    (w.publish s call res).nextObject = w.nextObject := by
  simp only [publish, modifySite]
  split <;> simp

@[simp] theorem nextObject_serve (w : World β) (s : SiteId) (call : Call) (target : Target β) :
    (w.serve s call target).1.nextObject = w.nextObject := by
  unfold serve
  split <;> rfl

@[simp] theorem nextObject_begin (w : World β) (s : SiteId) (call : Call) :
    (w.begin s call).1.nextObject = w.nextObject := by
  simp only [begin]
  split <;> simp [lookUp, modifySite]

@[simp] theorem nextObject_carryOut (w : World β) (s : SiteId) (route : Route)
    (decision : Decision β) : (w.carryOut s route decision).1.nextObject = w.nextObject := by
  cases decision <;> rfl

@[simp] theorem nextObject_settle (w : World β) (s : SiteId) (call : Call) (route : Route)
    (res : Resolution β) : (w.settle s call route res).1.nextObject = w.nextObject := by
  rw [settle, nextObject_carryOut]
  split
  · rfl
  · exact nextObject_publish w s call res

@[simp] theorem nextObject_resume (w : World β) (s : SiteId) (call : Call) (pause : Pause β) :
    (w.resume s call pause).1.nextObject = w.nextObject := by
  cases pause with
  | lookedUp route lookup =>
    simp only [resume]
    split
    · rfl
    · exact nextObject_settle w s call route _
  | lookedUpHandler route lookup handler => exact nextObject_settle w s call route _

@[simp] theorem nextObject_finish (w : World β) (s : SiteId) (route : Route) :
    (w.finish s route).nextObject = w.nextObject := by
  rw [finish]
  split <;> rfl

end NextObject

/-- A world that some run comes to. -/
def Reached (w : World β) : Prop := ∃ events : List (Event β), (System.run events).world = w

/-- What sends leave as it was: the classes, the numbering of objects, and all about the sites that are
there but their chains and statistics. -/
structure Keeps (w w' : World β) : Prop where
  registry : w'.registry = w.registry
  nextObject : w'.nextObject = w.nextObject
  grown : w.Grown w'
  setup : ∀ t : SiteId, t.place < w.sites.size → (w'.site t).setup = (w.site t).setup

theorem Keeps.refl (w : World β) : w.Keeps w := ⟨rfl, rfl, .refl w, fun _ _ => rfl⟩

theorem Keeps.trans {u v w : World β} (h : u.Keeps v) (h' : v.Keeps w) : u.Keeps w :=
  ⟨h'.registry.trans h.registry, h'.nextObject.trans h.nextObject, h.grown.trans h'.grown,
    fun t ht => (h'.setup t (Nat.lt_of_lt_of_le ht h.grown.sites)).trans (h.setup t ht)⟩

end World

/-- The reply that a send comes to, for bodies that do not change the world. -/
def Landing.outcome (body : Activation β → Except Failure Value) :
    Landing β → Except Failure Outcome
  | running _ activation => (body activation).map .returned
  | finished _ reply => reply

/-- The reply that a decision comes to. -/
def Decision.outcome (body : Activation β → Except Failure Value) :
    Decision β → Except Failure Outcome
  | invoke activation => (body activation).map .returned
  | responds answer => .ok (.responds answer)
  | missing => .ok .missing
  | noMethod name className => .error (.noMethod name className)

/-- Whoever carries out a decision comes to its reply, if bodies do not care whether they are copies. -/
theorem Landing.Carries.outcome_eq {landing : Landing β} {decision : Decision β}
    (h : landing.Carries decision) {body : Activation β → Except Failure Value}
    (hbody : ∀ (a : Activation β) (m : Method β), m.IsCopy a.method →
      body { a with method := m } = body a) : landing.outcome body = decision.outcome body := by
  cases h with
  | @invoke route done due copy same receiver args block =>
    have hdone : done = { due with method := done.method } := by
      cases done
      cases due
      simp_all
    rw [Landing.outcome, Decision.outcome, hdone]
    exact congrArg (Except.map Outcome.returned) (hbody due done.method copy)
  | _ => rfl

namespace World

theorem send_eq (w : World β) (s : SiteId) (call : Call)
    (body : Activation β → Except Failure Value) : w.send s call body =
      ((w.dispatch s call).1.finish s (w.dispatch s call).2.route,
        (w.dispatch s call).2.outcome body) := by
  simp only [send]
  cases (w.dispatch s call).2 <;> rfl

@[simp] theorem registry_land (w : World β) (s : SiteId) (call : Call) (flight : Flight β) :
    (w.land s call flight).1.registry = w.registry := by
  induction hrank : flight.rank using Nat.strongRecOn generalizing w flight with
  | ind r ih =>
    subst hrank
    cases flight with
    | landed landing => rw [land_landed]
    | paused pause =>
      rw [land_paused, ih _ (rank_resume w s call pause) _ _ rfl, registry_resume]

/-- No send changes a class, whatever state the sites are in. -/
@[simp] theorem registry_send (w : World β) (s : SiteId) (call : Call)
    (body : Activation β → Except Failure Value) :
    (w.send s call body).1.registry = w.registry := by
  rw [send_eq, registry_finish, dispatch, registry_land, registry_begin]

/-- A send with nothing between its stages carries out what full dispatch decides where it begins. -/
theorem carries_dispatch {σ : System β} (h : σ.Coherent) (s : SiteId) (call : Call) :
    (σ.world.dispatch s call).2.Carries
      (σ.world.registry.dispatch (σ.world.site s).options call) := by
  have hoptions := options_walkSite σ.world s call
  have hlook := fun route => carries_lookUp (σ.world.walkSite s call) s call route
  rw [hoptions] at hlook
  simp only [dispatch, begin_eq]
  cases hv : σ.world.verdict s call with
  | served target =>
    have hagrees := agrees_of_served h hv
    rw [← hoptions] at hagrees ⊢
    rw [land_landed]
    exact carries_serve (σ.world.walkSite s call) s call hagrees
  | repair => exact hlook .repair
  | generic => exact hlook .miss
  | megamorphic => exact hlook .megamorphic

end World

namespace System

/-- The events by which one send goes through its pauses. -/
theorem exists_landed {σ : System β} {i : Nat} {s : SiteId} {call : Call} {flight : Flight β}
    (h : σ.sends[i]? = some ⟨s, call, .flying flight⟩) : ∃ n,
      (σ.runFrom (List.replicate n (.resume i))).world = (σ.world.land s call flight).1 ∧
      (σ.runFrom (List.replicate n (.resume i))).sends[i]? =
        some ⟨s, call, .flying (.landed (σ.world.land s call flight).2)⟩ := by
  induction hrank : flight.rank using Nat.strongRecOn generalizing σ flight with
  | ind r ih =>
    subst hrank
    cases flight with
    | landed landing =>
      rw [World.land_landed]
      exact ⟨0, rfl, h⟩
    | paused pause =>
      have hstep := step_resume h
      have hnext : (σ.step (.resume i)).sends[i]? =
          some ⟨s, call, .flying (σ.world.resume s call pause).2⟩ := by
        rw [hstep, sends_advance, if_pos rfl, h, Option.map_some]
      obtain ⟨n, hworld, hsend⟩ := ih _ (World.rank_resume σ.world s call pause) hnext rfl
      rw [World.land_paused]
      have hresumed : (σ.step (.resume i)).world = (σ.world.resume s call pause).1 := by
        rw [hstep, advance]
      rw [hresumed] at hworld hsend
      exact ⟨n + 1, hworld, hsend⟩

/-- A whole send is a run of events, and none of these is an act outside of a send. -/
theorem exists_send (σ : System β) {s : SiteId} (hs : s.place < σ.world.sites.size) (call : Call)
    (body : Activation β → Except Failure Value) : ∃ events : List (Event β),
      (∀ a, .act a ∉ events) ∧ (σ.runFrom events).world = (σ.world.send s call body).1 := by
  have hbegin := step_begin hs call
  have hbegun : (σ.step (.begin s call)).sends[σ.sends.size]? =
      some ⟨s, call, .flying (σ.world.begin s call).2⟩ := by
    rw [hbegin, Array.getElem?_push_size]
  obtain ⟨n, hworld, hsend⟩ := exists_landed hbegun
  have hend := step_finish hsend (.ok .nil)
  refine ⟨.begin s call :: (List.replicate n (.resume σ.sends.size) ++
    [.finish σ.sends.size (.ok .nil)]), fun a ha => ?_, ?_⟩
  · simp [List.mem_replicate] at ha
  · rw [runFrom_cons, runFrom_append, runFrom_cons, runFrom_nil, hend, World.send_eq, advance,
      hworld, hbegin]
    rfl

theorem nextObject_step {σ : System β} {e : Event β} (he : ∀ a, e ≠ .act a) :
    (σ.step e).world.nextObject = σ.world.nextObject := by
  cases e with
  | act a => exact absurd rfl (he a)
  | begin s call =>
    simp only [step]
    split
    · exact World.nextObject_begin σ.world s call
    · rfl
  | resume i =>
    simp only [step]
    split
    · exact World.nextObject_resume σ.world _ _ _
    · rfl
  | finish i result =>
    simp only [step]
    split
    · split <;> exact World.nextObject_finish σ.world _ _
    · rfl

theorem keeps_step {σ : System β} {e : Event β} (he : ∀ a, e ≠ .act a) :
    σ.world.Keeps (σ.step e).world := by
  refine ⟨?_, nextObject_step he, grown_step σ e, fun t ht => setup_step σ e ht⟩
  rw [registry_step]
  cases e with
  | act a => exact absurd rfl (he a)
  | _ => rfl

/-- Sends alone keep the setup of the world. -/
theorem keeps_runFrom (σ : System β) {events : List (Event β)} (h : ∀ a, .act a ∉ events) :
    σ.world.Keeps (σ.runFrom events).world := by
  induction events generalizing σ with
  | nil => exact .refl σ.world
  | cons e rest ih =>
    have hstep : σ.world.Keeps (σ.step e).world :=
      keeps_step fun a ha => h a (ha ▸ List.mem_cons_self)
    exact hstep.trans (ih (σ.step e) fun a ha => h a (List.mem_cons_of_mem e ha))

end System

namespace World.Reached

variable {w : World β}

theorem act (h : w.Reached) (a : Act β) : (w.act a).Reached := by
  obtain ⟨events, rfl⟩ := h
  exact ⟨events ++ [.act a], by rw [System.run_append]; rfl⟩

/-- Between whole sends a world is one that a run comes to, and a send replies what full dispatch
decides. -/
theorem send (h : w.Reached) {s : SiteId} (hs : s.place < w.sites.size) (call : Call)
    {body : Activation β → Except Failure Value}
    (hbody : ∀ (a : Activation β) (m : Method β), m.IsCopy a.method →
      body { a with method := m } = body a) :
    (w.send s call body).1.Reached ∧ w.Keeps (w.send s call body).1 ∧
      (w.send s call body).2 = (w.registry.dispatch (w.site s).options call).outcome body := by
  obtain ⟨events, rfl⟩ := h
  obtain ⟨rest, hacts, hworld⟩ := System.exists_send (System.run events) hs call body
  refine ⟨⟨events ++ rest, by rw [System.run_append, hworld]⟩, ?_, ?_⟩
  · rw [← hworld]
    exact System.keeps_runFrom _ hacts
  · rw [send_eq]
    exact (carries_dispatch (System.coherent_run events) s call).outcome_eq hbody

end World.Reached
end InlineCache
