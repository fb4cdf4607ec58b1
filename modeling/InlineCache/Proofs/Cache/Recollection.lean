import InlineCache.Proofs.Cache.Occupancy
import InlineCache.Proofs.Cache.Publishing
import InlineCache.Proofs.Chain.Recall
import InlineCache.Proofs.World.Unserved

/-! What a site remembers of its sends. In a run where every send publishes what it has just looked up,
what a chain remembers for a message and a shape is what the latest send of the kind that it did not
serve had to publish. Two invariants carry this, one for the sends that wait and one for the chain. -/
namespace InlineCache

variable {β : Type}

namespace Unserved

/-- All that a send looked up with nothing in between. -/
def resolution (u : Unserved β) (t : SiteId) : Resolution β :=
  u.start.world.registry.resolution (u.start.world.site t).options u.call

/-- The tokens of the branch that a send had to publish, if any. -/
def tokens? (u : Unserved β) (t : SiteId) : Option (List TokenId) :=
  ((u.resolution t).recipe? (u.start.world.site t).options).map Prod.fst

end Unserved

namespace World

theorem tokens_built (w : World β) (t : SiteId) (res : Resolution β) :
    (w.built? t res).map Branch.tokens = (res.recipe? (w.site t).options).map Prod.fst := by
  rw [built?, Option.map_map]
  refine congrFun (congrArg Option.map ?_) _
  funext p
  exact w.tokens_buildBranch _ p.1 p.2

/-- The way of a send that begins now. -/
theorem route_eq {w : World β} {t : SiteId} (hc : (w.site t).Counted)
    (hw : ∀ n ∈ (w.site t).chain.nodes, n.WellFormed) (call : Call) :
    w.route t call = if (w.site t).chain.isMegamorphic then .megamorphic
      else match (w.site t).chain.branch? call.name call.receiver.shape with
        | some b => if b.isValid w.isValid then .hit else .repair
        | none => .miss := by
  rw [route, verdict, Chain.verdict_walk hc.proper hw]
  split
  · rfl
  · cases (w.site t).chain.branch? call.name call.receiver.shape with
    | none => rfl
    | some b => exact apply_ite Verdict.route (b.isValid w.isValid = true) (.served b.target) .repair

end World

namespace System

/-- A send of a message to a receiver of a shape waits on a site. -/
def Awaits (σ : System β) (t : SiteId) (name : String) (shape : Shape) : Prop :=
  ∃ (i : Nat) (call : Call) (pause : Pause β),
    σ.sends[i]? = some ⟨t, call, .flying (.paused pause)⟩ ∧ call.name = name ∧
      call.receiver.shape = shape

/-- A send that waits, with nothing having happened since it began: it knows what lookups say now, the
branch that did not serve it is as invalid as it was, and if the site was megamorphic it still is. -/
structure Pending (σ : System β) (t : SiteId) (pause : Pause β) (u : Unserved β) : Prop where
  registry : σ.world.registry = u.start.world.registry
  options : (σ.world.site t).options = (u.start.world.site t).options
  lookup : pause.resolution.lookup = (u.resolution t).lookup
  complete : pause.isLast (σ.world.site t).options = true → pause.resolution = u.resolution t
  stale : ∀ b, (σ.world.site t).chain.branch? u.call.name u.call.receiver.shape = some b →
    b.isValid σ.world.isValid = false
  spent : pause.route = .megamorphic → (σ.world.site t).chain.isMegamorphic = true

section Step

variable {σ : System β} {t : SiteId} {name : String} {shape : Shape} {u : Unserved β}

theorem pending_begin (h : σ.Coherent) (hc : (σ.world.site t).Counted) {e : Event β} {call : Call}
    (hcall : σ.unserved? t name shape e = some call) :
    (σ.step e).Pending t (.lookedUp (σ.world.route t call)
      (σ.world.registry.lookup (σ.world.site t).options call)) ⟨σ, call, []⟩ := by
  obtain ⟨rfl, ht, _, _, hunserved⟩ := unserved?_eq_some.mp hcall
  have hw := (h.chains t).wellFormed
  have hroute := World.route_eq hc hw call
  have hregistry : (σ.step (.begin t call)).world.registry = σ.world.registry := by
    rw [step_begin ht, World.registry_begin]
  have hoptions := Site.options_of_setup (setup_step σ (.begin t call) ht)
  have hchain : ((σ.step (.begin t call)).world.site t).chain =
      (σ.world.site t).chain.walked σ.world.isValid call := by
    rw [step_begin ht, World.site_begin, if_pos ⟨rfl, ht⟩]
  refine ⟨hregistry, hoptions, rfl, fun hlast => ?_, fun b hb => ?_, fun hspent => ?_⟩
  · rw [hoptions] at hlast
    have hwants := (Bool.not_eq_true' _).mp hlast
    rw [Pause.resolution, Unserved.resolution, Registry.resolution]
    simp [hwants]
  · have htokens := Chain.tokens_walked hw σ.world.isValid call call.name call.receiver.shape
    rw [← hchain, hb] at htokens
    obtain ⟨b₀, hb₀, hsame⟩ := Option.map_eq_some_iff.mp htokens.symm
    have hvalid : b.isValid (σ.step (.begin t call)).world.isValid =
        b₀.isValid σ.world.isValid := by
      rw [Branch.isValid, Branch.isValid, hsame]
      exact congrArg (fun r : Registry β => b.tokens.all r.tokens.isValid) hregistry
    have hm : ¬ (σ.world.site t).chain.isMegamorphic = true := by
      intro hm
      cases hb₀.symm.trans (Chain.branch_of_isMegamorphic hm)
    rw [hvalid, Bool.eq_false_iff]
    intro hv
    rw [if_neg hm, hb₀] at hroute
    exact hunserved (hroute.trans (if_pos hv))
  · rw [hchain, Chain.isMegamorphic_walked]
    by_contra hm
    rw [if_neg hm] at hroute
    have hspent : σ.world.route t call = .megamorphic := hspent
    rw [hspent] at hroute
    split at hroute
    · split at hroute <;> cases hroute
    · cases hroute

theorem pending_resume {i : Nat} {pause pause' : Pause β} (hp : σ.Pending t pause u)
    (hi : σ.sends[i]? = some ⟨t, u.call, .flying (.paused pause)⟩)
    (hpause : (σ.world.resume t u.call pause).2 = .paused pause') :
    (σ.step (.resume i)).Pending t pause' u := by
  obtain ⟨route, lookup, rfl, hwants, rfl⟩ := World.resume_paused hpause
  have hworld : (σ.step (.resume i)).world = σ.world := by
    rw [step_resume hi, advance, World.resume, if_pos hwants]
  obtain ⟨hregistry, hoptions, hlookup, _, hstale, hspent⟩ := hp
  refine ⟨hworld ▸ hregistry, hworld ▸ hoptions, hlookup, fun _ => ?_, hworld ▸ hstale, ?_⟩
  · have hlookup : lookup = σ.world.registry.lookup (σ.world.site t).options u.call := by
      rw [hoptions, hregistry]
      exact hlookup
    rw [Unserved.resolution, ← hregistry, ← hoptions, Registry.resolution, ← hlookup, if_pos hwants]
    rfl
  · rw [hworld]
    exact hspent

/-- A chain that is growing after an event was growing before it. -/
theorem growing_before (h : σ.Coherent) {e : Event β}
    (hm : ((σ.step e).world.site t).chain.isMegamorphic = false) :
    (σ.world.site t).chain.isMegamorphic = false := by
  by_cases ht : t.place < σ.world.sites.size
  · rw [Bool.eq_false_iff] at hm ⊢
    exact fun hmega => hm ((grows_step h e ht).megamorphic hmega)
  · rw [chain_of_not_lt ht]
    rfl

/-- What is remembered for a message and a shape outlives any event but the publication of a send of
that message to a receiver of that shape. -/
theorem tokens_step (h : σ.Coherent) {e : Event β}
    (hm : ((σ.step e).world.site t).chain.isMegamorphic = false)
    (hothers : ¬ σ.Awaits t name shape) :
    (((σ.step e).world.site t).chain.branch? name shape).map Branch.tokens =
      ((σ.world.site t).chain.branch? name shape).map Branch.tokens := by
  have hw := (h.chains t).wellFormed
  obtain hkeep | ⟨hle, hnew⟩ | ⟨call, _, _, hwalk⟩ | ⟨i, call, pause, _, _, hi, hpub⟩ :=
    chain_step σ e t
  · rw [hkeep]
  · rw [hnew, chain_of_not_lt (Nat.not_lt_of_le hle)]
  · rw [hwalk, Chain.tokens_walked hw]
  · obtain ⟨effect, he⟩ := h.exists_effect t call pause.resolution
    rw [hpub] at hm ⊢
    rw [he.branch_eq hw hm, if_neg]
    rintro ⟨rfl, rfl⟩
    exact hothers ⟨i, call, pause, hi, rfl, rfl⟩

/-- A send that publishes what it has just looked up leaves this in the chain. -/
theorem tokens_resume (h : σ.Coherent) {i : Nat} {pause : Pause β} (hp : σ.Pending t pause u)
    (hi : σ.sends[i]? = some ⟨t, u.call, .flying (.paused pause)⟩)
    (hlast : pause.isLast (σ.world.site t).options = true)
    (hm : ((σ.step (.resume i)).world.site t).chain.isMegamorphic = false) :
    (((σ.step (.resume i)).world.site t).chain.branch? u.call.name u.call.receiver.shape).map
      Branch.tokens = u.tokens? t := by
  have hw := (h.chains t).wellFormed
  obtain ⟨ht, _⟩ := h.pauses i t u.call pause hi
  have hroute : pause.route ≠ .megamorphic := fun hroute =>
    absurd ((hp.spent hroute).symm.trans (growing_before h hm)) nofun
  have hpub : σ.world.publishes t pause = true := by
    rw [World.publishes, hlast, Bool.and_true, decide_eq_true_eq]
    exact hroute
  have hsite := site_of_published (published?_eq_some.mpr ⟨i, pause, rfl, hi, hpub, rfl⟩) ht
  obtain ⟨effect, he⟩ := h.exists_effect t u.call pause.resolution
  have hstale : ((σ.world.site t).chain.branch? u.call.name u.call.receiver.shape).filter
      (fun b => b.isValid σ.world.isValid) = none := by
    rw [Option.filter_eq_none_iff]
    exact fun b hb => Bool.eq_false_iff.mp (hp.stale b hb)
  rw [hsite] at hm ⊢
  rw [he.branch_eq hw hm, if_pos ⟨rfl, rfl⟩, hstale, Option.none_or, World.tokens_built,
    hp.complete hlast, hp.options, Unserved.tokens?]

theorem Pending.since {pause : Pause β} (h : σ.Pending t pause u) (events : List (Event β)) :
    σ.Pending t pause { u with since := events } :=
  ⟨h.registry, h.options, h.lookup, h.complete, h.stale, h.spent⟩

end Step

section Run

variable {events : List (Event β)} {t : SiteId} {name : String} {shape : Shape}

/-- In a run that nothing interrupts, a send that waits is the latest one that was not served. -/
theorem pending_run (h : Uninterrupted {} events) {i : Nat} {call : Call} {pause : Pause β}
    (hi : (run events).sends[i]? = some ⟨t, call, .flying (.paused pause)⟩) :
    ∃ u, latest? {} t call.name call.receiver.shape events = some u ∧ u.call = call ∧
      (run events).Pending t pause u := by
  induction events using List.reverseRecOn generalizing pause with
  | nil => simp [run] at hi
  | append_singleton es e ih =>
    have hes := (Throughout.concat.mp h).1
    have hlatest := latest_concat {} t call.name call.receiver.shape es e
    have hstep : run (es ++ [e]) = (run es).step e := run_append es [e]
    rw [hstep] at hi ⊢
    have hresumed : ∀ before : Pause β,
        (run es).sends[i]? = some ⟨t, call, .flying (.paused before)⟩ → e = .resume i →
        ((run es).world.resume t call before).2 = .paused pause →
        ∃ u, latest? {} t call.name call.receiver.shape (es ++ [e]) = some u ∧ u.call = call ∧
          ((run es).step e).Pending t pause u := by
      rintro before hbefore rfl hpause
      obtain ⟨u, hu, rfl, hp⟩ := ih hes hbefore
      rw [hu] at hlatest
      exact ⟨_, hlatest, rfl, (pending_resume hp hbefore hpause).since _⟩
    obtain hsame | ⟨rfl, ht, rfl, hstage⟩ | ⟨before, he, hbefore, hstage⟩ | ⟨_, _, _, _, hstage⟩ :=
      sends_step hi
    · -- Where the send waited already, the event is that it goes on, though it seems to stay.
      have he := h.eq_resume hsame
      subst he
      rw [step_resume hsame, sends_advance, if_pos rfl, hsame, Option.map_some, Option.some.injEq,
        Sending.mk.injEq] at hi
      exact hresumed pause hsame rfl (Stage.flying.inj hi.2.2)
    · have hpaused := (Stage.flying.inj hstage).symm
      have hcall : (run es).unserved? t call.name call.receiver.shape (.begin t call) = some call :=
        unserved?_eq_some.mpr ⟨rfl, ht, rfl, rfl, World.route_ne_hit_of_paused hpaused⟩
      have hfirst := sends_of_unserved hcall
      rw [hi, Option.some.injEq, Sending.mk.injEq, Stage.flying.injEq, Flight.paused.injEq] at hfirst
      obtain ⟨_, _, rfl⟩ := hfirst
      have hfound : (({} : System β).runFrom es).unserved? t call.name call.receiver.shape
          (.begin t call) = some call := hcall
      rw [hfound] at hlatest
      exact ⟨_, hlatest, rfl, pending_begin (coherent_run es) (counted_run es t) hcall⟩
    · exact hresumed before hbefore he (Stage.flying.inj hstage).symm
    · cases hstage

/-- In a run that nothing interrupts, what a chain remembers for a message and a shape, unless a send of
the kind is waiting, is what the latest one that was not served had to publish. -/
theorem remembered_run (h : Uninterrupted {} events)
    (hm : ((run events).world.site t).chain.isMegamorphic = false)
    (hothers : ¬ (run events).Awaits t name shape) :
    (((run events).world.site t).chain.branch? name shape).map Branch.tokens =
      (latest? {} t name shape events).bind fun u => u.tokens? t := by
  induction events using List.reverseRecOn with
  | nil =>
    have hchain : ((run ([] : List (Event β))).world.site t).chain = {} :=
      chain_of_not_lt (Nat.not_lt_zero _)
    rw [hchain]
    rfl
  | append_singleton es e ih =>
    have hes := (Throughout.concat.mp h).1
    have hcoherent := coherent_run es
    have hlatest := latest_concat {} t name shape es e
    have hstep : run (es ++ [e]) = (run es).step e := run_append es [e]
    rw [hstep] at hm hothers ⊢
    by_cases hpending : (run es).Awaits t name shape
    · -- The event is that the send goes on; it publishes, as none is waiting any more afterwards.
      obtain ⟨i, call, pause, hi, rfl, rfl⟩ := hpending
      obtain rfl := h.eq_resume hi
      obtain ⟨u, hu, rfl, hp⟩ := pending_run hes hi
      have hlast : pause.isLast ((run es).world.site t).options = true := by
        cases pause with
        | lookedUpHandler route lookup handler => rfl
        | lookedUp route lookup =>
          rw [Pause.isLast, Bool.not_eq_true']
          by_contra hwants
          refine hothers ⟨i, u.call, .lookedUpHandler route lookup
            ((run es).world.registry.lookupHandler u.call), ?_, rfl, rfl⟩
          rw [step_resume hi, sends_advance, if_pos rfl, hi, Option.map_some,
            World.resume_of_wants route ((Bool.not_eq_false _).mp hwants)]
      rw [tokens_resume hcoherent hp hi hlast hm, hlatest, hu]
      rfl
    · have hnone : (run es).unserved? t name shape e = none := by
        refine Option.eq_none_iff_forall_ne_some.mpr fun call hcall => ?_
        obtain ⟨_, _, hname, hshape, _⟩ := unserved?_eq_some.mp hcall
        exact hothers ⟨_, call, _, sends_of_unserved hcall, hname, hshape⟩
      have hfound : (({} : System β).runFrom es).unserved? t name shape e = none := hnone
      rw [tokens_step hcoherent hm hpending, ih hes (growing_before hcoherent hm) hpending, hlatest,
        hfound, Option.map_none, Option.none_or, Option.bind_map]
      rfl

end Run
end System
end InlineCache
