import InlineCache.Proofs.Cache.Coherence

/-! Publications among other sends. A send publishes onto the chain that is there when it comes to
it, whoever has changed that chain since the send looked things up; no publication undoes what
another one has left there. -/
namespace InlineCache

variable {β : Type}

namespace System

/-- The chain of a site goes on growing with every event. -/
theorem grows_step {σ : System β} (h : σ.Coherent) (e : Event β) {t : SiteId}
    (ht : t.place < σ.world.sites.size) :
    (σ.world.site t).chain.Grows ((σ.step e).world.site t).chain := by
  have hw := (h.chains t).wellFormed
  obtain hkeep | ⟨hle, _⟩ | ⟨call, _, _, hwalk⟩ | ⟨i, call, pause, _, _, _, hpub⟩ :=
    System.chain_step σ e t
  · exact hkeep ▸ .refl _
  · exact absurd ht (Nat.not_lt_of_le hle)
  · exact hwalk ▸ .walked hw σ.world.isValid call
  · obtain ⟨effect, he⟩ := Chain.effect_published hw
    exact hpub ▸ .of_occurs he

theorem grows_runFrom {σ : System β} (h : σ.Coherent) (events : List (Event β)) {t : SiteId}
    (ht : t.place < σ.world.sites.size) :
    (σ.world.site t).chain.Grows ((σ.runFrom events).world.site t).chain := by
  induction events generalizing σ with
  | nil => exact .refl _
  | cons e rest ih =>
    exact (grows_step h e ht).trans (ih (h.step e) (Nat.lt_of_lt_of_le ht (grown_step σ e).sites))

/-- In every reachable state the publication of any resolution, however old, onto the chain that is
there has exactly one of the four effects. Unless the chain collapses, all nodes keep their
places and tests, and every branch stays that is for another message or shape, or is valid; a
node that is added serves the message and the shape and nothing else; the other sites are left
alone. And from any state on, the order of the nodes is the order in which they came. -/
theorem publish_has_one_effect (events later : List (Event β)) (s : SiteId)
    (hs : s.place < (run events).world.sites.size) (call : Call) (res : Resolution β) :
    let w := (run events).world
    let c := (w.site s).chain
    let c' := ((w.publish s call res).site s).chain
    (∃! e : Effect, e.Occurs w.isValid (w.site s).bound call.name call.receiver.shape
      (w.built? s res) c c') ∧
    (c'.isMegamorphic = true ∨ ∀ (j : Nat) (n : Node β), c.nodes[j]? = some n →
      ∃ n', c'.nodes[j]? = some n' ∧ n'.guard = n.guard ∧
        (c.position? call.name call.receiver.shape ≠ some j → n' = n) ∧
        ∀ message shape, ¬ (message = call.name ∧ shape = call.receiver.shape) ∨
            (∃ b, n.branch? message shape = some b ∧ b.isValid w.isValid = true) →
          n'.branch? message shape = n.branch? message shape) ∧
    (∀ n ∈ c'.nodes.drop c.nodes.length, n.covers call.name call.receiver.shape = true ∧
      ∀ message shape, n.branch? message shape =
        if message = call.name ∧ shape = call.receiver.shape then w.built? s res else none) ∧
    (∀ t, t ≠ s → (w.publish s call res).site t = w.site t) ∧
    c.Grows ((run (events ++ later)).world.site s).chain := by
  intro w c c'
  have hcoherent := coherent_run events
  have hw := (hcoherent.chains s).wellFormed
  have hc' : c' = c.published w.isValid (w.site s).bound call.name call.receiver.shape
      (w.built? s res) := by
    have hpub := World.chain_publish w s call res s
    rwa [if_pos ⟨rfl, hs⟩] at hpub
  obtain ⟨e, he⟩ : ∃ e : Effect, e.Occurs w.isValid (w.site s).bound call.name
      call.receiver.shape (w.built? s res) c c' := hc' ▸ Chain.effect_published hw
  refine ⟨⟨e, he, fun f hf => hf.unique he⟩, ?_, he.added,
    fun t ht => World.site_publish_of_ne w ht call res, ?_⟩
  · by_cases hcollapsed : e = .collapsed
    · subst hcollapsed
      obtain ⟨_, _, hend⟩ := he
      exact .inl (hend ▸ rfl)
    · refine .inr fun j n hj => ?_
      obtain ⟨n', hj', hguard, hsame, hothers⟩ := he.frame hcollapsed hw hj
      refine ⟨n', hj', hguard, hsame, ?_⟩
      rintro message shape (hother | ⟨b, hb, hv⟩)
      · exact hothers message shape hother
      · obtain ⟨m, hm, hmb⟩ := he.survives hcollapsed hw hj hb hv
        rw [hj', Option.some.injEq] at hm
        rw [hm, hmb, hb]
  · rw [run_append]
    exact grows_runFrom hcoherent later hs

/-- What was looked up for `false` is published next to what is cached for `true`. -/
theorem publish_has_one_effect_warmSite :
    let w := (run warmSite).world
    let call : Call := { name := "m", receiver := .bool false }
    let res := w.registry.resolution {} call
    0 < w.sites.size ∧ ∃! e : Effect, e.Occurs w.isValid (w.site ⟨0⟩).bound "m" (.bool false)
      (w.built? ⟨0⟩ res) (w.site ⟨0⟩).chain ((w.publish ⟨0⟩ call res).site ⟨0⟩).chain := by
  intro w call res
  have hs : 0 < w.sites.size := by decide +kernel
  exact ⟨hs, (publish_has_one_effect warmSite [] ⟨0⟩ hs call res).1⟩

end System
end InlineCache
