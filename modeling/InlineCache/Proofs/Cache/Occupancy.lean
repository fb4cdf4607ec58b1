import InlineCache.Proofs.Cache.Coherence
import InlineCache.Proofs.Chain.Keys

/-! How the nodes of a site are counted. Whatever sends interleave, a chain is in good order after
every publication, as the publication looks at the chain that is there and not at the one that its
send once walked; and what the site counts as installed is what its chain has installed. -/
namespace InlineCache

variable {β : Type}

/-- A chain in good order, and statistics that tell how many nodes were installed in it. -/
structure Site.Counted (x : Site β) : Prop where
  proper : x.chain.Proper x.bound
  installs : x.stats.installs = x.chain.installed

namespace Stats

@[simp] theorem installs_count (s : Stats) (route : Route) : (s.count route).installs = s.installs := by
  cases route <;> rfl

@[simp] theorem installs_countBegin (s : Stats) (route : Route) :
    (s.countBegin route).installs = s.installs := by
  rw [countBegin]
  split
  · rfl
  · exact installs_count s route

@[simp] theorem installs_countEnd (s : Stats) (route : Route) :
    (s.countEnd route).installs = s.installs := by
  rw [countEnd]
  split
  · exact installs_count s .hit
  · rfl

theorem installs_countChange (s : Stats) (change : Change) :
    (s.countChange change).installs = if change = .append then s.installs + 1 else s.installs := by
  cases change with
  | fill i merges => cases merges <;> rfl
  | _ => rfl

end Stats

namespace System

/-- The effect of a publication on the chain that is there. -/
theorem Coherent.exists_effect {σ : System β} (h : σ.Coherent) (t : SiteId) (call : Call)
    (res : Resolution β) :
    let x := σ.world.site t
    let built := σ.world.built? t res
    ∃ e : Effect, e.Occurs σ.world.isValid x.bound call.name call.receiver.shape built x.chain
      (x.chain.published σ.world.isValid x.bound call.name call.receiver.shape built) :=
  Chain.effect_published (h.chains t).wellFormed

theorem counted_step {σ : System β} (h : σ.Coherent) (e : Event β) {t : SiteId}
    (ht : (σ.world.site t).Counted) : ((σ.step e).world.site t).Counted := by
  have hw := (h.chains t).wellFormed
  obtain ⟨hkeep, _⟩ | ⟨_, hchain, hstats⟩ | ⟨call, _, _, hwalk⟩ | ⟨call, res, _, _, hpub⟩ |
    ⟨_, _, _, _, _, _, _, hend⟩ := site_step σ e t
  · exact hkeep ▸ ht
  · refine ⟨hchain ▸ .empty _, ?_⟩
    rw [hchain, hstats]
  · rw [hwalk]
    exact ⟨ht.proper.walked hw σ.world.isValid call,
      (Stats.installs_countBegin _ _).trans ht.installs⟩
  · obtain ⟨effect, he⟩ := h.exists_effect t call res
    rw [hpub]
    refine ⟨he.proper hw ht.proper, ?_⟩
    rw [Stats.installs_countChange, Chain.installed_published, ht.installs]
    rfl
  · rw [hend]
    exact ⟨ht.proper, (Stats.installs_countEnd _ _).trans ht.installs⟩

theorem counted_run (events : List (Event β)) (t : SiteId) :
    ((run events).world.site t).Counted := by
  refine (run_induct (motive := fun σ => σ.Coherent ∧ ∀ t, (σ.world.site t).Counted) ?_ ?_ events).2 t
  · refine ⟨coherent_run [], fun t => ?_⟩
    have ht : ¬ t.place < (run ([] : List (Event β))).world.sites.size := Nat.not_lt_zero _
    exact (World.site_of_not_lt ht) ▸ ⟨.empty _, rfl⟩
  · exact fun σ e ⟨hc, hall⟩ => ⟨hc.step e, fun t => counted_step hc e (hall t)⟩

/-- In every reachable state, also in the middle of sends, a chain has at most one node in charge of a
message and a shape: no two nodes have the same test, and there is at most one two-branch node for a
message. What the site counts as installed is what was installed, and never more than its bound;
these are the nodes that are there, unless the site is megamorphic: then none is there, and the bound
has been reached exactly. -/
theorem chain_within_bound (events : List (Event β)) (t : SiteId) :
    let x := (run events).world.site t
    (∀ (name : String) (shape : Shape) (i j : Nat) (n m : Node β),
      x.chain.nodes[i]? = some n → x.chain.nodes[j]? = some m →
      n.covers name shape = true → m.covers name shape = true → i = j) ∧
    x.chain.guards.Nodup ∧
    (∀ (i j : Nat) (n m : Node β), x.chain.nodes[i]? = some n → x.chain.nodes[j]? = some m →
      n.isBoolean = true → m.isBoolean = true → n.guard.name = m.guard.name → i = j) ∧
    x.stats.installs = x.chain.installed ∧
    x.chain.installed ≤ x.bound ∧
    (x.chain.state ≠ .megamorphic → x.chain.nodes.length = x.chain.installed) ∧
    (x.chain.state = .megamorphic → x.chain.nodes = [] ∧ x.chain.installed = x.bound) := by
  intro x
  obtain ⟨hp, hinstalls⟩ : x.Counted := counted_run events t
  have hw : ∀ n ∈ x.chain.nodes, n.WellFormed := ((coherent_run events).chains t).wellFormed
  refine ⟨?_, hp.distinct, ?_, hinstalls, hp.installed_le, ?_, ?_⟩
  · intro name shape i j n m hi hj hn hm
    rw [Node.covers_iff_guard (hw n (List.mem_of_getElem? hi))] at hn
    rw [Node.covers_iff_guard (hw m (List.mem_of_getElem? hj))] at hm
    exact hp.index_unique hi hj (hn.trans hm.symm)
  · intro i j n m hi hj hn hm hname
    refine hp.index_unique hi hj ?_
    rw [Node.guard_of_isBoolean (hw n (List.mem_of_getElem? hi)) hn,
      Node.guard_of_isBoolean (hw m (List.mem_of_getElem? hj)) hm, hname]
  · intro hm
    rw [Ne, Chain.state_eq_megamorphic, Bool.not_eq_true] at hm
    rw [← Chain.length_guards]
    exact hp.growing hm
  · intro hm
    rw [Chain.state_eq_megamorphic] at hm
    exact ⟨Chain.nodes_of_isMegamorphic hm, hp.collapsed hm⟩

end System
end InlineCache
