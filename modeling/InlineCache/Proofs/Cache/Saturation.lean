import Mathlib.Data.Finset.Card
import Mathlib.Data.Finset.Dedup
import InlineCache.Proofs.Cache.Occupancy

/-! When a site becomes megamorphic. The number of nodes that a site installs is told by its history
alone: it is the number of tests for which something that can be cached was published to it, up to its
bound. What is published again, for the other boolean, or over a branch that has lost its tokens, is
not counted twice. -/
namespace InlineCache

variable {β : Type}

namespace ChainState

/-- The states in the order in which a site comes to them. -/
def rank : ChainState → Nat
  | uninitialized => 0
  | monomorphic => 1
  | polymorphic => 2
  | megamorphic => 3

theorem rank_le (s : ChainState) : s.rank ≤ 3 := by cases s <;> decide

/-- The state of a chain that grows, by its number of nodes. -/
def ofCount : Nat → ChainState
  | 0 => uninitialized
  | 1 => monomorphic
  | _ => polymorphic

theorem rank_ofCount (k : Nat) : (ofCount k).rank = min k 2 := by
  match k with
  | 0 => rfl
  | 1 => rfl
  | k + 2 => exact (Nat.min_eq_right (Nat.le_add_left 2 k)).symm

end ChainState

theorem Chain.state_of_growing {c : Chain β} (h : c.isMegamorphic = false) :
    c.state = .ofCount c.installed := by
  rw [state, h, if_neg Bool.false_ne_true]
  rfl

namespace System

/-- The test that a publication on a site is for, if it is of something that can be cached. -/
def key? (σ : System β) (t : SiteId) (e : Event β) : Option Guard :=
  (σ.published? t e).bind fun (call, res) =>
    if res.Buildable (σ.world.site t).options then some (.of call.name call.receiver.shape) else none

/-- The tests that something was published for on a site in the course of events. -/
def keys (σ : System β) (t : SiteId) : List (Event β) → List Guard
  | [] => []
  | e :: rest => (σ.key? t e).toList ++ (σ.step e).keys t rest

theorem keys_append (σ : System β) (t : SiteId) (es fs : List (Event β)) :
    σ.keys t (es ++ fs) = σ.keys t es ++ (σ.runFrom es).keys t fs := by
  induction es generalizing σ with
  | nil => rfl
  | cons e rest ih => rw [List.cons_append, keys, keys, ih, List.append_assoc, runFrom_cons]

theorem built_isSome_iff {w : World β} {t : SiteId} {res : Resolution β} :
    (w.built? t res).isSome = true ↔ res.Buildable (w.site t).options := by
  rw [World.built?, Option.isSome_map, Resolution.isSome_recipe_iff]

/-- Only on a site that is there anything is published. -/
theorem Coherent.lt_of_published {σ : System β} (h : σ.Coherent) {t : SiteId} {e : Event β}
    {p : Call × Resolution β} (hp : σ.published? t e = some p) :
    t.place < σ.world.sites.size := by
  obtain ⟨i, pause, _, hi, _⟩ := published?_eq_some.mp (show _ = some (p.1, p.2) from hp)
  exact (h.pauses i t p.1 pause hi).1

/-- What the tests published for so far tell about a site. -/
structure Saturated (σ : System β) (t : SiteId) (ks : List Guard) : Prop where
  fresh : ¬ t.place < σ.world.sites.size → ks = []
  growing : (σ.world.site t).chain.isMegamorphic = false →
    ∀ g, g ∈ (σ.world.site t).chain.guards ↔ g ∈ ks
  collapsed : (σ.world.site t).chain.isMegamorphic = true →
    (σ.world.site t).bound < ks.toFinset.card

section Step

variable {σ : System β} {t : SiteId} {ks : List Guard}

theorem Saturated.toFinset_guards (h : σ.Saturated t ks)
    (hm : (σ.world.site t).chain.isMegamorphic = false) :
    (σ.world.site t).chain.guards.toFinset = ks.toFinset :=
  Finset.ext fun g => by rw [List.mem_toFinset, List.mem_toFinset, h.growing hm]

theorem Saturated.installed_of_growing (h : σ.Saturated t ks) (hc : (σ.world.site t).Counted)
    (hm : (σ.world.site t).chain.isMegamorphic = false) :
    (σ.world.site t).chain.installed = ks.toFinset.card := by
  rw [← h.toFinset_guards hm, List.toFinset_card_of_nodup hc.proper.distinct, hc.proper.growing hm]

/-- An event that publishes nothing on a site leaves what is known of it as it was. -/
theorem Saturated.of_chain {e : Event β} (h : σ.Saturated t ks) (hkey : σ.key? t e = none)
    (hguards : ((σ.step e).world.site t).chain.guards = (σ.world.site t).chain.guards)
    (hmega : ((σ.step e).world.site t).chain.isMegamorphic =
      (σ.world.site t).chain.isMegamorphic)
    (hbound : ((σ.step e).world.site t).bound = (σ.world.site t).bound) :
    (σ.step e).Saturated t (ks ++ (σ.key? t e).toList) := by
  rw [hkey, Option.toList_none, List.append_nil]
  refine ⟨fun ht => h.fresh fun hlt => ht (Nat.lt_of_lt_of_le hlt (grown_step σ e).sites), ?_, ?_⟩
  · rw [hmega, hguards]
    exact h.growing
  · rw [hmega, hbound]
    exact h.collapsed

theorem Saturated.of_published {e : Event β} (h : σ.Saturated t ks) (hσ : σ.Coherent)
    (hc : (σ.world.site t).Counted) {call : Call} {res : Resolution β}
    (hpub : σ.published? t e = some (call, res))
    (hsite : ((σ.step e).world.site t).chain = (σ.world.site t).chain.published σ.world.isValid
      (σ.world.site t).bound call.name call.receiver.shape (σ.world.built? t res)) :
    (σ.step e).Saturated t (ks ++ (σ.key? t e).toList) := by
  have hw := (hσ.chains t).wellFormed
  have ht := hσ.lt_of_published hpub
  have hbound := Site.bound_of_setup (setup_step σ e ht)
  have hkey : ∀ g, g ∈ (σ.key? t e).toList ↔ (σ.world.built? t res).isSome = true ∧
      g = .of call.name call.receiver.shape := by
    intro g
    rw [built_isSome_iff, Option.mem_toList, key?, hpub, Option.bind_some,
      Option.ite_none_right_eq_some, Option.some.injEq, eq_comm (a := _)]
  obtain ⟨effect, he⟩ := hσ.exists_effect t call res
  rw [← hsite] at he
  refine ⟨fun hnot => absurd (Nat.lt_of_lt_of_le ht (grown_step σ e).sites) hnot, ?_, ?_⟩
  · intro hm g
    have hm₀ := Bool.eq_false_iff.mpr fun hmega => Bool.eq_false_iff.mp hm
      (he.isMegamorphic_iff.mpr (.inl hmega))
    rw [he.mem_guards hw hm, List.mem_append, hkey, h.growing hm₀]
  · intro hm
    rw [hbound]
    obtain hmega | rfl := he.isMegamorphic_iff.mp hm
    · refine Nat.lt_of_lt_of_le (h.collapsed hmega) (Finset.card_le_card ?_)
      rw [List.toFinset_append]
      exact Finset.subset_union_left
    · -- The one test for which there was no room any more is new.
      obtain ⟨hwant, hfull, _⟩ := he
      have hnew := (Chain.position_eq_none_iff hw).mp hwant.position
      rw [h.growing hwant.growing] at hnew
      have hks : (ks ++ (σ.key? t e).toList).toFinset =
          insert (.of call.name call.receiver.shape) ks.toFinset := by
        ext g
        simp only [List.mem_toFinset, List.mem_append, hkey, hwant.built, true_and,
          Finset.mem_insert]
        exact or_comm
      rw [hks, Finset.card_insert_of_notMem (by rwa [List.mem_toFinset]),
        ← h.installed_of_growing hc hwant.growing]
      exact Nat.lt_succ_of_le hfull

theorem Saturated.step (h : σ.Saturated t ks) (hσ : σ.Coherent) (hc : (σ.world.site t).Counted)
    (e : Event β) : (σ.step e).Saturated t (ks ++ (σ.key? t e).toList) := by
  have hw := (hσ.chains t).wellFormed
  have hnone : σ.published? t e = none → σ.key? t e = none := fun hp => by
    rw [key?, hp, Option.bind_none]
  have hlt : ∀ p, σ.published? t e = some p → t.place < σ.world.sites.size :=
    fun _ => hσ.lt_of_published
  obtain ⟨hkeep, hidle⟩ | ⟨hle, hchain, _⟩ | ⟨call, rfl, _, hwalk⟩ | ⟨call, res, hpub, _, hsite⟩ |
    ⟨_, _, _, _, rfl, _, _, hend⟩ := site_step σ e t
  · refine h.of_chain (hnone ?_) (by rw [hkeep]) (by rw [hkeep]) (by rw [hkeep])
    exact Option.eq_none_iff_forall_ne_some.mpr fun p hp =>
      absurd ((hidle (hlt p hp)).symm.trans hp) nofun
  · have ht : ¬ t.place < σ.world.sites.size := Nat.not_lt_of_le hle
    have hkey := hnone (Option.eq_none_iff_forall_ne_some.mpr fun p hp => ht (hlt p hp))
    rw [h.fresh ht, hkey]
    refine ⟨fun _ => rfl, fun _ g => ?_, fun hm => ?_⟩
    · rw [hchain]
      exact Iff.rfl
    · rw [hchain] at hm
      cases hm
  · refine h.of_chain (hnone rfl) ?_ ?_ ?_
    · rw [hwalk]
      exact Chain.guards_walked hw σ.world.isValid call
    · rw [hwalk]
      exact Chain.isMegamorphic_walked _ _ _
    · rw [hwalk]
  · exact h.of_published hσ hc hpub (congrArg Site.chain hsite)
  · exact h.of_chain (hnone rfl) (by rw [hend]) (by rw [hend]) (by rw [hend])

end Step

theorem saturated_run (events : List (Event β)) (t : SiteId) :
    (run events).Saturated t (keys {} t events) := by
  induction events using List.reverseRecOn with
  | nil =>
    have hchain : ((run ([] : List (Event β))).world.site t).chain = {} :=
      chain_of_not_lt (Nat.not_lt_zero _)
    refine ⟨fun _ => rfl, fun _ g => ?_, fun hm => ?_⟩
    · rw [hchain]
      exact Iff.rfl
    · rw [hchain] at hm
      cases hm
  | append_singleton es e ih =>
    rw [keys_append, run_append]
    have hstep := ih.step (coherent_run es) (counted_run es t) e
    rwa [keys, keys, List.append_nil]

section Run

variable (events : List (Event β)) (t : SiteId)

theorem isMegamorphic_iff_keys : ((run events).world.site t).chain.isMegamorphic = true ↔
    ((run events).world.site t).bound < (keys {} t events).toFinset.card := by
  have hs := saturated_run events t
  have hc := counted_run events t
  refine ⟨hs.collapsed, fun hlt => ?_⟩
  by_contra hm
  rw [Bool.not_eq_true] at hm
  have hle := hc.proper.installed_le
  rw [hs.installed_of_growing hc hm] at hle
  exact Nat.not_lt_of_le hle hlt

theorem installed_eq_min_keys : ((run events).world.site t).chain.installed =
    min (keys {} t events).toFinset.card ((run events).world.site t).bound := by
  have hs := saturated_run events t
  have hc := counted_run events t
  by_cases hm : ((run events).world.site t).chain.isMegamorphic = true
  · rw [hc.proper.collapsed hm, Nat.min_eq_right (Nat.le_of_lt (hs.collapsed hm))]
  · rw [Bool.not_eq_true] at hm
    have hinstalled := hs.installed_of_growing hc hm
    rw [← hinstalled, Nat.min_eq_left hc.proper.installed_le]

theorem state_of_keys (h : (keys {} t events).toFinset.card ≤ ((run events).world.site t).bound) :
    ((run events).world.site t).chain.state = .ofCount (keys {} t events).toFinset.card := by
  have hm : ((run events).world.site t).chain.isMegamorphic = false := by
    rw [← Bool.not_eq_true, isMegamorphic_iff_keys]
    exact Nat.not_lt_of_le h
  rw [Chain.state_of_growing hm, installed_eq_min_keys, Nat.min_eq_left h]

/-- As time goes on a site gets further or stays where it is. -/
theorem state_le_later (later : List (Event β)) :
    let x := (run events).world.site t
    let y := (run (events ++ later)).world.site t
    x.chain.installed ≤ y.chain.installed ∧ x.chain.state.rank ≤ y.chain.state.rank ∧
      (x.chain.state = .megamorphic → y.chain.state = .megamorphic) := by
  intro x y
  by_cases ht : t.place < (run events).world.sites.size
  · have hbound : y.bound = x.bound := by
      rw [show y = ((run events).runFrom later).world.site t by rw [← run_append]]
      exact Site.bound_of_setup (setup_runFrom ht later)
    have hkeys : (keys {} t events).toFinset.card ≤ (keys {} t (events ++ later)).toFinset.card := by
      refine Finset.card_le_card ?_
      rw [keys_append, List.toFinset_append]
      exact Finset.subset_union_left
    have hstays : x.chain.state = .megamorphic → y.chain.state = .megamorphic := by
      rw [Chain.state_eq_megamorphic, Chain.state_eq_megamorphic, isMegamorphic_iff_keys,
        isMegamorphic_iff_keys]
      exact fun hx => hbound ▸ Nat.lt_of_lt_of_le hx hkeys
    refine ⟨?_, ?_, hstays⟩
    · rw [installed_eq_min_keys, installed_eq_min_keys]
      exact hbound ▸ min_le_min_right _ hkeys
    · by_cases hy : (keys {} t (events ++ later)).toFinset.card ≤ y.bound
      · rw [state_of_keys _ t hy, state_of_keys _ t (hkeys.trans (hbound ▸ hy)),
          ChainState.rank_ofCount, ChainState.rank_ofCount]
        exact min_le_min_right 2 hkeys
      · have hmega : y.chain.state = .megamorphic :=
          Chain.state_eq_megamorphic.mpr ((isMegamorphic_iff_keys _ t).mpr (Nat.lt_of_not_le hy))
        rw [hmega]
        exact ChainState.rank_le _
  · have hx : x.chain = {} := chain_of_not_lt ht
    rw [hx]
    exact ⟨Nat.zero_le _, Nat.zero_le _, nofun⟩

/-- A publication brings a site nearer to its end exactly if it is the first one for its test. -/
theorem advances_change_iff (call : Call) (res : Resolution β) :
    ((run events).world.change t call res).advances = true ↔
      ((run events).world.site t).chain.isMegamorphic = false ∧
        res.Buildable ((run events).world.site t).options ∧
        Guard.of call.name call.receiver.shape ∉ keys {} t events := by
  have hs := saturated_run events t
  have hw := ((coherent_run events).chains t).wellFormed
  rw [World.change, Chain.advances_plan_iff]
  constructor
  · intro h
    rw [← hs.growing h.growing, ← Chain.position_eq_none_iff hw]
    exact ⟨h.growing, built_isSome_iff.mp h.built, h.position⟩
  · rintro ⟨hm, hb, hk⟩
    rw [← hs.growing hm, ← Chain.position_eq_none_iff hw] at hk
    exact ⟨hm, hk, built_isSome_iff.mpr hb⟩

end Run

/-- Nothing but a publication that brings a site nearer to its end changes how far it has come. -/
theorem state_step {σ : System β} (h : σ.Coherent) {e : Event β} {t : SiteId}
    (he : ∀ call res, σ.published? t e = some (call, res) →
      (σ.world.change t call res).advances = false) :
    ((σ.step e).world.site t).chain.installed = (σ.world.site t).chain.installed ∧
      ((σ.step e).world.site t).chain.state = (σ.world.site t).chain.state := by
  have hw := (h.chains t).wellFormed
  obtain ⟨hkeep, _⟩ | ⟨hle, hchain, _⟩ | ⟨call, _, _, hwalk⟩ | ⟨call, res, hpub, _, hsite⟩ |
    ⟨_, _, _, _, _, _, _, hend⟩ := site_step σ e t
  · exact hkeep ▸ ⟨rfl, rfl⟩
  · rw [hchain, chain_of_not_lt (Nat.not_lt_of_le hle)]
    exact ⟨rfl, rfl⟩
  · rw [hwalk]
    exact ⟨rfl, Chain.state_congr rfl (Chain.isMegamorphic_walked _ _ _)⟩
  · have hwant := he call res hpub
    rw [World.change, Bool.eq_false_iff, Ne, Chain.advances_plan_iff] at hwant
    obtain ⟨effect, hocc⟩ := h.exists_effect t call res
    rw [hsite]
    exact hocc.state_eq hwant
  · rw [hend]
    exact ⟨rfl, rfl⟩

/-- For every run and every site: with the set of tests for which something that can be cached was
published to the site so far, as many nodes are installed as there are such tests, up to the bound;
the site is megamorphic exactly if there are more of them than that, and else its state tells whether
there is none, one or more. So no site ever goes back, and a publication takes it further only if it is
the first one for its test: the others, which replace, open, fill or merge branches or do nothing, do
not. -/
theorem saturates_by_keys (events : List (Event β)) (t : SiteId) :
    let σ := run events
    let x := σ.world.site t
    let K := (keys {} t events).toFinset
    x.chain.installed = min K.card x.bound ∧
    (x.chain.state = .megamorphic ↔ x.bound < K.card) ∧
    (K.card ≤ x.bound → x.chain.state = .ofCount K.card) ∧
    (∀ later : List (Event β),
      let y := (run (events ++ later)).world.site t
      x.chain.installed ≤ y.chain.installed ∧ x.chain.state.rank ≤ y.chain.state.rank ∧
        (x.chain.state = .megamorphic → y.chain.state = .megamorphic)) ∧
    (∀ (call : Call) (res : Resolution β), (σ.world.change t call res).advances = true ↔
      x.chain.state ≠ .megamorphic ∧ res.Buildable x.options ∧
        Guard.of call.name call.receiver.shape ∉ K) ∧
    ∀ e : Event β, (∀ call res, σ.published? t e = some (call, res) →
        (σ.world.change t call res).advances = false) →
      ((σ.step e).world.site t).chain.installed = x.chain.installed ∧
        ((σ.step e).world.site t).chain.state = x.chain.state := by
  intro σ x K
  refine ⟨installed_eq_min_keys events t, ?_, state_of_keys events t, state_le_later events t, ?_,
    fun e he => state_step (coherent_run events) he⟩
  · rw [Chain.state_eq_megamorphic, isMegamorphic_iff_keys]
  · intro call res
    rw [Ne, Chain.state_eq_megamorphic, Bool.not_eq_true, List.mem_toFinset]
    exact advances_change_iff events t call res

end System
end InlineCache
