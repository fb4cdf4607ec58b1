import InlineCache.Proofs.Cache.Recollection
import InlineCache.Proofs.World.Validity

/-! When a send is served from the cache. What was published last for its message and shape rests on
the token of the receiver's class alone; so, with no token invalidated directly, it serves for exactly
as long as nothing changes that class or anything above it, and nothing else ever costs a hit. -/
namespace InlineCache

variable {β : Type}

/-- Since a send looked things up, nothing has changed a class or anything above it. -/
def Unserved.Undisturbed (u : Unserved β) (t : SiteId) (c : ClassId) : Prop :=
  (u.start.step (.begin t u.call)).Undisturbed c u.since

theorem Unserved.isSome_tokens_iff {u : Unserved β} {t : SiteId} :
    (u.tokens? t).isSome = true ↔ (u.resolution t).Buildable (u.start.world.site t).options := by
  rw [tokens?, Option.isSome_map, Resolution.isSome_recipe_iff]

/-- What is built of the lookups of one state rests on the token of the receiver's class alone. -/
theorem Registry.mem_tokens_iff {r : Registry β} (hw : r.WellFormed) {o : SiteOptions} {call : Call}
    {tokens : List TokenId} {recipe : Recipe β}
    (h : (r.resolution o call).recipe? o = some (tokens, recipe)) :
    ∃ k, r.currentToken? call.receiver.classId = some k ∧ ∀ t, t ∈ tokens ↔ t = k := by
  have hlookup : (r.resolution o call).lookup.token = r.currentToken? call.receiver.classId :=
    token_resolve r _ call.name o.ignoreVisibility
  obtain ⟨hc, hcases⟩ := Resolution.recipe_cases h
  cases hk : r.currentToken? call.receiver.classId with
  | none =>
    have hstands := stands_resolve hw call.receiver.classId call.name o.ignoreVisibility
    cases hc.symm.trans (hstands.undefined (hlookup.trans hk))
  | some k =>
    rw [hk] at hlookup
    refine ⟨k, rfl, fun t => ?_⟩
    obtain ⟨_, _, _, _, rfl⟩ | ⟨_, _, _, _, rfl⟩ | ⟨lk, _, _, _, _, hlk, _, _, _, rfl⟩ := hcases
    · simp [hlookup, eq_comm]
    · simp [hlookup, eq_comm]
    · have hhandler : lk = r.lookupHandler call := by
        rw [resolution] at hlk
        split at hlk
        · exact (Option.some.inj hlk).symm
        · cases hlk
      have htoken : lk.token = some k := by
        rw [hhandler, ← hk]
        exact token_resolve r _ handlerName true
      simp [hlookup, htoken, eq_comm]

namespace System

section Run

variable {events : List (Event β)} {t : SiteId} {name : String} {shape : Shape} {u : Unserved β}

/-- A site has still the options that it had when a send began on it. -/
theorem options_of_latest (hu : latest? {} t name shape events = some u) :
    ((run events).world.site t).options = (u.start.world.site t).options := by
  obtain ⟨before, rfl, hstart, ht, _⟩ := latest_start hu
  rw [hstart] at ht ⊢
  rw [run_append]
  exact Site.options_of_setup (setup_runFrom ht _)

/-- The branch that a send had to publish is valid for as long as nothing changes the class of the
receiver or anything above it. -/
theorem isValid_iff_latest (hu : latest? {} t name shape events = some u)
    (hdirect : ∀ k, .act (.invalidateToken k) ∉ events) {tokens : List TokenId}
    (htokens : u.tokens? t = some tokens) :
    tokens.all (run events).world.isValid = true ↔ u.Undisturbed t shape.classId := by
  obtain ⟨before, rfl, hstart, ht, _, rfl, _⟩ := latest_start hu
  obtain ⟨⟨_, recipe⟩, hrecipe, rfl⟩ := Option.map_eq_some_iff.mp htokens
  have hw : u.start.world.registry.WellFormed := hstart ▸ wellFormed_run before
  obtain ⟨k, hk, hmem⟩ := Registry.mem_tokens_iff hw hrecipe
  have hall : ∀ p : TokenId → Bool, (∀ t ∈ _, p t = true) ↔ p k = true :=
    fun p => ⟨fun h => h k ((hmem k).mpr rfl), fun h t ht => (hmem t).mp ht ▸ h⟩
  rw [List.all_eq_true, hall, isValid_runFrom_iff (hstart ▸ hk) (hdirect k), Value.classId_shape,
    Unserved.Undisturbed, hstart]
  exact and_iff_right nofun

theorem buildable_iff_latest (hu : latest? {} t name shape events = some u) :
    (u.resolution t).Buildable ((run events).world.site t).options ↔ (u.tokens? t).isSome = true := by
  rw [options_of_latest hu, Unserved.isSome_tokens_iff]

/-- What the chain remembers for a send that begins now. -/
theorem recalled_of_next {call : Call} (hun : Uninterrupted {} (events ++ [.begin t call]))
    (hm : ((run events).world.site t).chain.isMegamorphic = false) :
    (((run events).world.site t).chain.branch? call.name call.receiver.shape).map Branch.tokens =
      (latest? {} t call.name call.receiver.shape events).bind fun u => u.tokens? t := by
  refine remembered_run (Throughout.concat.mp hun).1 hm ?_
  rintro ⟨i, _, pause, hi, _⟩
  cases hun.eq_resume hi

/-- The four ways of a send, each with what the history says of it. -/
theorem route_of_latest {call : Call} (hun : Uninterrupted {} (events ++ [.begin t call]))
    (hdirect : ∀ k, .act (.invalidateToken k) ∉ events) :
    let w := (run events).world
    let latest := latest? {} t call.name call.receiver.shape events
    (w.route t call = .megamorphic ∧ (w.site t).chain.isMegamorphic = true) ∨
    ((w.site t).chain.isMegamorphic = false ∧
      ((w.route t call = .miss ∧ ∀ u ∈ latest, ¬ (u.resolution t).Buildable (w.site t).options) ∨
        ∃ u, latest = some u ∧ (u.resolution t).Buildable (w.site t).options ∧
          ((w.route t call = .hit ∧ u.Undisturbed t call.receiver.classId) ∨
            (w.route t call = .repair ∧ ¬ u.Undisturbed t call.receiver.classId)))) := by
  intro w latest
  have hroute := World.route_eq (counted_run events t) ((coherent_run events).chains t).wellFormed call
  by_cases hm : (w.site t).chain.isMegamorphic = true
  · rw [if_pos hm] at hroute
    exact .inl ⟨hroute, hm⟩
  rw [if_neg hm] at hroute
  rw [Bool.not_eq_true] at hm
  have hrecalled := recalled_of_next hun hm
  refine .inr ⟨hm, ?_⟩
  cases hb : (w.site t).chain.branch? call.name call.receiver.shape with
  | none =>
    rw [hb] at hroute hrecalled
    refine .inl ⟨hroute, fun u hu hbuild => ?_⟩
    have hnone : u.tokens? t = none :=
      Option.bind_eq_none_iff.mp hrecalled.symm u (Option.mem_def.mp hu)
    have hsome := (buildable_iff_latest hu).mp hbuild
    rw [hnone] at hsome
    cases hsome
  | some b =>
    rw [hb] at hroute hrecalled
    obtain ⟨u, hu, htokens⟩ := Option.bind_eq_some_iff.mp hrecalled.symm
    have hvalid := isValid_iff_latest hu hdirect htokens
    rw [Value.classId_shape] at hvalid
    refine .inr ⟨u, hu, (buildable_iff_latest hu).mpr (htokens ▸ rfl), ?_⟩
    by_cases hv : b.isValid w.isValid = true
    · exact .inl ⟨hroute.trans (if_pos hv), hvalid.mp hv⟩
    · exact .inr ⟨hroute.trans (if_neg hv), fun hu => hv (hvalid.mpr hu)⟩

end Run

/-- In a run in which nothing comes between the lookups of a send and its publication, and no token is
invalidated directly, a send is served from the cache exactly if its site is not megamorphic, the
latest send of the message to a receiver of the shape that the site did not serve had something to
publish, and since then nothing has changed the class of the receiver or anything above it. If only
the last of the three fails the send repairs, if the second does it misses, and on a megamorphic site
it looks up. A send is counted as what it is. -/
theorem served_iff_undisturbed (before : List (Event β)) (t : SiteId) (call : Call)
    (ht : t.place < (run before).world.sites.size)
    (hun : Uninterrupted {} (before ++ [.begin t call]))
    (hdirect : ∀ k, .act (.invalidateToken k) ∉ before) :
    let σ := run before
    let x := σ.world.site t
    let c := call.receiver.classId
    let latest := latest? {} t call.name call.receiver.shape before
    (σ.world.route t call = .hit ↔ x.chain.state ≠ .megamorphic ∧
      ∃ u ∈ latest, (u.resolution t).Buildable x.options ∧ u.Undisturbed t c) ∧
    (σ.world.route t call = .repair ↔ x.chain.state ≠ .megamorphic ∧
      ∃ u ∈ latest, (u.resolution t).Buildable x.options ∧ ¬ u.Undisturbed t c) ∧
    (σ.world.route t call = .miss ↔ x.chain.state ≠ .megamorphic ∧
      ¬ ∃ u ∈ latest, (u.resolution t).Buildable x.options) ∧
    (σ.world.route t call = .megamorphic ↔ x.chain.state = .megamorphic) ∧
    ((σ.step (.begin t call)).world.site t).stats = x.stats.countBegin (σ.world.route t call) ∧
    ∀ (later : List (Event β)) (landing : Landing β) (result : Except Failure Value),
      let ρ := run (before ++ .begin t call :: later)
      ρ.sends[σ.sends.size]? = some ⟨t, call, .flying (.landed landing)⟩ →
      ((ρ.step (.finish σ.sends.size result)).world.site t).stats =
        (ρ.world.site t).stats.countEnd (σ.world.route t call) := by
  intro σ x c latest
  obtain ⟨hbegin, hcounted⟩ := counted_by_route ht call
  have hend : ∀ (later : List (Event β)) (landing : Landing β) (result : Except Failure Value),
      let ρ := run (before ++ .begin t call :: later)
      ρ.sends[σ.sends.size]? = some ⟨t, call, .flying (.landed landing)⟩ →
      ((ρ.step (.finish σ.sends.size result)).world.site t).stats =
        (ρ.world.site t).stats.countEnd (σ.world.route t call) := by
    intro later landing result ρ
    rw [show ρ = (σ.step (.begin t call)).runFrom later from run_append before _]
    exact hcounted later landing result
  have hstate : x.chain.state = .megamorphic ↔ x.chain.isMegamorphic = true :=
    Chain.state_eq_megamorphic
  obtain ⟨hr, hm⟩ | ⟨hm, ⟨hr, hno⟩ | ⟨u, hu, hb, ⟨hr, hund⟩ | ⟨hr, hdist⟩⟩⟩ :=
    route_of_latest hun hdirect
  · refine ⟨?_, ?_, ?_, ?_, hbegin, hend⟩ <;> simp [σ, x, hstate, hr, hm]
  · refine ⟨?_, ?_, ?_, ?_, hbegin, hend⟩ <;> simp_all [σ, x, latest]
  · refine ⟨?_, ?_, ?_, ?_, hbegin, hend⟩ <;> simp [σ, x, latest, c, hstate, hr, hm, hu, hb, hund]
  · refine ⟨?_, ?_, ?_, ?_, hbegin, hend⟩ <;> simp [σ, x, latest, c, hstate, hr, hm, hu, hb, hdist]

/-- A method for the integers does not cost the receiver `true` its hit. -/
theorem served_iff_undisturbed_warmSite :
    let before : List (Event Unit) :=
      warmSite ++ [.act (.defineMethod .integer { name := "m", body := () })]
    let call : Call := { name := "m", receiver := .bool true }
    let x := (run before).world.site ⟨0⟩
    0 < (run before).world.sites.size ∧ Uninterrupted {} (before ++ [.begin ⟨0⟩ call]) ∧
      (∀ k, .act (.invalidateToken k) ∉ before) ∧ (run before).world.route ⟨0⟩ call = .hit ∧
      ∃ u ∈ latest? {} ⟨0⟩ "m" (.bool true) before, (u.resolution ⟨0⟩).Buildable x.options ∧
        u.Undisturbed ⟨0⟩ .trueClass := by
  intro before call x
  have hs : 0 < (run before).world.sites.size := by decide +kernel
  have hun : Uninterrupted {} (before ++ [.begin ⟨0⟩ call]) := by decide +kernel
  have hdirect : ∀ k, .act (.invalidateToken k) ∉ before := fun k => by simp [before, warmSite]
  have hroute : (run before).world.route ⟨0⟩ call = .hit := by decide +kernel
  obtain ⟨_, hlatest⟩ := (served_iff_undisturbed before ⟨0⟩ call hs hun hdirect).1.mp hroute
  exact ⟨hs, hun, hdirect, hroute, hlatest⟩

end System
end InlineCache
