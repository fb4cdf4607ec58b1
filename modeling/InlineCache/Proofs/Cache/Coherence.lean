import InlineCache.Proofs.Cache.Backing
import InlineCache.Proofs.World.Sends

/-! Coherence of the caches with the registry under every interleaving. One invariant carries it:
every cached branch, and every resolution that a waiting send holds, was made of lookups whose
answers are still the answers of now wherever their tokens are still valid. A mutation ends the
tokens it has to end, so it keeps the invariant; a publication turns a resolution into a branch,
however late it comes. -/
namespace InlineCache

variable {β : Type}

/-- The invariant: what branches and waiting sends know was true once, and is true unless a token
has ended. -/
structure System.Coherent (σ : System β) : Prop where
  registry : σ.world.registry.WellFormed
  chains : ∀ t : SiteId, (σ.world.site t).chain.Every fun name shape b =>
    b.Backed σ.world.registry (σ.world.site t).options name shape
  pauses : ∀ (i : Nat) (s : SiteId) (call : Call) (pause : Pause β),
    σ.sends[i]? = some ⟨s, call, .flying (.paused pause)⟩ →
      s.place < σ.world.sites.size ∧ pause.resolution.Stands σ.world.registry
        call.receiver.classId call.name (σ.world.site s).options.ignoreVisibility

theorem World.backed_of_built {w : World β} {s : SiteId} {res : Resolution β} {name : String}
    {shape : Shape} {b : Branch β}
    (hs : res.Stands w.registry shape.classId name (w.site s).options.ignoreVisibility)
    (hb : w.built? s res = some b) : b.Backed w.registry (w.site s).options name shape := by
  obtain ⟨⟨tokens, recipe⟩, hr, rfl⟩ := Option.map_eq_some_iff.mp hb
  refine ⟨res, hs, recipe, ?_, w.realizes_buildBranch _ tokens recipe⟩
  rw [hr, w.tokens_buildBranch]

namespace System

theorem chain_of_not_lt {σ : System β} {t : SiteId} (h : ¬ t.place < σ.world.sites.size) :
    (σ.world.site t).chain = {} := by
  rw [World.site_of_not_lt h]
  rfl

theorem every_of_empty {P : String → Shape → Branch β → Prop} {c : Chain β} (h : c = {}) :
    c.Every P := fun _ hn => absurd (h ▸ hn) List.not_mem_nil

theorem evolves_step {σ : System β} (h : σ.world.registry.WellFormed) (e : Event β) :
    Registry.Evolves σ.world.registry (σ.step e).world.registry := evolves_runFrom h [e]

/-- The branches of a site after an event, measured by the registry before it. -/
theorem Coherent.chain_step {σ : System β} (h : σ.Coherent) (e : Event β) (t : SiteId) :
    ((σ.step e).world.site t).chain.Every fun name shape b =>
      b.Backed σ.world.registry (σ.world.site t).options name shape := by
  obtain hkeep | ⟨_, hnew⟩ | ⟨call, _, _, hwalk⟩ | ⟨i, call, pause, _, _, hsend, hpub⟩ :=
    System.chain_step σ e t
  · rw [hkeep]
    exact h.chains t
  · exact every_of_empty hnew
  · rw [hwalk]
    exact (h.chains t).walked (fun _ _ _ _ hb => ⟨hb.exists_resolution⟩) σ.world.isValid call
  · rw [hpub]
    obtain ⟨effect, he⟩ := Chain.effect_published (h.chains t).wellFormed
    refine he.every (h.chains t) fun b hb => World.backed_of_built ?_ hb
    rw [Value.classId_shape]
    exact (h.pauses i t call pause hsend).2

/-- What a waiting send holds after an event. -/
theorem Coherent.pause_step {σ : System β} (h : σ.Coherent) (e : Event β) {i : Nat} {s : SiteId}
    {call : Call} {pause : Pause β}
    (hi : (σ.step e).sends[i]? = some ⟨s, call, .flying (.paused pause)⟩) :
    s.place < σ.world.sites.size ∧ pause.resolution.Stands σ.world.registry
      call.receiver.classId call.name (σ.world.site s).options.ignoreVisibility := by
  obtain hsame | ⟨_, hs, _, hstage⟩ | ⟨before, _, hbefore, hstage⟩ | ⟨_, _, _, _, hstage⟩ :=
    sends_step hi
  · exact h.pauses i s call pause hsame
  · rw [Stage.flying.injEq] at hstage
    obtain ⟨_, route, rfl⟩ := World.begin_paused hstage.symm
    exact ⟨hs, Registry.classId_resolve _ _ _ _, stands_resolve h.registry _ _ _, nofun, nofun⟩
  · rw [Stage.flying.injEq] at hstage
    obtain ⟨route, lookup, rfl, _, rfl⟩ := World.resume_paused hstage.symm
    obtain ⟨hs, hstands⟩ := h.pauses i s call _ hbefore
    refine ⟨hs, hstands.classId, hstands.lookup, ?_, ?_⟩
    · intro lk hlk
      rw [← Option.some.inj hlk]
      exact Registry.classId_resolve _ _ _ _
    · intro lk hlk
      rw [← Option.some.inj hlk]
      exact stands_resolve h.registry _ _ _
  · cases hstage

theorem Coherent.step {σ : System β} (h : σ.Coherent) (e : Event β) : (σ.step e).Coherent := by
  have hev := evolves_step h.registry e
  have hoptions : ∀ t : SiteId, t.place < σ.world.sites.size →
      ((σ.step e).world.site t).options = (σ.world.site t).options :=
    fun t ht => Site.options_of_setup (setup_step σ e ht)
  refine ⟨wellFormed_step h.registry e, ?_, ?_⟩
  · intro t
    by_cases ht : t.place < σ.world.sites.size
    · rw [hoptions t ht]
      exact (h.chain_step e t).mono fun _ _ _ hb => hb.evolve hev
    · obtain hkeep | ⟨_, hnew⟩ | ⟨_, _, hlt, _⟩ | ⟨_, _, _, _, hlt, _⟩ := System.chain_step σ e t
      · exact every_of_empty (hkeep.trans (chain_of_not_lt ht))
      · exact every_of_empty hnew
      · exact absurd hlt ht
      · exact absurd hlt ht
  · intro i s call pause hi
    obtain ⟨hs, hstands⟩ := h.pause_step e hi
    exact ⟨Nat.lt_of_lt_of_le hs (grown_step σ e).sites, hoptions s hs ▸ hstands.evolve hev⟩

theorem coherent_run (events : List (Event β)) : (run events).Coherent := by
  refine run_induct ?_ (fun σ e h => h.step e) events
  refine ⟨Registry.wellFormed_builtin, fun t => every_of_empty (chain_of_not_lt ?_), ?_⟩
  · exact Nat.not_lt_zero _
  · exact fun i s call pause hi => absurd hi (by simp)

/-- What a waiting send looked up before a change of the class of its receiver, or of a class above,
is of no use to a cache from then on. -/
theorem not_isValid_built {before mid after later : List (Event β)} {e : Event β} {i : Nat}
    {s : SiteId} {call : Call} {pause pause' : Pause β} {d : ClassId} {b : Branch β}
    (hi : (run before).sends[i]? = some ⟨s, call, .flying (.paused pause)⟩)
    (hd : changed? (run (before ++ mid)) e = some d)
    (hc : (run (before ++ mid)).world.registry.inherits call.receiver.classId d = true)
    (hi' : (run (before ++ (mid ++ e :: after))).sends[i]? = some ⟨s, call, .flying (.paused pause')⟩)
    (hb : (run (before ++ (mid ++ e :: after))).world.built? s pause'.resolution = some b) :
    b.isValid (run (before ++ (mid ++ e :: (after ++ later)))).world.isValid = false := by
  have hcoherent := coherent_run before
  obtain ⟨_, hstands⟩ := hcoherent.pauses i s call pause hi
  obtain ⟨⟨tokens, recipe⟩, hr, rfl⟩ := Option.map_eq_some_iff.mp hb
  rw [run_append] at hd hc hi' ⊢
  obtain ⟨_, _, hlookup⟩ := lookup_runFrom hi _ hi'
  obtain ⟨hcacheable, hcases⟩ := Resolution.recipe_cases hr
  rw [hlookup] at hcacheable hcases
  cases ht : pause.resolution.lookup.token with
  | none => cases hcacheable.symm.trans (hstands.lookup.undefined ht)
  | some t =>
    have hmem : t ∈ tokens := by
      obtain ⟨_, _, _, _, htok⟩ | ⟨_, _, _, _, htok⟩ | ⟨_, _, _, _, _, _, _, _, _, htok⟩ := hcases <;>
        simp [htok, ht]
    have hover : ((run before).runFrom (mid ++ e :: (after ++ later))).world.isValid t = false := by
      cases hv : (run before).world.registry.tokens.isValid t with
      | true =>
        refine not_isValid_runFrom hcoherent.registry ?_ hd hc
        rw [← hstands.classId, ← Registry.token_resolve, hstands.lookup.answer t ht hv, ht]
      | false =>
        rw [Bool.eq_false_iff]
        intro hvalid
        have hold := (evolves_runFrom hcoherent.registry _).ended t (hstands.lookup.made t ht) hvalid
        cases hold.symm.trans hv
    rw [Bool.eq_false_iff]
    intro hvalid
    have hall := List.all_eq_true.mp hvalid t (by rwa [World.tokens_buildBranch])
    cases hall.symm.trans hover

/-- In every reachable state, also in the middle of sends, a cached branch that is valid says what
the lookups of its class say now; and a resolution that a send made before a change of the class
and publishes after it never yields a branch that is valid, then or later. -/
theorem valid_branch_agrees (events : List (Event β)) :
    (∀ (t : SiteId) (n : Node β) (name : String) (shape : Shape) (b : Branch β),
      n ∈ ((run events).world.site t).chain.nodes → n.branch? name shape = some b →
      b.isValid (run events).world.isValid = true →
      b.target.Agrees (run events).world.registry ((run events).world.site t).options
          shape.classId name ∧
        ((run events).world.registry.resolve shape.classId name
          ((run events).world.site t).options.ignoreVisibility).cacheable = true) ∧
    ∀ (before mid after later : List (Event β)) (e : Event β),
      events = before ++ (mid ++ e :: after) →
      ∀ (i : Nat) (s : SiteId) (call : Call) (pause pause' : Pause β) (d : ClassId) (b : Branch β),
        (run before).sends[i]? = some ⟨s, call, .flying (.paused pause)⟩ →
        changed? (run (before ++ mid)) e = some d →
        (run (before ++ mid)).world.registry.inherits call.receiver.classId d = true →
        (run events).sends[i]? = some ⟨s, call, .flying (.paused pause')⟩ →
        (run events).world.built? s pause'.resolution = some b →
        b.isValid (run (before ++ (mid ++ e :: (after ++ later)))).world.isValid = false := by
  constructor
  · intro t n name shape b hn hb hv
    exact ((((coherent_run events).chains t) n hn).branches name shape b hb).agrees hv
  · rintro before mid after later e rfl i s call pause pause' d b hi hd hc hi' hb
    exact not_isValid_built hi hd hc hi' hb

/-- A site that has cached a copy of a method for the receiver `true`. -/
def warmSite : List (Event Unit) :=
  [.act (.addInvoker true), .act (.addSite "m" {} 8 0),
    .act (.defineMethod .object { name := "m", alwaysClone := true, body := () }),
    .begin ⟨0⟩ { name := "m", receiver := .bool true }, .resume 0]

/-- The branch that the site has cached is valid and agrees. Were `true` to get a method of its own
before the send goes on, the send would cache what it had looked up all the same, and in vain. -/
theorem valid_branch_agrees_warmSite :
    let call : Call := { name := "m", receiver := .bool true }
    let before := warmSite.take 4
    let change : Event Unit := .act (.defineMethod .trueClass { name := "m", body := () })
    let overtaken := before ++ [change, .resume 0]
    let found : MethodDef Unit := { name := "m", alwaysClone := true, body := () }
    let pause : Pause Unit := .lookedUp .miss ⟨.trueClass, some ⟨found, 1, .object⟩, some ⟨10⟩, true⟩
    let branch (id : Nat) : Branch Unit := ⟨[⟨10⟩], .direct ⟨⟨found, id, .object⟩, true⟩, 0⟩
    let node (id : Nat) : Node Unit := .boolean ⟨"m", .boolean⟩ none (some (branch id))
    (((run warmSite).world.site ⟨0⟩).chain.nodes = [node 2] ∧
      (branch 2).isValid (run warmSite).world.isValid = true ∧
      (branch 2).target.Agrees (run warmSite).world.registry
        ((run warmSite).world.site ⟨0⟩).options .trueClass "m") ∧
    (run before).sends[0]? = some ⟨⟨0⟩, call, .flying (.paused pause)⟩ ∧
    changed? (run before) change = some .trueClass ∧
    (run (before ++ [change])).sends[0]? = some ⟨⟨0⟩, call, .flying (.paused pause)⟩ ∧
    (run (before ++ [change])).world.built? ⟨0⟩ pause.resolution = some (branch 3) ∧
    ((run overtaken).world.site ⟨0⟩).chain.nodes = [node 3] ∧
    (branch 3).isValid (run overtaken).world.isValid = false := by
  intro call before change overtaken found pause branch node
  have hwarm : ((run warmSite).world.site ⟨0⟩).chain.nodes = [node 2] := by decide +kernel
  have hvalid : (branch 2).isValid (run warmSite).world.isValid = true := by decide +kernel
  obtain ⟨hagrees, _⟩ := (valid_branch_agrees warmSite).1 ⟨0⟩ (node 2) "m" (.bool true) (branch 2)
    (hwarm ▸ List.mem_singleton_self _) rfl hvalid
  -- the send waits with what it looked up, before the change and after it
  have hwaits : (run before).sends[0]? = some ⟨⟨0⟩, call, .flying (.paused pause)⟩ := by
    with_unfolding_all rfl
  have hchange : changed? (run before) change = some .trueClass := by decide +kernel
  have habove : (run before).world.registry.inherits call.receiver.classId .trueClass = true := by
    decide +kernel
  have hwaits' : (run (before ++ [change])).sends[0]? =
      some ⟨⟨0⟩, call, .flying (.paused pause)⟩ := by with_unfolding_all rfl
  have hbuilt : (run (before ++ [change])).world.built? ⟨0⟩ pause.resolution = some (branch 3) := by
    decide +kernel
  have hpublished : ((run overtaken).world.site ⟨0⟩).chain.nodes = [node 3] := by decide +kernel
  have hstale := (valid_branch_agrees (before ++ [change])).2 before [] [] [.resume 0] change rfl 0
    ⟨0⟩ call pause pause .trueClass (branch 3) hwaits (by simpa using hchange) (by simpa using habove)
    hwaits' hbuilt
  exact ⟨⟨hwarm, hvalid, hagrees⟩, hwaits, hchange, hwaits', hbuilt, hpublished, hstale⟩

end System
end InlineCache
