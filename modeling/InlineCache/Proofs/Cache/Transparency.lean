import InlineCache.Proofs.Cache.Coherence

/-! Transparency of the caches. A send with nothing between its stages does what full dispatch would
do in the same state, whichever way it takes: a valid branch says what the lookups of now say, and
off the cached way the lookups are made there and then. -/
namespace InlineCache

variable {β : Type}

/-- What a send comes to is a decision carried out. A method body is run with the receiver, the
arguments and the block of the decision; where a branch served the call, the method may be a copy. -/
inductive Landing.Carries : Landing β → Decision β → Prop where
  | invoke {route : Route} {done due : Activation β} (copy : done.method.IsCopy due.method)
      (same : route ≠ .hit → done.method = due.method) (receiver : done.receiver = due.receiver)
      (args : done.args = due.args) (block : done.block = due.block) :
      Carries (.running route done) (.invoke due)
  | responds (route : Route) (answer : Bool) :
      Carries (.finished route (.ok (.responds answer))) (.responds answer)
  | missing (route : Route) : Carries (.finished route (.ok .missing)) .missing
  | noMethod (route : Route) (name className : String) :
      Carries (.finished route (.error (.noMethod name className))) (.noMethod name className)

namespace World

theorem carries_carryOut (w : World β) (s : SiteId) (route : Route) (decision : Decision β) :
    (w.carryOut s route decision).2.Carries decision := by
  cases decision with
  | invoke activation => exact .invoke ⟨rfl, rfl⟩ (fun _ => rfl) rfl rfl rfl
  | responds answer => exact .responds route answer
  | missing => exact .missing route
  | noMethod name className => exact .noMethod route name className

theorem carries_settle (w : World β) (s : SiteId) (call : Call) (route : Route)
    (res : Resolution β) : (w.settle s call route res).2.Carries
      (res.decide (w.site s).options call (w.registry.className call.receiver.classId)) := by
  have hoptions : ((w.publish s call res).site s).options = (w.site s).options :=
    Site.options_of_setup (setup_publish w s call res s)
  rw [settle]
  split
  · exact carries_carryOut w s route _
  · rw [hoptions, registry_publish]
    exact carries_carryOut _ s route _

theorem land_paused (w : World β) (s : SiteId) (call : Call) (pause : Pause β) :
    w.land s call (.paused pause) =
      (w.resume s call pause).1.land s call (w.resume s call pause).2 := by
  rw [land]

theorem land_landed (w : World β) (s : SiteId) (call : Call) (landing : Landing β) :
    w.land s call (.landed landing) = (w, landing) := by
  rw [land]

/-- A send that has made its first lookup in the state it is in. -/
theorem carries_land (w : World β) (s : SiteId) (call : Call) (route : Route) :
    (w.land s call (.paused (.lookedUp route
        (w.registry.lookup (w.site s).options call)))).2.Carries
      (w.registry.dispatch (w.site s).options call) := by
  rw [land_paused, Registry.dispatch, Registry.resolution]
  simp only [resume]
  split
  · rw [land_paused]
    simp only [resume, land_landed]
    exact carries_settle w s call route _
  · rw [land_landed]
    exact carries_settle w s call route _

theorem carries_lookUp (w : World β) (s : SiteId) (call : Call) (route : Route) :
    ((w.lookUp s call route).1.land s call (w.lookUp s call route).2).2.Carries
      (w.registry.dispatch (w.site s).options call) := by
  have h := carries_land (w.lookUp s call route).1 s call route
  rw [options_lookUp] at h
  rw [pause_lookUp]
  exact h

/-- A walk that is served comes to a valid branch for the message and the shape of the receiver. -/
theorem branch_of_served {w : World β} {s : SiteId} {call : Call} {target : Target β}
    (hw : ∀ n ∈ (w.site s).chain.nodes, n.WellFormed) (h : w.verdict s call = .served target) :
    ∃ n b, n ∈ (w.site s).chain.nodes ∧ n.branch? call.name call.receiver.shape = some b ∧
      b.isValid w.isValid = true ∧ b.target = target := by
  rw [verdict] at h
  cases hp : (w.site s).chain.position? call.name call.receiver.shape with
  | none =>
    rw [Links.walk_of_not_covers w.isValid (Chain.not_covers_of_position hp)] at h
    have hend : ∀ l : Links β, l.terminal ≠ .served target := by
      intro l hl
      induction l with
      | cached n r ih => exact ih hl
      | generic => cases hl
      | megamorphic => cases hl
    exact absurd h (hend _)
  | some i =>
    obtain ⟨n, hn⟩ := Chain.inCharge_of_position hp
    obtain ⟨_, hverdict⟩ := Links.walk_of_covers w.isValid (hw n hn.mem) hn.position hn.node
    rw [hverdict] at h
    cases hb : n.branch? call.name call.receiver.shape with
    | none =>
      rw [hb] at h
      cases h
    | some b =>
      simp only [hb, enterSlot, Branch.enter] at h
      split at h
      · rename_i hv
        exact ⟨n, b, hn.mem, hb, hv, Verdict.served.inj h⟩
      · cases h

/-- A target that agrees with the lookups serves a call as full dispatch decides it. -/
theorem carries_serve (w : World β) (s : SiteId) (call : Call) {target : Target β}
    (h : target.Agrees w.registry (w.site s).options call.receiver.classId call.name) :
    (w.serve s call target).2.Carries (w.registry.dispatch (w.site s).options call) := by
  rw [Registry.dispatch, Registry.resolution]
  cases h with
  | direct action found calls =>
    simp only [Resolution.decide, serve, action, Registry.lookup, found]
    exact .invoke calls.copy (fun hne => absurd rfl hne) rfl rfl rfl
  | handler action missing unfound found calls =>
    have hwants : (w.site s).options.wantsHandler (w.registry.lookup (w.site s).options call) =
        true := by
      simp [SiteOptions.wantsHandler, Registry.lookup, action, missing, unfound]
    rw [if_pos hwants]
    simp only [Resolution.decide, serve, action, missing, Registry.lookup, Registry.lookupHandler,
      unfound, Resolution.handlerMethod?, Option.bind_some, found]
    exact .invoke calls.copy (fun hne => absurd rfl hne) rfl rfl rfl
  | probe action found =>
    simp only [Resolution.decide, serve, action, Registry.lookup, found]
    exact .responds .hit true

end World

/-- In every reachable state, a send on any site with nothing between its stages carries out the
decision that full dispatch takes in that state. -/
theorem System.dispatch_carries (events : List (Event β)) (s : SiteId) (call : Call) :
    ((run events).world.dispatch s call).2.Carries
      ((run events).world.registry.dispatch ((run events).world.site s).options call) := by
  have hcoherent := coherent_run events
  generalize run events = σ at hcoherent
  have hoptions := World.options_walkSite σ.world s call
  have hlook : ∀ route, (((σ.world.walkSite s call).lookUp s call route).1.land s call
      ((σ.world.walkSite s call).lookUp s call route).2).2.Carries
        (σ.world.registry.dispatch (σ.world.site s).options call) := by
    intro route
    rw [← hoptions]
    exact World.carries_lookUp (σ.world.walkSite s call) s call route
  simp only [World.dispatch, World.begin_eq]
  cases hverdict : σ.world.verdict s call with
  | served target =>
    obtain ⟨n, b, hn, hb, hv, rfl⟩ := World.branch_of_served (hcoherent.chains s).wellFormed hverdict
    have hagrees := (((hcoherent.chains s) n hn).branches _ _ b hb).agrees hv
    rw [Value.classId_shape] at hagrees
    simp only [World.land_landed]
    rw [← hoptions] at hagrees ⊢
    exact World.carries_serve (σ.world.walkSite s call) s call hagrees.1
  | repair => exact hlook .repair
  | generic => exact hlook .miss
  | megamorphic => exact hlook .megamorphic

end InlineCache
