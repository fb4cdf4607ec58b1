import InlineCache.Proofs.Cache.Decisions

/-! Chains fit their sites. A branch is built for the options of its site, and nothing that happens to
a chain later puts it elsewhere: a probing site holds probes alone, an invoking one calls alone, and
the booleans are kept in two-branch nodes. So the arms for branches that do not fit are never taken. -/
namespace InlineCache

variable {β : Type}

/-- A target that the sends of a site with such options know what to do with. -/
inductive Target.Fits (o : SiteOptions) : Target β → Prop where
  | direct {t : CallTarget β} (action : o.action = .invoke) : Fits o (.direct t)
  | handler {t : CallTarget β} (action : o.action = .invoke) (missing : o.missing = .callHandler) :
      Fits o (.handler t)
  | probe (action : o.action = .probe) : Fits o .probe

/-- The branches of a node that are not open. -/
def Node.branches : Node β → List (Branch β)
  | boolean _ onFalse onTrue => onFalse.toList ++ onTrue.toList
  | single _ branch => branch.toList

/-- A node as the chains of a site hold them: its branches fit the options, it is a two-branch node
exactly where it is in charge of a boolean, and no boolean is tested for as an exact shape. -/
structure Node.Fits (n : Node β) (o : SiteOptions) : Prop where
  targets : ∀ b ∈ n.branches, b.target.Fits o
  booleans : ∀ name shape, n.covers name shape = true → n.isBoolean = shape.isBool
  exact : ∀ shape, n.guard.shape = .exactly shape → shape.isBool = false

/-- What is made after a recipe of a resolution fits the options that the recipe was read by. -/
theorem Target.Realizes.fits {target : Target β} {recipe : Recipe β} (h : target.Realizes recipe)
    {res : Resolution β} {o : SiteOptions} {tokens : List TokenId}
    (hr : res.recipe? o = some (tokens, recipe)) : target.Fits o := by
  obtain ⟨_, ⟨_, ha, _, rfl, _⟩ | ⟨_, ha, _, rfl, _⟩ | ⟨_, _, ha, ho, _, _, _, _, rfl, _⟩⟩ :=
    Resolution.recipe_cases hr
  · cases h with
    | direct calls => exact .direct ha
  · cases h with
    | probe => exact .probe ha
  · cases h with
    | handler calls => exact .handler ha ho

/-- Whatever tokens it has lost, a branch was built for the options of its site. -/
theorem Branch.Backed.fits {r : Registry β} {o : SiteOptions} {name : String} {shape : Shape}
    {b : Branch β} (h : b.Backed r o name shape) : b.target.Fits o := by
  obtain ⟨res, _, recipe, hr, hreal⟩ := h
  exact hreal.fits hr

theorem World.fits_of_built {w : World β} {s : SiteId} {res : Resolution β} {b : Branch β}
    (h : w.built? s res = some b) : b.target.Fits (w.site s).options := by
  obtain ⟨⟨tokens, recipe⟩, hr, rfl⟩ := Option.map_eq_some_iff.mp h
  exact (w.realizes_buildBranch _ tokens recipe).fits hr

namespace Node

variable {n : Node β}

/-- Every branch of a node is what the node remembers for some message and shape. -/
theorem WellFormed.exists_branch (h : n.WellFormed) {b : Branch β} (hb : b ∈ n.branches) :
    ∃ name shape, n.branch? name shape = some b := by
  cases n with
  | boolean g onFalse onTrue =>
    have hc : ∀ v, (boolean g onFalse onTrue).covers g.name (.bool v) = true :=
      fun v => (covers_boolean h).mpr ⟨rfl, v, rfl⟩
    rw [branches, List.mem_append, Option.mem_toList, Option.mem_toList] at hb
    obtain hb | hb := hb
    · exact ⟨g.name, .bool false, (branch_of_slot (hc false) rfl).trans hb⟩
    · exact ⟨g.name, .bool true, (branch_of_slot (hc true) rfl).trans hb⟩
  | single g branch =>
    obtain ⟨shape, hshape, _⟩ := h
    have hc : (single g branch).covers g.name shape = true := (covers_single hshape).mpr ⟨rfl, rfl⟩
    exact ⟨g.name, shape, (branch_of_slot hc rfl).trans (Option.mem_toList.mp hb)⟩

theorem WellFormed.booleans (h : n.WellFormed) {name : String} {shape : Shape}
    (hc : n.covers name shape = true) : n.isBoolean = shape.isBool := by
  cases n with
  | boolean g onFalse onTrue =>
    obtain ⟨_, v, rfl⟩ := (covers_boolean h).mp hc
    rfl
  | single g branch =>
    obtain ⟨exact, hexact, hbool⟩ := h
    obtain ⟨_, rfl⟩ := (covers_single hexact).mp hc
    exact hbool.symm

theorem WellFormed.exact (h : n.WellFormed) {shape : Shape} (hs : n.guard.shape = .exactly shape) :
    shape.isBool = false := by
  cases n with
  | boolean g onFalse onTrue =>
    have hg : g.shape = .boolean := h
    cases hg.symm.trans hs
  | single g branch =>
    obtain ⟨exact, hexact, hbool⟩ := h
    obtain rfl := ShapeGuard.exactly.inj (hexact.symm.trans hs)
    exact hbool

end Node

theorem Call.OwnReply.ne_malformed {call : Call} {reply : Except Failure Outcome}
    (h : call.OwnReply reply) : reply ≠ .error .malformedChain := by
  cases h <;> nofun

namespace System

theorem Coherent.fits {σ : System β} (h : σ.Coherent) (s : SiteId) {n : Node β}
    (hn : n ∈ (σ.world.site s).chain.nodes) : n.Fits (σ.world.site s).options := by
  obtain ⟨hw, hbranches⟩ := h.chains s n hn
  refine ⟨fun b hb => ?_, fun _ _ hc => hw.booleans hc, fun _ hs => hw.exact hs⟩
  obtain ⟨name, shape, hb⟩ := hw.exists_branch hb
  exact (hbranches name shape b hb).fits

/-- Under every interleaving, on sites with any options: all nodes of all chains fit their sites; no
send, neither one that begins now nor one under way, comes to an arm for branches that do not
fit; and a send that ended as if it had was told so by its own method body. -/
theorem malformed_unreachable (events : List (Event β)) :
    (∀ (s : SiteId) (n : Node β), n ∈ ((run events).world.site s).chain.nodes →
      n.Fits ((run events).world.site s).options) ∧
    (∀ (s : SiteId) (call : Call) (route : Route),
      ((run events).world.begin s call).2 ≠ .landed (.finished route (.error .malformedChain))) ∧
    (∀ (i : Nat) (s : SiteId) (call : Call) (route : Route), (run events).sends[i]? ≠
      some ⟨s, call, .flying (.landed (.finished route (.error .malformedChain)))⟩) ∧
    ∀ (i : Nat) (s : SiteId) (call : Call) (route : Route),
      (run events).sends[i]? = some ⟨s, call, .ended route (.error .malformedChain)⟩ →
      .finish i (.error .malformedChain) ∈ events := by
  have hcoherent := coherent_run events
  have hdecided := decided_run events
  refine ⟨fun s n hn => hcoherent.fits s hn, fun s call route h => ?_,
    fun i s call route h => ?_, fun i s call route h => ?_⟩
  · exact (World.decided_begin hcoherent hdecided.registry h).own.ne_malformed rfl
  · exact (hdecided.landings i s call _ h).own.ne_malformed rfl
  · obtain ⟨before, result, after, landing, rfl, hi, _, hreply⟩ := ended_run h
    cases landing with
    | running route' a =>
      cases result with
      | error f =>
        obtain rfl := Except.error.inj hreply
        simp
      | ok v => cases hreply
    | finished route' reply =>
      obtain rfl : Except.error Failure.malformedChain = reply := hreply
      exact absurd rfl ((decided_run before).landings i s call _ hi).own.ne_malformed

/-- A two-branch node that fits its site, and a method body that says of itself what the site never
says. -/
theorem malformed_unreachable_warmSite :
    let events : List (Event Unit) := warmSite ++ [.finish 0 (.error .malformedChain)]
    (∃ n ∈ ((run events).world.site ⟨0⟩).chain.nodes, n.Fits ((run events).world.site ⟨0⟩).options) ∧
    (run events).sends[0]? =
      some ⟨⟨0⟩, { name := "m", receiver := .bool true }, .ended .miss (.error .malformedChain)⟩ ∧
    .finish 0 (.error .malformedChain) ∈ events := by
  intro events
  let b : Branch Unit :=
    ⟨[⟨10⟩], .direct ⟨⟨{ name := "m", alwaysClone := true, body := () }, 2, .object⟩, true⟩, 0⟩
  have hn : Node.boolean ⟨"m", .boolean⟩ none (some b) ∈
      ((run events).world.site ⟨0⟩).chain.nodes := by decide +kernel
  have hend : (run events).sends[0]? = some ⟨⟨0⟩, { name := "m", receiver := .bool true },
      .ended .miss (.error .malformedChain)⟩ := by with_unfolding_all rfl
  obtain ⟨hfits, _, _, hsaid⟩ := malformed_unreachable events
  exact ⟨⟨_, hn, hfits ⟨0⟩ _ hn⟩, hend, hsaid 0 _ _ _ hend⟩

end System
end InlineCache
