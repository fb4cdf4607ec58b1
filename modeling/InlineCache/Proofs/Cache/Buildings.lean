import InlineCache.Proofs.Cache.Occupancy
import InlineCache.Proofs.Chain.Posting
import InlineCache.Proofs.World.Census
import InlineCache.Proofs.World.Invokers

/-! The branches of a run. A branch is built where a publication calls for one, and nowhere else; what the
publication then does to the chain decides whether the branch gets into it, or is dropped as the site
becomes megamorphic. Copies are made for these branches alone. -/
namespace InlineCache

variable {β : Type}

/-- A branch that a publication builds: for which site and its invoker, which message and shape, what the
publication does to the chain, and the branch. -/
structure Building (β : Type) where
  site : SiteId
  invoker : Nat
  name : String
  shape : Shape
  change : Change
  branch : Branch β

/-- Whether an invoker has made a copy for the branch. -/
def Building.isCopyOf (j : Nat) (p : Building β) : Bool :=
  p.invoker == j && p.branch.target.cloned

/-- What a publication has to say of the branch that it builds. -/
def World.building (w : World β) (s : SiteId) (call : Call) (res : Resolution β)
    (branch : Branch β) : Building β where
  site := s
  invoker := (w.site s).invoker
  name := call.name
  shape := call.receiver.shape
  change := w.change s call res
  branch := branch

namespace System

/-- The branch that an event builds. -/
def building? (σ : System β) : Event β → Option (Building β)
  | .resume i => match σ.sends[i]? with
    | some { site, call, stage := .flying (.paused pause) } =>
      if σ.world.publishes site pause = true ∧
          (σ.world.change site call pause.resolution).needsBranch = true then
        (σ.world.built? site pause.resolution).map (σ.world.building site call pause.resolution)
      else none
    | _ => none
  | .act _ | .begin _ _ | .finish _ _ => none

theorem building?_eq_some {σ : System β} {e : Event β} {p : Building β} :
    σ.building? e = some p ↔ ∃ t call res branch, σ.published? t e = some (call, res) ∧
      (σ.world.change t call res).needsBranch = true ∧ σ.world.built? t res = some branch ∧
      σ.world.building t call res branch = p := by
  constructor
  · intro h
    cases e with
    | resume i =>
      simp only [building?] at h
      split at h
      · rename_i site call pause hi
        rw [Option.ite_none_right_eq_some, Option.map_eq_some_iff] at h
        obtain ⟨⟨hpub, hneeds⟩, branch, hb, hp⟩ := h
        exact ⟨site, call, pause.resolution, branch,
          published?_eq_some.mpr ⟨i, pause, rfl, hi, hpub, rfl⟩, hneeds, hb, hp⟩
      · cases h
    | _ => cases h
  · rintro ⟨t, call, res, branch, hpub, hneeds, hb, rfl⟩
    obtain ⟨i, pause, rfl, hi, hlast, rfl⟩ := published?_eq_some.mp hpub
    simp [building?, hi, hlast, hneeds, hb]

/-- What a publication builds. -/
theorem building?_of_published {σ : System β} {e : Event β} {t : SiteId} {call : Call}
    {res : Resolution β} (h : σ.published? t e = some (call, res)) :
    σ.building? e = if (σ.world.change t call res).needsBranch = true then
      (σ.world.built? t res).map (σ.world.building t call res) else none := by
  obtain ⟨i, pause, rfl, hi, hlast, rfl⟩ := published?_eq_some.mp h
  simp [building?, hi, hlast]

/-- The branches that are built in the course of events. -/
def buildings (σ : System β) : List (Event β) → List (Building β)
  | [] => []
  | e :: rest => (σ.building? e).toList ++ (σ.step e).buildings rest

theorem buildings_append (σ : System β) (es fs : List (Event β)) :
    σ.buildings (es ++ fs) = σ.buildings es ++ (σ.runFrom es).buildings fs := by
  induction es generalizing σ with
  | nil => rfl
  | cons e rest ih => rw [List.cons_append, buildings, buildings, ih, List.append_assoc, runFrom_cons]

theorem buildings_concat (σ : System β) (es : List (Event β)) (e : Event β) :
    σ.buildings (es ++ [e]) = σ.buildings es ++ ((σ.runFrom es).building? e).toList := by
  rw [buildings_append, buildings, buildings, List.append_nil]

/-- A branch is built for a change that calls for one. -/
theorem needsBranch_of_building {σ : System β} {events : List (Event β)} {p : Building β}
    (h : p ∈ σ.buildings events) : p.change.needsBranch = true := by
  induction events generalizing σ with
  | nil => cases h
  | cons e rest ih =>
    rw [buildings, List.mem_append, Option.mem_toList] at h
    obtain h | h := h
    · obtain ⟨_, _, _, _, _, hneeds, _, rfl⟩ := building?_eq_some.mp h
      exact hneeds
    · exact ih h

/-- A megamorphic site builds no branches any more. -/
theorem growing_of_building {σ : System β} {e : Event β} {p : Building β}
    (h : σ.building? e = some p) : (σ.world.site p.site).chain.isMegamorphic = false := by
  obtain ⟨t, call, res, branch, _, hneeds, _, rfl⟩ := building?_eq_some.mp h
  rw [Bool.eq_false_iff]
  intro (hm : (σ.world.site t).chain.isMegamorphic = true)
  rw [World.change, Chain.plan_of_isMegamorphic hm] at hneeds
  cases hneeds

/-- What a publication puts into a chain is there then. -/
theorem branch_of_posted {events : List (Event β)} {e : Event β} {p : Building β}
    (h : (run events).building? e = some p) (hposts : p.change.posts = true) :
    (((run events).step e).world.site p.site).chain.branch? p.name p.shape = some p.branch := by
  have hgrowing := growing_of_building h
  obtain ⟨t, call, res, branch, hpub, _, hb, rfl⟩ := building?_eq_some.mp h
  obtain ⟨_, _, _, hi, _⟩ := published?_eq_some.mp hpub
  have hcoherent := coherent_run events
  have hw := (hcoherent.chains t).wellFormed
  have hsite := site_of_published hpub (inside_run hi)
  obtain ⟨effect, he⟩ := hcoherent.exists_effect t call res
  have hm : (((run events).world.site t).chain.published (run events).world.isValid
      ((run events).world.site t).bound call.name call.receiver.shape
      ((run events).world.built? t res)).isMegamorphic = false := by
    rw [Bool.eq_false_iff, Ne, Chain.isMegamorphic_published hw, not_or]
    refine ⟨Bool.eq_false_iff.mp hgrowing, fun hcollapse => ?_⟩
    cases (congrArg Change.posts hcollapse).symm.trans hposts
  obtain ⟨_, hstale⟩ := (Chain.posts_plan_iff hw hm).mp hposts
  rw [World.building, hsite, he.branch_eq hw hm, if_pos ⟨rfl, rfl⟩, hstale, Option.none_or, hb]

end System
end InlineCache
