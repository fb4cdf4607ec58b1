import InlineCache.Proofs.Cache.Coherence
import InlineCache.Proofs.Cache.Buildings
import InlineCache.Proofs.World.Census

/-! The copies of an invoker against the branches that hold them. A copy is made when a branch is built, so
the counter tells how many branches with a copy were built. All of them get into a chain but one for
each site at most: the branch that makes the site megamorphic is built first and then dropped. -/
namespace InlineCache

variable {β : Type}

namespace System

/-- What an invoker copies outside of any preparation of its own is for the branch that is built. -/
theorem copies_eq {σ : System β} {j : Nat} {e : Event β} (h : ∀ m, e ≠ .act (.prepare j m)) :
    σ.copies j e = (σ.building? e).toList.countP (Building.isCopyOf j) := by
  cases e with
  | act a =>
    cases a with
    | prepare i m =>
      have hij : i ≠ j := fun hij => h m (hij ▸ rfl)
      exact if_neg fun hcopy => hij hcopy.1
    | _ => rfl
  | resume i =>
    simp only [copies, building?]
    cases σ.sends[i]? with
    | none => rfl
    | some send =>
      obtain ⟨s, call, flight | ⟨route, reply⟩⟩ := send
      · cases flight with
        | landed landing => rfl
        | paused pause =>
          simp only [World.copies]
          by_cases hpub : σ.world.publishes s pause = true
          · cases hb : σ.world.built? s pause.resolution with
            | none => simp
            | some b =>
              by_cases hneeds : (σ.world.change s call pause.resolution).needsBranch = true
              · simp [hpub, hneeds, Building.isCopyOf, World.building]
              · simp [hneeds]
          · simp [hpub]
      · rfl
  | _ => rfl

/-- The copies that an invoker makes in the course of events are those for the branches built. -/
theorem clones_runFrom {σ : System β} {j : Nat} (hj : j < σ.world.invokers.size)
    {events : List (Event β)} (h : ∀ m, .act (.prepare j m) ∉ events) :
    ((σ.runFrom events).world.invoker j).clones = (σ.world.invoker j).clones +
      (σ.buildings events).countP (Building.isCopyOf j) := by
  induction events generalizing σ with
  | nil => rfl
  | cons e rest ih =>
    simp only [List.mem_cons, not_or] at h
    have hcopies := copies_eq (σ := σ) (j := j) fun m he => (h m).1 he.symm
    rw [runFrom_cons, ih (Nat.lt_of_lt_of_le hj (grown_step σ e).invokers) fun m => (h m).2,
      (uses_step hj e).clones, hcopies, buildings, List.countP_append, Nat.add_assoc]

/-- A site becomes megamorphic where a branch is built and dropped. -/
theorem megamorphic_step (events : List (Event β)) (e : Event β) (t : SiteId) :
    (((run events).step e).world.site t).chain.isMegamorphic = true ↔
      ((run events).world.site t).chain.isMegamorphic = true ∨
      ∃ p, (run events).building? e = some p ∧ p.site = t ∧ p.change = .collapse := by
  cases hpub : (run events).published? t e with
  | none =>
    have hnone : ¬ ∃ p, (run events).building? e = some p ∧ p.site = t ∧ p.change = .collapse := by
      rintro ⟨p, hp, rfl, _⟩
      obtain ⟨t, call, res, branch, hsome, _, _, rfl⟩ := building?_eq_some.mp hp
      cases hpub.symm.trans hsome
    rw [or_iff_left hnone]
    obtain ⟨hkeep, _⟩ | ⟨hle, hnew, _⟩ | ⟨call, _, _, hbegin⟩ | ⟨_, _, hsome, _⟩ |
      ⟨_, _, _, _, _, _, _, hend⟩ := site_step (run events) e t
    · rw [hkeep]
    · rw [hnew, chain_of_not_lt (Nat.not_lt_of_le hle)]
    · rw [hbegin, Chain.isMegamorphic_walked]
    · cases hpub.symm.trans hsome
    · rw [hend]
  | some published =>
    obtain ⟨call, res⟩ := published
    obtain ⟨_, _, _, hi, _⟩ := published?_eq_some.mp hpub
    rw [site_of_published hpub (inside_run hi), building?_of_published hpub]
    have hw := ((coherent_run events).chains t).wellFormed
    refine (Chain.isMegamorphic_published hw).trans (or_congr_right ⟨fun hcollapse => ?_, ?_⟩)
    · have hneeds : ((run events).world.change t call res).needsBranch = true :=
        congrArg Change.needsBranch hcollapse
      obtain ⟨b, hb⟩ := Option.isSome_iff_exists.mp (Chain.buildable_of_needsBranch hneeds)
      refine ⟨(run events).world.building t call res b, ?_, rfl, hcollapse⟩
      rw [if_pos hneeds, hb, Option.map_some]
    · rintro ⟨p, hp, _, hcollapse⟩
      rw [Option.ite_none_right_eq_some, Option.map_eq_some_iff] at hp
      obtain ⟨_, b, _, rfl⟩ := hp
      exact hcollapse

/-- A site drops a branch once, if it becomes megamorphic, and never else. -/
theorem dropped_run (events : List (Event β)) (t : SiteId) :
    (buildings {} events).countP (fun p => p.site == t && p.change == .collapse) =
      if ((run events).world.site t).chain.isMegamorphic = true then 1 else 0 := by
  induction events using List.reverseRecOn with
  | nil =>
    rw [chain_of_not_lt (Nat.not_lt_zero _)]
    rfl
  | append_singleton es e ih =>
    have hstep := megamorphic_step es e t
    have hlast : (({} : System β).runFrom es).building? e = (run es).building? e := rfl
    rw [buildings_concat, List.countP_append, ih, run_append, runFrom_cons, runFrom_nil, hlast]
    by_cases hnow : ∃ p, (run es).building? e = some p ∧ p.site = t ∧ p.change = .collapse
    · obtain ⟨p, hp, hsite, hchange⟩ := hnow
      have hgrowing := growing_of_building hp
      rw [hsite] at hgrowing
      rw [if_pos (hstep.mpr (.inr ⟨p, hp, hsite, hchange⟩)), hgrowing, hp]
      simp [hsite, hchange]
    · rw [or_iff_left hnow] at hstep
      have hnone : ((run es).building? e).toList.countP
          (fun p => p.site == t && p.change == .collapse) = 0 := by
        rw [List.countP_eq_zero]
        intro p hp hboth
        rw [Bool.and_eq_true, beq_iff_eq, beq_iff_eq] at hboth
        exact hnow ⟨p, Option.mem_toList.mp hp, hboth⟩
      rw [hnone, Nat.add_zero]
      simp only [hstep]

/-- Branches are built for invokers that are there. -/
theorem invoker_lt_of_building {events : List (Event β)} {p : Building β}
    (h : p ∈ buildings {} events) : p.invoker < (run events).world.invokers.size := by
  induction events using List.reverseRecOn with
  | nil => cases h
  | append_singleton es e ih =>
    rw [run_append, runFrom_cons, runFrom_nil]
    refine Nat.lt_of_lt_of_le ?_ (grown_step (run es) e).invokers
    rw [buildings_concat, List.mem_append, Option.mem_toList] at h
    obtain h | h := h
    · exact ih h
    · obtain ⟨t, call, res, branch, hpub, _, _, rfl⟩ := building?_eq_some.mp h
      obtain ⟨_, _, _, hi, _⟩ := published?_eq_some.mp hpub
      exact attached_run es (inside_run hi)

/-- All copies of an invoker, from the moment it is made, are for branches that were built. -/
theorem clones_run (before later : List (Event β)) (cloning : Bool)
    (h : ∀ m, .act (.prepare (run before).world.invokers.size m) ∉ later) :
    let j := (run before).world.invokers.size
    let events := before ++ .act (.addInvoker cloning) :: later
    j < (run events).world.invokers.size ∧
      ((run events).world.invoker j).clones =
        (buildings {} events).countP (Building.isCopyOf j) := by
  intro j events
  have hadded : ((run before).step (.act (.addInvoker cloning))).world.invokers =
      (run before).world.invokers.push { cloning } := rfl
  have hj : j < ((run before).step (.act (.addInvoker cloning))).world.invokers.size := by
    rw [hadded, Array.size_push]
    exact Nat.lt_succ_self _
  have hfresh : ((run before).step (.act (.addInvoker cloning))).world.invoker j = { cloning } := by
    rw [World.invoker, hadded, Array.getElem?_push_size]
    rfl
  have hnone : (buildings {} before).countP (Building.isCopyOf j) = 0 := by
    rw [List.countP_eq_zero]
    intro p hp hcopy
    have hinvoker := beq_iff_eq.mp ((Bool.and_eq_true _ _).mp hcopy).1
    exact absurd (invoker_lt_of_building hp) (hinvoker ▸ Nat.lt_irrefl _)
  have hrun : run events = ((run before).step (.act (.addInvoker cloning))).runFrom later :=
    run_append before _
  have hbuildings : buildings {} events = buildings {} before ++
      ((run before).step (.act (.addInvoker cloning))).buildings later :=
    buildings_append {} before _
  refine ⟨hrun ▸ Nat.lt_of_lt_of_le hj (grown_runFrom _ later).invokers, ?_⟩
  rw [hrun, clones_runFrom hj h, hfresh, hbuildings, List.countP_append, hnone]

/-- An invoker has made one copy for every branch with a copy that its sites have put into their chains,
and one for every such branch that they have built and dropped; a site drops a branch once, as it
becomes megamorphic. An event that builds no branch with a copy makes none; and a branch that counts
as put into a chain is there then. -/
theorem clones_count_branches (before later : List (Event β)) (cloning : Bool)
    (h : ∀ m, .act (.prepare (run before).world.invokers.size m) ∉ later) :
    let j := (run before).world.invokers.size
    let events := before ++ .act (.addInvoker cloning) :: later
    let copies := (buildings {} events).filter (Building.isCopyOf j)
    ((run events).world.invoker j).clones =
      copies.countP (fun p => p.change.posts) + copies.countP (fun p => p.change == .collapse) ∧
    (∀ t : SiteId, (buildings {} events).countP (fun p => p.site == t && p.change == .collapse) =
      if ((run events).world.site t).chain.state = .megamorphic then 1 else 0) ∧
    ∀ e : Event β,
      ((∀ m, e ≠ .act (.prepare j m)) →
        (∀ p, (run events).building? e = some p → p.isCopyOf j = false) →
        ((run (events ++ [e])).world.invoker j).clones = ((run events).world.invoker j).clones) ∧
      ∀ p, (run events).building? e = some p → p.change.posts = true →
        ((run (events ++ [e])).world.site p.site).chain.branch? p.name p.shape = some p.branch := by
  intro j events copies
  obtain ⟨hj, hclones⟩ : j < (run events).world.invokers.size ∧ ((run events).world.invoker j).clones =
    (buildings {} events).countP (Building.isCopyOf j) := clones_run before later cloning h
  refine ⟨?_, fun t => ?_, fun e => ⟨fun he hnone => ?_, fun p hp hposts => ?_⟩⟩
  · have hdropped : ∀ p ∈ copies, p.change.posts = false ↔ p.change = .collapse := by
      intro p hp
      have hneeds := needsBranch_of_building (List.mem_of_mem_filter hp)
      refine ⟨fun hposts => ?_, fun hcollapse => hcollapse ▸ rfl⟩
      exact (Change.needsBranch_iff.mp hneeds).resolve_left (Bool.eq_false_iff.mp hposts)
    rw [hclones, List.countP_eq_length_filter,
      List.length_eq_countP_add_countP fun p : Building β => p.change.posts]
    refine congrArg _ (List.countP_congr fun p hp => ?_)
    rw [decide_eq_true_eq, Bool.not_eq_true, beq_iff_eq]
    exact hdropped p hp
  · simp only [dropped_run, Chain.state_eq_megamorphic]
  · have hzero : ((run events).building? e).toList.countP (Building.isCopyOf j) = 0 := by
      rw [List.countP_eq_zero]
      exact fun p hp => Bool.eq_false_iff.mp (hnone p (Option.mem_toList.mp hp))
    rw [run_append, runFrom_cons, runFrom_nil, (uses_step hj e).clones, copies_eq he, hzero]
    rfl
  · rw [run_append]
    exact branch_of_posted hp hposts

/-- A site that has room for no node and is asked for a method that wants to be copied. -/
def crowdedSite : List (Event Unit) :=
  [.act (.addInvoker true), .act (.addSite "m" {} 0 0),
    .act (.defineMethod .object { name := "m", alwaysClone := true, body := () }),
    .begin ⟨0⟩ { name := "m", receiver := .bool true }, .resume 0]

/-- It makes a copy although no branch gets into its chain. -/
theorem clones_crowdedSite :
    (∀ m, .act (.prepare 0 m) ∉ crowdedSite) ∧
    ((run crowdedSite).world.invoker 0).cloning = true ∧
    ((run crowdedSite).world.invoker 0).clones = 1 ∧
    (buildings {} crowdedSite).countP (fun p => p.isCopyOf 0 && p.change.posts) = 0 := by
  refine ⟨fun m => by simp [crowdedSite], ?_⟩
  decide +kernel

/-- Together with a site that has room it makes two copies, one that is kept and one that is dropped. -/
theorem clones_count_branches_crowdedSite :
    let later := crowdedSite.tail ++
      [.act (.addSite "m" {} 8 0), .begin ⟨1⟩ { name := "m", receiver := .bool true }, .resume 1]
    (∀ m, .act (.prepare 0 m) ∉ later) ∧
      ((run (.act (.addInvoker true) :: later)).world.invoker 0).clones = 1 + 1 := by
  intro later
  have hnone : ∀ m, .act (.prepare 0 m) ∉ later := fun m => by simp [later, crowdedSite]
  obtain ⟨hclones, _⟩ := clones_count_branches [] later true hnone
  exact ⟨hnone, hclones.trans (by decide +kernel)⟩

end System
end InlineCache
