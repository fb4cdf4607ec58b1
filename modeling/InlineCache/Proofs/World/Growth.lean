import InlineCache.Proofs.World.Sites

/-! Nothing is ever taken away. Whatever happens to a world, its sites and invokers stay where they
are, so a number that once belonged to one of them always does. -/
namespace InlineCache

variable {β : Type}

namespace World

/-- The sites and the invokers of one world are places in the other. -/
structure Grown (w w' : World β) : Prop where
  sites : w.sites.size ≤ w'.sites.size
  invokers : w.invokers.size ≤ w'.invokers.size

/-- One world has as many sites and invokers as the other. -/
structure SameSize (w w' : World β) : Prop where
  sites : w'.sites.size = w.sites.size
  invokers : w'.invokers.size = w.invokers.size

namespace Grown

variable {u v w : World β}

theorem of_same (hsites : w.sites = v.sites) (hinvokers : w.invokers = v.invokers) : v.Grown w :=
  ⟨Nat.le_of_eq (congrArg Array.size hsites.symm),
    Nat.le_of_eq (congrArg Array.size hinvokers.symm)⟩

theorem refl (w : World β) : w.Grown w := of_same rfl rfl

theorem trans (h : u.Grown v) (h' : v.Grown w) : u.Grown w :=
  ⟨Nat.le_trans h.sites h'.sites, Nat.le_trans h.invokers h'.invokers⟩

end Grown

namespace SameSize

variable {u v w : World β}

theorem grown (h : v.SameSize w) : v.Grown w :=
  ⟨Nat.le_of_eq h.sites.symm, Nat.le_of_eq h.invokers.symm⟩

theorem refl (w : World β) : w.SameSize w := ⟨rfl, rfl⟩

theorem trans (h : u.SameSize v) (h' : v.SameSize w) : u.SameSize w :=
  ⟨h'.sites.trans h.sites, h'.invokers.trans h.invokers⟩

end SameSize

theorem sameSize_modifySite (w : World β) (s : SiteId) (f : Site β → Site β) :
    w.SameSize (w.modifySite s f) := ⟨size_modifySite w s f, rfl⟩

theorem sameSize_countInvocation (w : World β) (i : Nat) : w.SameSize (w.countInvocation i) :=
  ⟨rfl, Array.size_modify⟩

theorem sameSize_prepare (w : World β) (i : Nat) (m : Method β) : w.SameSize (w.prepare i m).1 := by
  rw [prepare]
  split
  · exact ⟨rfl, Array.size_modify⟩
  · exact .refl w

theorem sameSize_buildBranch (w : World β) (i : Nat) (recipe : List TokenId × Recipe β) :
    w.SameSize (w.buildBranch i recipe).1 := by
  obtain ⟨tokens, m | m | _⟩ := recipe
  · exact sameSize_prepare w i m
  · exact sameSize_prepare w i m
  · exact .refl w

theorem sameSize_publish (w : World β) (s : SiteId) (call : Call) (res : Resolution β) :
    w.SameSize (w.publish s call res) := by
  simp only [publish]
  refine .trans ?_ (sameSize_modifySite _ s _)
  split
  · exact sameSize_buildBranch w _ _
  · exact .refl w

theorem sameSize_serve (w : World β) (s : SiteId) (call : Call) (target : Target β) :
    w.SameSize (w.serve s call target).1 := by
  unfold serve
  split
  · exact sameSize_countInvocation w _
  · exact sameSize_countInvocation w _
  all_goals exact .refl w

theorem sameSize_begin (w : World β) (s : SiteId) (call : Call) :
    w.SameSize (w.begin s call).1 := by
  have hwalk : w.SameSize (w.walkSite s call) := sameSize_modifySite w s _
  rw [begin_eq]
  split
  · exact hwalk.trans (sameSize_serve _ s call _)
  all_goals exact hwalk.trans (sameSize_modifySite _ s _)

theorem sameSize_carryOut (w : World β) (s : SiteId) (route : Route) (decision : Decision β) :
    w.SameSize (w.carryOut s route decision).1 := by
  cases decision with
  | invoke activation => exact sameSize_countInvocation w _
  | _ => exact .refl w

theorem sameSize_settle (w : World β) (s : SiteId) (call : Call) (route : Route)
    (res : Resolution β) : w.SameSize (w.settle s call route res).1 := by
  rw [settle]
  split
  · exact sameSize_carryOut w s route _
  · exact (sameSize_publish w s call res).trans (sameSize_carryOut _ s route _)

theorem sameSize_resume (w : World β) (s : SiteId) (call : Call) (pause : Pause β) :
    w.SameSize (w.resume s call pause).1 := by
  cases pause with
  | lookedUp route lookup =>
    simp only [resume]
    split
    · exact .refl w
    · exact sameSize_settle w s call route _
  | lookedUpHandler route lookup handler => exact sameSize_settle w s call route _

theorem sameSize_finish (w : World β) (s : SiteId) (route : Route) :
    w.SameSize (w.finish s route) := by
  rw [finish]
  split
  · exact sameSize_modifySite w s _
  · exact .refl w

theorem grown_act (w : World β) (a : Act β) : w.Grown (w.act a) := by
  cases a with
  | defineClass name superclass =>
    simp only [act, defineClass]
    split <;> exact .of_same rfl rfl
  | setCacheable c cacheable =>
    simp only [act, setCacheable]
    split <;> exact .of_same rfl rfl
  | defineMethod c d =>
    simp only [act, defineMethod]
    split <;> exact .of_same rfl rfl
  | removeMethod c name =>
    simp only [act, removeMethod]
    split <;> exact .of_same rfl rfl
  | addInvoker cloning =>
    refine ⟨Nat.le_refl _, ?_⟩
    simp only [act, addInvoker, Array.size_push]
    exact Nat.le_succ _
  | addSite name options bound invoker =>
    simp only [act]
    split
    · refine ⟨?_, Nat.le_refl _⟩
      simp only [addSite, Array.size_push]
      exact Nat.le_succ _
    · exact .refl w
  | prepare i m => exact (sameSize_prepare w i m).grown
  | countInvocation i => exact (sameSize_countInvocation w i).grown
  | _ => exact .of_same rfl rfl

end World

namespace System

/-- No send ever adds a site or an invoker. -/
theorem sameSize_step (σ : System β) (e : Event β) :
    (∃ a, e = .act a) ∨ σ.world.SameSize (σ.step e).world := by
  cases e with
  | act a => exact .inl ⟨a, rfl⟩
  | begin s call =>
    refine .inr ?_
    simp only [step]
    split
    · exact World.sameSize_begin σ.world s call
    · exact .refl _
  | resume i =>
    refine .inr ?_
    simp only [step]
    split
    · exact World.sameSize_resume σ.world _ _ _
    · exact .refl _
  | finish i result =>
    refine .inr ?_
    simp only [step]
    split
    · split <;> exact World.sameSize_finish σ.world _ _
    · exact .refl _

theorem grown_step (σ : System β) (e : Event β) : σ.world.Grown (σ.step e).world := by
  obtain ⟨a, rfl⟩ | hsame := sameSize_step σ e
  · exact World.grown_act σ.world a
  · exact hsame.grown

theorem grown_runFrom (σ : System β) (events : List (Event β)) :
    σ.world.Grown (σ.runFrom events).world := by
  induction events generalizing σ with
  | nil => exact .refl _
  | cons e rest ih => exact (grown_step σ e).trans (ih (σ.step e))

/-- A site that is there keeps its setup for as long as there are events. -/
theorem setup_runFrom {σ : System β} {t : SiteId} (ht : t.place < σ.world.sites.size)
    (events : List (Event β)) : ((σ.runFrom events).world.site t).setup = (σ.world.site t).setup := by
  induction events generalizing σ with
  | nil => rfl
  | cons e rest ih =>
    exact (ih (Nat.lt_of_lt_of_le ht (grown_step σ e).sites)).trans (setup_step σ e ht)

end System
end InlineCache
