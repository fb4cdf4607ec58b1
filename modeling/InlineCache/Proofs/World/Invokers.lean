import InlineCache.Proofs.World.Sends

/-! What happens to the counters of an invoker. An invoker that the sites share runs a body where a send
on one of its sites comes to one, and makes a copy where a publication builds a branch that holds
one; no other part of a send touches it. -/
namespace InlineCache

variable {β : Type}

/-- The method body that a send has started, if it has come to one. -/
def Landing.activation? : Landing β → Option (Activation β)
  | running _ activation => some activation
  | finished _ _ => none

def Flight.activation? : Flight β → Option (Activation β)
  | landed landing => landing.activation?
  | paused _ => none

/-- Whether a target holds a copy that was made for it. -/
def Target.cloned : Target β → Bool
  | direct t | handler t => t.cloned
  | probe => false

theorem Site.invoker_of_setup {x y : Site β} (h : x.setup = y.setup) : x.invoker = y.invoker :=
  (congrArg invoker h : x.setup.invoker = y.setup.invoker)

/-- How often an invoker is told to run a body outside of any send. -/
def Act.calls (j : Nat) : Act β → Nat
  | countInvocation i => if i = j then 1 else 0
  | _ => 0

namespace World

/-- How many copies an invoker makes outside of any send. -/
def copiesOfAct (w : World β) (j : Nat) : Act β → Nat
  | .prepare i m => if i = j ∧ (w.prepare i m).2.cloned = true then 1 else 0
  | _ => 0

/-- From one world to another an invoker has run so many bodies and made so many copies. -/
structure Uses (w w' : World β) (j invocations clones : Nat) : Prop where
  invocations : (w'.invoker j).invocations = (w.invoker j).invocations + invocations
  clones : (w'.invoker j).clones = (w.invoker j).clones + clones

namespace Uses

variable {u v w : World β} {j m n a b : Nat}

theorem of_invoker (h : w.invoker j = v.invoker j) : v.Uses w j 0 0 :=
  ⟨congrArg Invoker.invocations h, congrArg Invoker.clones h⟩

theorem of_same (h : w.invokers = v.invokers) : v.Uses w j 0 0 :=
  of_invoker (by rw [invoker, invoker, h])

theorem trans (h : u.Uses v j m a) (h' : v.Uses w j n b) : u.Uses w j (m + n) (a + b) :=
  ⟨by rw [h'.invocations, h.invocations, Nat.add_assoc],
    by rw [h'.clones, h.clones, Nat.add_assoc]⟩

theorem congr (h : v.Uses w j m a) (hm : m = n) (ha : a = b) : v.Uses w j n b := hm ▸ ha ▸ h

end Uses

/-- How often an invoker runs a body where a send on a site has come to one, or to none. -/
def runs (w : World β) (s : SiteId) (j : Nat) (activation? : Option (Activation β)) : Nat :=
  if (w.site s).invoker = j ∧ activation?.isSome = true then 1 else 0

/-- How many copies an invoker makes where a resolution is published to a site. -/
def copies (w : World β) (s : SiteId) (j : Nat) (call : Call) (res : Resolution β) : Nat :=
  if (w.site s).invoker = j ∧ (w.change s call res).needsBranch = true ∧
    (w.built? s res).any (fun b => b.target.cloned) = true then 1 else 0

theorem runs_none (w : World β) (s : SiteId) (j : Nat) : w.runs s j none = 0 :=
  if_neg fun h => nomatch h.2

theorem runs_congr {v w : World β} {s : SiteId} (h : (v.site s).setup = (w.site s).setup) (j : Nat)
    (activation? : Option (Activation β)) : v.runs s j activation? = w.runs s j activation? := by
  rw [runs, runs, Site.invoker_of_setup h]

theorem invoker_modify (w : World β) (i j : Nat) (f : Invoker → Invoker) :
    invoker { w with invokers := w.invokers.modify i f } j =
      if i = j ∧ j < w.invokers.size then f (w.invoker j) else w.invoker j := by
  simp only [invoker, Array.getElem?_modify]
  by_cases hi : i = j
  · by_cases hj : j < w.invokers.size <;> simp [hi, hj]
  · simp [hi]

section Counters

variable {w : World β} {j : Nat} (hj : j < w.invokers.size)
include hj

theorem uses_countInvocation (i : Nat) :
    w.Uses (w.countInvocation i) j (if i = j then 1 else 0) 0 := by
  have h := invoker_modify w i j fun v => { v with invocations := v.invocations + 1 }
  simp only [hj, and_true] at h
  refine ⟨(congrArg Invoker.invocations h).trans ?_, (congrArg Invoker.clones h).trans ?_⟩
  · split <;> rfl
  · split <;> rfl

theorem uses_prepare (i : Nat) (m : Method β) : w.Uses (w.prepare i m).1 j 0
    (if i = j ∧ (w.prepare i m).2.cloned = true then 1 else 0) := by
  rw [prepare]
  split
  · have h := invoker_modify w i j fun v => { v with clones := v.clones + 1 }
    simp only [hj, and_true] at h
    refine ⟨(congrArg Invoker.invocations h).trans ?_, (congrArg Invoker.clones h).trans ?_⟩
    · split <;> rfl
    · simp only [cloneTarget, and_true]
      split <;> rfl
  · exact (Uses.of_same rfl).congr rfl (by simp)

theorem uses_buildBranch (i : Nat) (recipe : List TokenId × Recipe β) :
    w.Uses (w.buildBranch i recipe).1 j 0
      (if i = j ∧ (w.buildBranch i recipe).2.target.cloned = true then 1 else 0) := by
  obtain ⟨tokens, m | m | _⟩ := recipe
  · exact uses_prepare hj i m
  · exact uses_prepare hj i m
  · exact (Uses.of_same rfl).congr rfl (by simp [buildBranch, Target.cloned])

theorem uses_publish (s : SiteId) (call : Call) (res : Resolution β) :
    w.Uses (w.publish s call res) j 0 (w.copies s j call res) := by
  have hsite : ∀ (v : World β) (f : Site β → Site β), v.Uses (v.modifySite s f) j 0 0 :=
    fun _ _ => .of_same rfl
  rw [copies, change, built?, Option.isSome_map, publish]
  generalize (w.site s).chain.plan _ _ _ _ _ = change
  cases hr : res.recipe? (w.site s).options with
  | none => exact (hsite w _).congr rfl (by simp)
  | some recipe =>
    cases hn : change.needsBranch with
    | true =>
      have h := uses_buildBranch hj (w.site s).invoker recipe
      exact (h.trans (hsite _ _)).congr rfl (by simp)
    | false => exact (hsite w _).congr rfl (by simp)

theorem uses_launch (s : SiteId) (route : Route) (activation : Activation β) :
    w.Uses (w.launch s route activation).1 j (w.runs s j (some activation)) 0 :=
  (uses_countInvocation hj (w.site s).invoker).congr (by simp [runs]) rfl

theorem uses_serve (s : SiteId) (call : Call) (target : Target β) :
    w.Uses (w.serve s call target).1 j
      (w.runs s j (w.serve s call target).2.activation?) 0 := by
  unfold serve
  split
  · exact uses_launch hj s .hit _
  · exact uses_launch hj s .hit _
  all_goals exact (Uses.of_same rfl).congr (runs_none w s j).symm rfl

theorem uses_carryOut (s : SiteId) (route : Route) (decision : Decision β) :
    w.Uses (w.carryOut s route decision).1 j
      (w.runs s j (w.carryOut s route decision).2.activation?) 0 := by
  cases decision with
  | invoke activation => exact uses_launch hj s route activation
  | _ => exact (Uses.of_same rfl).congr (runs_none w s j).symm rfl

theorem uses_begin (s : SiteId) (call : Call) : w.Uses (w.begin s call).1 j
    (w.runs s j (w.begin s call).2.activation?) 0 := by
  have hwalk : w.Uses (w.walkSite s call) j 0 0 := .of_same rfl
  have hlook : ∀ route, w.Uses ((w.walkSite s call).lookUp s call route).1 j
      (w.runs s j ((w.walkSite s call).lookUp s call route).2.activation?) 0 := by
    intro route
    have h : w.Uses ((w.walkSite s call).lookUp s call route).1 j 0 0 := .of_same rfl
    exact h.congr (runs_none w s j).symm rfl
  rw [begin_eq]
  cases w.verdict s call with
  | served target =>
    have hserve := uses_serve (w := w.walkSite s call) hj s call target
    refine (hwalk.trans hserve).congr ?_ rfl
    rw [Nat.zero_add]
    exact runs_congr (setup_walkSite w s call s) j _
  | repair => exact hlook .repair
  | generic => exact hlook .miss
  | megamorphic => exact hlook .megamorphic

theorem uses_settle (s : SiteId) (call : Call) (route : Route) (res : Resolution β) :
    w.Uses (w.settle s call route res).1 j
      (w.runs s j (w.settle s call route res).2.activation?)
      (if route = .megamorphic then 0 else w.copies s j call res) := by
  rw [settle]
  split
  · exact uses_carryOut hj s route _
  · have hj' := Nat.lt_of_lt_of_eq hj (sameSize_publish w s call res).invokers.symm
    refine ((uses_publish hj s call res).trans (uses_carryOut hj' s route _)).congr ?_ rfl
    rw [Nat.zero_add]
    exact runs_congr (setup_publish w s call res s) j _

theorem uses_resume (s : SiteId) (call : Call) (pause : Pause β) :
    w.Uses (w.resume s call pause).1 j (w.runs s j (w.resume s call pause).2.activation?)
      (if w.publishes s pause = true then w.copies s j call pause.resolution else 0) := by
  have hsettle := fun route => uses_settle hj s call route pause.resolution
  cases pause with
  | lookedUp route lookup =>
    by_cases hwants : (w.site s).options.wantsHandler lookup = true
    · simp only [resume, publishes, Pause.isLast, hwants]
      exact (Uses.of_same rfl).congr (runs_none w s j).symm (by simp)
    · simp only [resume, publishes, Pause.isLast, hwants]
      exact (hsettle route).congr rfl (by by_cases h : route = .megamorphic <;> simp [h, Pause.route])
  | lookedUpHandler route lookup handler =>
    refine (hsettle route).congr rfl ?_
    by_cases h : route = .megamorphic <;> simp [h, publishes, Pause.isLast, Pause.route]

end Counters

theorem uses_finish (w : World β) (j : Nat) (s : SiteId) (route : Route) :
    w.Uses (w.finish s route) j 0 0 := by
  rw [finish]
  split <;> exact .of_same rfl

theorem uses_act {w : World β} {j : Nat} (hj : j < w.invokers.size) (a : Act β) :
    w.Uses (w.act a) j (a.calls j) (w.copiesOfAct j a) := by
  cases a with
  | defineClass name superclass =>
    simp only [act, defineClass]
    split <;> exact .of_same rfl
  | setCacheable c cacheable =>
    simp only [act, setCacheable]
    split <;> exact .of_same rfl
  | defineMethod c d =>
    simp only [act, defineMethod]
    split <;> exact .of_same rfl
  | removeMethod c name =>
    simp only [act, removeMethod]
    split <;> exact .of_same rfl
  | addInvoker cloning =>
    refine .of_invoker ?_
    rw [act, addInvoker, invoker, invoker, Array.getElem?_push, if_neg (Nat.ne_of_lt hj)]
  | addSite name options bound i =>
    simp only [act]
    split <;> exact .of_same rfl
  | prepare i m => exact uses_prepare hj i m
  | countInvocation i => exact uses_countInvocation hj i
  | _ => exact .of_same rfl

end World

/-- A method body that an invoker runs for a send. -/
structure Invocation (β : Type) where
  send : Nat
  invoker : Nat
  activation : Activation β

namespace System

/-- The method body that an event has a send come to. -/
def invocation? (σ : System β) : Event β → Option (Invocation β)
  | .begin s call =>
    if s.place < σ.world.sites.size then
      (σ.world.begin s call).2.activation?.map fun a =>
        { send := σ.sends.size, invoker := (σ.world.site s).invoker, activation := a }
    else none
  | .resume i => match σ.sends[i]? with
    | some { site, call, stage := .flying (.paused pause) } =>
      (σ.world.resume site call pause).2.activation?.map fun a =>
        { send := i, invoker := (σ.world.site site).invoker, activation := a }
    | _ => none
  | .act _ | .finish _ _ => none

/-- How many bodies an invoker runs with an event. -/
def calls (σ : System β) (j : Nat) (e : Event β) : Nat :=
  match e with
  | .act a => a.calls j
  | e => ((σ.invocation? e).toList.filter fun v => v.invoker == j).length

/-- How many copies an invoker makes with an event. -/
def copies (σ : System β) (j : Nat) : Event β → Nat
  | .act a => σ.world.copiesOfAct j a
  | .resume i => match σ.sends[i]? with
    | some { site, call, stage := .flying (.paused pause) } =>
      if σ.world.publishes site pause = true then σ.world.copies site j call pause.resolution else 0
    | _ => 0
  | .begin _ _ | .finish _ _ => 0

theorem runs_eq (w : World β) (s : SiteId) (i j : Nat) (activation? : Option (Activation β)) :
    w.runs s j activation? = (((activation?.map fun a =>
      { send := i, invoker := (w.site s).invoker, activation := a : Invocation β }).toList).filter
        fun v => v.invoker == j).length := by
  cases activation? with
  | none => exact w.runs_none s j
  | some a => by_cases h : (w.site s).invoker = j <;> simp [World.runs, h]

/-- With every event the counters of an invoker grow by what it does. -/
theorem uses_step {σ : System β} {j : Nat} (hj : j < σ.world.invokers.size) (e : Event β) :
    σ.world.Uses (σ.step e).world j (σ.calls j e) (σ.copies j e) := by
  cases e with
  | act a => exact World.uses_act hj a
  | begin s call =>
    simp only [step, calls, invocation?, copies]
    split
    · rw [← runs_eq]
      exact World.uses_begin hj s call
    · exact .of_same rfl
  | resume i =>
    simp only [step, calls, invocation?, copies]
    cases σ.sends[i]? with
    | none => exact .of_same rfl
    | some send =>
      obtain ⟨s, call, stage⟩ := send
      cases stage with
      | ended route reply => exact .of_same rfl
      | flying flight =>
        cases flight with
        | landed landing => exact .of_same rfl
        | paused pause =>
          simp only [← runs_eq]
          exact World.uses_resume hj s call pause
  | finish i result =>
    simp only [step, calls, invocation?, copies]
    split
    · split <;> exact World.uses_finish σ.world j _ _
    · exact .of_same rfl

/-- The invoker of a site was there before the site. -/
theorem attached_run (events : List (Event β)) {t : SiteId}
    (ht : t.place < (run events).world.sites.size) :
    ((run events).world.site t).invoker < (run events).world.invokers.size := by
  induction events using List.reverseRecOn with
  | nil => exact absurd ht (Nat.not_lt_zero _)
  | append_singleton es e ih =>
    rw [run_append, runFrom_cons, runFrom_nil] at ht ⊢
    have hgrown := (grown_step (run es) e).invokers
    by_cases hold : t.place < (run es).world.sites.size
    · rw [Site.invoker_of_setup (setup_step (run es) e hold)]
      exact Nat.lt_of_lt_of_le (ih hold) hgrown
    · obtain ⟨a, rfl⟩ | hsame := sameSize_step (run es) e
      · obtain hsame | ⟨x, _, _, hx, hpush⟩ := World.sites_act (run es).world a
        · exact absurd (hsame ▸ ht) hold
        · refine Nat.lt_of_lt_of_le ?_ hgrown
          have ht : t.place < ((run es).world.act a).sites.size := ht
          have hplace : t.place = (run es).world.sites.size := by
            rw [hpush, Array.size_push] at ht
            omega
          rwa [step, World.site, hpush, hplace, Array.getElem?_push_size]
      · exact absurd (hsame.sites ▸ ht) hold

end System
end InlineCache
