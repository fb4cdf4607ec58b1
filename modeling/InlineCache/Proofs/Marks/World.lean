import InlineCache.Proofs.Marks.Chain
import InlineCache.Proofs.World.Sends

/-! Runs without the marks of copying. In a state without them no invoker grants copies and all methods
have one identity. Such a state goes the same way as the one it comes from: what an event does commutes
with taking the marks away, but for the counter of identities, which has to be taken back. -/
namespace InlineCache

variable {β : Type}

def Site.unmarked (x : Site β) : Site β := { x with chain := x.chain.unmarked }

/-- An invoker that grants no copies and has made none. -/
def Invoker.unmarked (v : Invoker) : Invoker := { v with cloning := false, clones := 0 }

/-- A world with the counter of identities taken back. -/
def World.renumbered (w : World β) : World β := { w with nextMethod := 0 }

/-- A world without identities of methods, copies, and what is known of them. -/
def World.unmarked (w : World β) : World β :=
  { registry := w.registry.unmarked
    invokers := w.invokers.map Invoker.unmarked
    sites := w.sites.map Site.unmarked
    nextMethod := 0
    nextObject := w.nextObject }

section Sends

def Pause.unmarked : Pause β → Pause β
  | lookedUp route lookup => lookedUp route lookup.unmarked
  | lookedUpHandler route lookup handler => lookedUpHandler route lookup.unmarked handler.unmarked

namespace Landing

def unmarked : Landing β → Landing β
  | running route activation => running route activation.unmarked
  | finished route reply => finished route reply

theorem route_unmarked (l : Landing β) : l.unmarked.route = l.route := by cases l <;> rfl

theorem reply_unmarked (l : Landing β) (result : Except Failure Value) :
    l.unmarked.reply result = l.reply result := by cases l <;> rfl

end Landing

def Flight.unmarked : Flight β → Flight β
  | paused pause => paused pause.unmarked
  | landed landing => landed landing.unmarked

def Stage.unmarked : Stage β → Stage β
  | flying flight => flying flight.unmarked
  | ended route reply => ended route reply

def Sending.unmarked (q : Sending β) : Sending β := { q with stage := q.stage.unmarked }

def System.unmarked (σ : System β) : System β :=
  { world := σ.world.unmarked, sends := σ.sends.map Sending.unmarked }

/-- The same act with other methods and other grants. -/
def Act.unmarked : Act β → Act β
  | addInvoker _ => addInvoker false
  | prepare i m => prepare i m.unmarked
  | cloneTarget m => cloneTarget m.unmarked
  | a => a

def Event.unmarked : Event β → Event β
  | act a => act a.unmarked
  | begin s call => begin s call
  | resume i => resume i
  | finish i result => finish i result

end Sends

namespace World

variable (w : World β) (s : SiteId)

theorem site_unmarked : w.unmarked.site s = (w.site s).unmarked := by
  rw [site, site, unmarked, Array.getElem?_map]
  cases w.sites[s.place]? <;> rfl

theorem modifySite_unmarked {f g : Site β → Site β} (hf : ∀ x, (f x).unmarked = g x.unmarked) :
    w.unmarked.modifySite s g = (w.modifySite s f).unmarked :=
  congrArg (fun sites => { w.unmarked with sites }) (map_modify hf w.sites s.place).symm

/-- An invoker that is there does not grant a copy. -/
theorem cloning_unmarked {i : Nat} (h : i < w.invokers.size) :
    (w.unmarked.invoker i).cloning = false := by
  rw [invoker, unmarked, Array.getElem?_map, Array.getElem?_eq_getElem h]
  rfl

/-- To get a method ready changes nothing but marks. -/
theorem unmarked_prepare (i : Nat) (m : Method β) : (w.prepare i m).1.unmarked = w.unmarked := by
  rw [prepare]
  split
  · have hclones := map_modify (f := fun v : Invoker => { v with clones := v.clones + 1 })
      (g := Invoker.unmarked) (k := id) (fun _ => rfl) w.invokers i
    rw [modify_id] at hclones
    exact congrArg (fun invokers => { w.unmarked with invokers }) hclones
  · rfl

theorem prepare_unmarked {i : Nat} (h : i < w.invokers.size) (m : Method β) :
    w.unmarked.prepare i m.unmarked = Prod.map unmarked CallTarget.unmarked (w.prepare i m) := by
  have htarget : (w.prepare i m).2.unmarked = { method := m.unmarked, cloned := false } := by
    rw [prepare]
    split <;> rfl
  rw [prepare, cloning_unmarked w h, Bool.false_and, if_neg Bool.false_ne_true]
  exact Prod.ext (unmarked_prepare w i m).symm htarget.symm

theorem buildBranch_unmarked {i : Nat} (h : i < w.invokers.size)
    (recipe : List TokenId × Recipe β) : w.unmarked.buildBranch i (recipe.map id Recipe.unmarked) =
      Prod.map unmarked Branch.unmarked (w.buildBranch i recipe) := by
  obtain ⟨tokens, m | m | _⟩ := recipe
  · simp only [buildBranch, Prod.map, Recipe.unmarked, prepare_unmarked w h]
    rfl
  · simp only [buildBranch, Prod.map, Recipe.unmarked, prepare_unmarked w h]
    rfl
  · rfl

theorem countInvocation_unmarked (i : Nat) :
    w.unmarked.countInvocation i = (w.countInvocation i).unmarked := by
  have hcount := map_modify (f := fun v : Invoker => { v with invocations := v.invocations + 1 })
    (g := Invoker.unmarked) (k := fun v => { v with invocations := v.invocations + 1 })
    (fun _ => rfl) w.invokers i
  exact congrArg (fun invokers => { w.unmarked with invokers }) hcount.symm

theorem launch_unmarked (route : Route) (activation : Activation β) :
    w.unmarked.launch s route activation.unmarked =
      Prod.map unmarked Landing.unmarked (w.launch s route activation) := by
  rw [launch, site_unmarked, launch]
  exact congrArg (·, Landing.running route activation.unmarked) (countInvocation_unmarked w _)

theorem serve_unmarked (call : Call) (target : Target β) : w.unmarked.serve s call target.unmarked =
    Prod.map unmarked Landing.unmarked (w.serve s call target) := by
  have haction : (w.site s).unmarked.options.action = (w.site s).options.action := rfl
  rw [serve.eq_def, serve.eq_def, site_unmarked, haction]
  cases (w.site s).options.action with
  | invoke =>
    cases target with
    | direct t => exact launch_unmarked w s .hit (call.activate t.method)
    | handler t => exact launch_unmarked w s .hit (call.toHandler.activate t.method)
    | probe => rfl
  | probe => cases target <;> rfl

theorem lookUp_unmarked (call : Call) (route : Route) : w.unmarked.lookUp s call route =
    Prod.map unmarked Flight.unmarked (w.lookUp s call route) := by
  have hworld : (w.unmarked.lookUp s call route).1 = (w.lookUp s call route).1.unmarked :=
    modifySite_unmarked w s fun _ => rfl
  refine Prod.ext hworld ?_
  rw [Prod.map_snd, pause_lookUp, pause_lookUp, site_unmarked]
  exact congrArg (fun l => Flight.paused (.lookedUp route l)) (w.registry.lookup_unmarked _ call)

theorem verdict_unmarked (call : Call) :
    w.unmarked.verdict s call = (w.verdict s call).unmarked := by
  rw [verdict, verdict, site_unmarked]
  exact congrArg Prod.snd (Links.walk_unmarked w.isValid call (w.site s).chain.links)

theorem walkSite_unmarked (call : Call) :
    w.unmarked.walkSite s call = (w.walkSite s call).unmarked := by
  have hwalk := congrArg Prod.fst (Links.walk_unmarked w.isValid call (w.site s).chain.links)
  rw [walkSite, site_unmarked]
  refine modifySite_unmarked w s fun x => ?_
  exact congrArg (fun links => { x.unmarked with chain := { x.unmarked.chain with links } }) hwalk.symm

theorem begin_unmarked (call : Call) : w.unmarked.begin s call =
    Prod.map unmarked Flight.unmarked (w.begin s call) := by
  rw [begin_eq, begin_eq, verdict_unmarked, walkSite_unmarked]
  cases w.verdict s call with
  | served target =>
    simp only [Verdict.unmarked, serve_unmarked]
    rfl
  | repair => exact lookUp_unmarked _ s call .repair
  | generic => exact lookUp_unmarked _ s call .miss
  | megamorphic => exact lookUp_unmarked _ s call .megamorphic

theorem carryOut_unmarked (route : Route) (decision : Decision β) :
    w.unmarked.carryOut s route decision.unmarked =
      Prod.map unmarked Landing.unmarked (w.carryOut s route decision) := by
  cases decision with
  | invoke activation => exact launch_unmarked w s route activation
  | _ => rfl

variable {s}

theorem publish_unmarked (h : (w.site s).invoker < w.invokers.size) (call : Call)
    (res : Resolution β) :
    w.unmarked.publish s call res.unmarked = (w.publish s call res).unmarked := by
  have hoptions : (w.site s).unmarked.options = (w.site s).options := rfl
  have hinvoker : (w.site s).unmarked.invoker = (w.site s).invoker := rfl
  have hplan : ∀ buildable, (w.site s).unmarked.chain.plan w.unmarked.isValid
      (w.site s).unmarked.bound call.name call.receiver.shape buildable =
        (w.site s).chain.plan w.isValid (w.site s).bound call.name call.receiver.shape buildable :=
    (w.site s).chain.plan_unmarked w.isValid (w.site s).bound call.name call.receiver.shape
  simp only [publish, site_unmarked, hoptions, hinvoker, Resolution.recipe_unmarked,
    Option.isSome_map, hplan]
  generalize (w.site s).chain.plan _ _ _ _ _ = change
  have hsite : ∀ (b : Option (Branch β)) (x : Site β), Site.unmarked { x with
      chain := x.chain.apply call.name call.receiver.shape change b
      stats := x.stats.countChange change } = { x.unmarked with
        chain := x.unmarked.chain.apply call.name call.receiver.shape change (b.map Branch.unmarked)
        stats := x.stats.countChange change } :=
    fun b x => congrArg (fun chain => { x with chain, stats := x.stats.countChange change })
      (x.chain.apply_unmarked call.name call.receiver.shape change b).symm
  cases res.recipe? (w.site s).options with
  | none => exact modifySite_unmarked w s (hsite none)
  | some recipe =>
    cases change.needsBranch with
    | true =>
      simp only [Option.map_some, buildBranch_unmarked w h]
      exact modifySite_unmarked _ s (hsite (some (w.buildBranch (w.site s).invoker recipe).2))
    | false => exact modifySite_unmarked w s (hsite none)

theorem settle_unmarked (h : (w.site s).invoker < w.invokers.size) (call : Call) (route : Route)
    (res : Resolution β) : w.unmarked.settle s call route res.unmarked =
      Prod.map unmarked Landing.unmarked (w.settle s call route res) := by
  have hdecide : ∀ v : World β, res.unmarked.decide (v.unmarked.site s).options call
      (v.unmarked.registry.className call.receiver.classId) =
        (res.decide (v.site s).options call (v.registry.className call.receiver.classId)).unmarked := by
    intro v
    rw [site_unmarked, ← Resolution.decide_unmarked]
    exact congrArg _ (v.registry.className_unmarked call.receiver.classId)
  rw [settle, settle]
  split
  · simp only [hdecide, carryOut_unmarked]
  · simp only [publish_unmarked w h, hdecide, carryOut_unmarked]

theorem resume_unmarked (h : (w.site s).invoker < w.invokers.size) (call : Call)
    (pause : Pause β) : w.unmarked.resume s call pause.unmarked =
      Prod.map unmarked Flight.unmarked (w.resume s call pause) := by
  cases pause with
  | lookedUp route lookup =>
    have hwants : (w.unmarked.site s).options.wantsHandler lookup.unmarked =
        (w.site s).options.wantsHandler lookup := by
      rw [site_unmarked]
      exact SiteOptions.wantsHandler_unmarked _ lookup
    have hsettle := settle_unmarked w h call route { lookup, handler := none }
    simp only [Pause.unmarked, resume, hwants]
    split
    · exact congrArg (fun l => (w.unmarked, Flight.paused (.lookedUpHandler route lookup.unmarked l)))
        (w.registry.lookupHandler_unmarked call)
    · exact congrArg (Prod.map id Flight.landed) hsettle
  | lookedUpHandler route lookup handler =>
    have hsettle := settle_unmarked w h call route { lookup, handler := some handler }
    exact congrArg (Prod.map id Flight.landed) hsettle

theorem finish_unmarked (route : Route) : w.unmarked.finish s route = (w.finish s route).unmarked := by
  rw [finish, finish]
  split
  · exact modifySite_unmarked w s fun _ => rfl
  · rfl

theorem act_unmarked (a : Act β) : (w.unmarked.act a.unmarked).renumbered = (w.act a).unmarked := by
  cases a with
  | defineClass name superclass =>
    have hdefine : w.unmarked.registry.defineClass name superclass = _ :=
      w.registry.defineClass_unmarked name superclass
    simp only [act, Act.unmarked, defineClass, hdefine]
    cases w.registry.defineClass name superclass <;> rfl
  | setCacheable c cacheable =>
    have hset : w.unmarked.registry.setCacheable c cacheable = _ :=
      w.registry.setCacheable_unmarked c cacheable
    simp only [act, Act.unmarked, setCacheable, hset]
    cases w.registry.setCacheable c cacheable <;> rfl
  | defineMethod c d =>
    have hdefine : w.unmarked.registry.defineMethod { d with id := w.unmarked.nextMethod, owner := c } =
        _ := w.registry.defineMethod_unmarked { d with id := w.nextMethod, owner := c }
    simp only [act, Act.unmarked, defineMethod, hdefine]
    cases w.registry.defineMethod { d with id := w.nextMethod, owner := c } <;> rfl
  | removeMethod c name =>
    have hremove : w.unmarked.registry.removeMethod c name = _ :=
      w.registry.removeMethod_unmarked c name
    simp only [act, Act.unmarked, removeMethod, hremove]
    cases w.registry.removeMethod c name <;> rfl
  | addInvoker cloning =>
    have hpush : (w.invokers.push { cloning }).map Invoker.unmarked =
        (w.invokers.map Invoker.unmarked).push { cloning := false } := Array.map_push
    exact congrArg (fun invokers => { w.unmarked with invokers }) hpush.symm
  | addSite name options bound invoker =>
    have hsize : w.unmarked.invokers.size = w.invokers.size := Array.size_map
    have hpush : (w.sites.push { name, options, bound, invoker }).map Site.unmarked =
        (w.sites.map Site.unmarked).push { name, options, bound, invoker } := Array.map_push
    simp only [act, Act.unmarked, hsize]
    split
    · exact congrArg (fun sites => { w.unmarked with sites }) hpush.symm
    · rfl
  | prepare i m =>
    by_cases h : i < w.invokers.size
    · exact congrArg (fun p => (Prod.fst p).renumbered) (prepare_unmarked w h m)
    · -- where there is no invoker a copy is granted all the same, but nobody counts it
      refine Eq.trans ?_ (unmarked_prepare w i m).symm
      have hsize : w.unmarked.invokers.size = w.invokers.size := Array.size_map
      simp only [act, Act.unmarked, prepare, modify_of_not_lt (hsize ▸ h)]
      split <;> rfl
  | countInvocation i => exact congrArg renumbered (countInvocation_unmarked w i)
  | _ => rfl

end World
end InlineCache
