import InlineCache.Proofs.Cache.Coherence
import InlineCache.Proofs.Marks.World
import InlineCache.Proofs.World.Invokers
import InlineCache.Report

/-! Copies make no difference. Two runs that do the same, but for what their invokers grant, come to the
same states without the marks of copying after every event, whatever happens in between: so the
replies, the chains, the statistics and the reports are the same. -/
namespace InlineCache

variable {β : Type}

namespace System

def renumbered (σ : System β) : System β := { σ with world := σ.world.renumbered }

theorem sends_unmarked (σ : System β) (i : Nat) :
    σ.unmarked.sends[i]? = (σ.sends[i]?).map Sending.unmarked := Array.getElem?_map

/-- A send that is over is over without marks, with the same reply. -/
theorem ended_unmarked {σ : System β} {i : Nat} {s : SiteId} {call : Call} {route : Route}
    {reply : Except Failure Outcome} : σ.unmarked.sends[i]? = some ⟨s, call, .ended route reply⟩ ↔
      σ.sends[i]? = some ⟨s, call, .ended route reply⟩ := by
  rw [sends_unmarked]
  rcases σ.sends[i]? with _ | ⟨s', call', flight | ⟨route', reply'⟩⟩
  · exact Iff.rfl
  · simp [Sending.unmarked, Stage.unmarked]
  · exact Iff.rfl

/-- Where a method body runs, one that differs in its marks runs without them. -/
theorem running_unmarked {σ : System β} {i : Nat} {s : SiteId} {call : Call} {route : Route}
    {a : Activation β} :
    σ.unmarked.sends[i]? = some ⟨s, call, .flying (.landed (.running route a))⟩ ↔ ∃ b,
      σ.sends[i]? = some ⟨s, call, .flying (.landed (.running route b))⟩ ∧ b.unmarked = a := by
  rw [sends_unmarked]
  rcases σ.sends[i]? with _ | ⟨s', call', (pause | (⟨route', b⟩ | _)) | _⟩ <;>
    simp [Sending.unmarked, Stage.unmarked, Flight.unmarked, Landing.unmarked, and_assoc]

theorem advance_unmarked (σ : System β) (world : World β) (i : Nat) (stage : Stage β) :
    σ.unmarked.advance world.unmarked i stage.unmarked = (σ.advance world i stage).unmarked := by
  have hsends := map_modify (f := fun q : Sending β => { q with stage }) (g := Sending.unmarked)
    (k := fun q => { q with stage := stage.unmarked }) (fun _ => rfl) σ.sends i
  exact congrArg (System.mk world.unmarked) hsends.symm

theorem step_begin_unmarked (σ : System β) (s : SiteId) (call : Call) :
    σ.unmarked.step (.begin s call) = (σ.step (.begin s call)).unmarked := by
  have hsize : σ.unmarked.world.sites.size = σ.world.sites.size := Array.size_map
  by_cases hs : s.place < σ.world.sites.size
  · have hbegin : σ.unmarked.world.begin s call = _ := World.begin_unmarked σ.world s call
    have hpush : (σ.sends.push ⟨s, call, .flying (σ.world.begin s call).2⟩).map Sending.unmarked =
        σ.unmarked.sends.push ⟨s, call, .flying (σ.world.begin s call).2.unmarked⟩ := Array.map_push
    rw [step_begin hs, step_begin (hsize.symm ▸ hs), hbegin]
    exact congrArg (System.mk (σ.world.begin s call).1.unmarked) hpush.symm
  · rw [step, step, if_neg hs, if_neg (hsize.symm ▸ hs)]

/-- A send goes on alike after a pause, if the site that it may publish to has an invoker. -/
theorem step_resume_unmarked {σ : System β} {i : Nat}
    (h : ∀ (s : SiteId) (call : Call) (pause : Pause β),
      σ.sends[i]? = some ⟨s, call, .flying (.paused pause)⟩ →
        (σ.world.site s).invoker < σ.world.invokers.size) :
    σ.unmarked.step (.resume i) = (σ.step (.resume i)).unmarked := by
  cases hi : σ.sends[i]? with
  | none => simp only [step, sends_unmarked, hi, Option.map_none]
  | some send =>
    obtain ⟨s, call, (pause | landing) | ⟨route, reply⟩⟩ := send
    · have hresume : σ.unmarked.world.resume s call pause.unmarked = _ :=
        World.resume_unmarked σ.world (h s call pause hi) call pause
      have hi' : σ.unmarked.sends[i]? = some ⟨s, call, .flying (.paused pause.unmarked)⟩ := by
        rw [sends_unmarked, hi]
        rfl
      rw [step_resume hi, step_resume hi', hresume, ← advance_unmarked]
      rfl
    all_goals
      simp only [step, sends_unmarked, hi, Option.map_some]
      rfl

theorem step_finish_unmarked (σ : System β) (i : Nat) (result : Except Failure Value) :
    σ.unmarked.step (.finish i result) = (σ.step (.finish i result)).unmarked := by
  cases hi : σ.sends[i]? with
  | none => simp only [step, sends_unmarked, hi, Option.map_none]
  | some send =>
    obtain ⟨s, call, (pause | landing) | ⟨route, reply⟩⟩ := send
    · simp only [step, sends_unmarked, hi, Option.map_some]
      rfl
    · have hi' : σ.unmarked.sends[i]? = some ⟨s, call, .flying (.landed landing.unmarked)⟩ := by
        rw [sends_unmarked, hi]
        rfl
      have hfinish : σ.unmarked.world.finish s landing.route = _ :=
        World.finish_unmarked σ.world landing.route
      rw [step_finish hi, step_finish hi', landing.route_unmarked, landing.reply_unmarked, hfinish,
        ← advance_unmarked]
      rfl
    · simp only [step, sends_unmarked, hi, Option.map_some]
      rfl

/-- An event has the same effect without marks, but for the counter of identities. -/
theorem step_unmarked (events : List (Event β)) (e : Event β) :
    ((run events).unmarked.step e.unmarked).renumbered = ((run events).step e).unmarked := by
  cases e with
  | act a =>
    exact congrArg (System.mk · (run events).unmarked.sends) (World.act_unmarked (run events).world a)
  | begin s call => exact congrArg renumbered (step_begin_unmarked (run events) s call)
  | resume i =>
    exact congrArg renumbered
      (step_resume_unmarked fun s call pause hi => attached_run events (inside_run hi))
  | finish i result => exact congrArg renumbered (step_finish_unmarked (run events) i result)

/-- One event takes states that are the same without marks to such states. -/
theorem unmarked_step {es fs : List (Event β)} {e f : Event β}
    (h : (run es).unmarked = (run fs).unmarked) (he : e.unmarked = f.unmarked) :
    ((run es).step e).unmarked = ((run fs).step f).unmarked := by
  rw [← step_unmarked es e, ← step_unmarked fs f, h, he]

/-- Runs of the same events, but for marks, come to the same state without marks. -/
theorem unmarked_run {es fs : List (Event β)} (h : es.map Event.unmarked = fs.map Event.unmarked) :
    (run es).unmarked = (run fs).unmarked := by
  induction es using List.reverseRecOn generalizing fs with
  | nil => rw [List.map_eq_nil_iff.mp (h.symm.trans List.map_nil)]
  | append_singleton es e ih =>
    rw [List.map_append, eq_comm] at h
    obtain ⟨before, last, rfl, hbefore, hlast⟩ := List.map_eq_append_iff.mp h
    obtain ⟨f, rfl, hf⟩ := List.map_eq_singleton_iff.mp hlast
    rw [run_append, run_append]
    exact unmarked_step (ih hbefore.symm) hf.symm

/-- A method body ends with what it gives, which may depend on all that has happened before. -/
def Obeys (body : List (Event β) → Activation β → Except Failure Value) (events : List (Event β)) :
    Prop :=
  ∀ (before after : List (Event β)) (i : Nat) (result : Except Failure Value) (s : SiteId)
    (call : Call) (route : Route) (activation : Activation β),
    events = before ++ .finish i result :: after →
    (run before).sends[i]? = some ⟨s, call, .flying (.landed (.running route activation))⟩ →
    result = body before activation

/-- Method bodies that look neither at identities nor at what was granted. -/
def IgnoresMarks (body : List (Event β) → Activation β → Except Failure Value) : Prop :=
  ∀ (es fs : List (Event β)) (a b : Activation β), es.map Event.unmarked = fs.map Event.unmarked →
    a.unmarked = b.unmarked → body es a = body fs b

theorem Obeys.of_unmarked {body : List (Event β) → Activation β → Except Failure Value}
    (hbody : IgnoresMarks body) {es fs : List (Event β)} (h : es.map Event.unmarked = fs.map Event.unmarked)
    (hes : Obeys body es) : Obeys body fs := by
  rintro before after i result s call route activation rfl hi
  rw [List.map_append, List.map_cons] at h
  obtain ⟨before', rest, rfl, hbefore, hrest⟩ := List.map_eq_append_iff.mp h
  obtain ⟨e, after', rfl, he, _⟩ := List.map_eq_cons_iff.mp hrest
  have he : e = .finish i result := by cases e <;> cases he; rfl
  subst he
  obtain ⟨b, hb, hsame⟩ := running_unmarked.mp
    (unmarked_run hbefore ▸ running_unmarked.mpr ⟨activation, hi, rfl⟩)
  rw [hes before' after' i result s call route b rfl hb]
  exact hbody before' before b activation hbefore hsame

end System

section Reports

def BranchReport.unmarked (b : BranchReport) : BranchReport := { b with cloned := false }

def NodeReport.unmarked (n : NodeReport) : NodeReport :=
  { n with branches := n.branches.map BranchReport.unmarked }

/-- The report of a site without its flags of copies. -/
def SiteReport.unmarked (r : SiteReport) : SiteReport :=
  { r with nodes := r.nodes.map NodeReport.unmarked }

namespace Registry

theorem describeTarget_unmarked (r : Registry β) (t : CallTarget β) :
    r.unmarked.describeTarget t.unmarked = r.describeTarget t := by
  rw [describeTarget, className_unmarked]
  rfl

theorem describeSlot_unmarked (r : Registry β) (shape : String) (slot : Option (Branch β)) :
    r.unmarked.describeSlot shape (slot.map Branch.unmarked) =
      (r.describeSlot shape slot).unmarked := by
  rcases slot with _ | ⟨tokens, t | t | _, entered⟩
  · rfl
  · simp only [Option.map_some, Branch.unmarked, Target.unmarked, describeSlot,
      describeTarget_unmarked]
    rfl
  · simp only [Option.map_some, Branch.unmarked, Target.unmarked, describeSlot,
      describeTarget_unmarked]
    rfl
  · rfl

theorem describeNode_unmarked (r : Registry β) (label : Shape → String) (n : Node β) :
    r.unmarked.describeNode label n.unmarked = (r.describeNode label n).unmarked := by
  cases n with
  | boolean g onFalse onTrue =>
    simp only [Node.unmarked, describeNode, describeSlot_unmarked]
    rfl
  | single g branch =>
    simp only [Node.unmarked, describeNode, describeSlot_unmarked]
    rfl

end Registry

theorem World.describe_unmarked (w : World β) (label : Shape → String) (s : SiteId) :
    w.unmarked.describe label s = (w.describe label s).unmarked := by
  have hnodes : (w.site s).unmarked.chain.nodes.map (w.unmarked.registry.describeNode label) =
      ((w.site s).chain.nodes.map (w.registry.describeNode label)).map NodeReport.unmarked := by
    rw [List.map_map]
    refine Eq.trans (congrArg _ (w.site s).chain.nodes_unmarked) ?_
    rw [List.map_map]
    exact List.map_congr_left fun n _ => w.registry.describeNode_unmarked label n
  have hstate : (w.site s).unmarked.chain.state = (w.site s).chain.state :=
    (w.site s).chain.state_unmarked
  simp only [describe, site_unmarked, hnodes, hstate]
  rfl

end Reports

namespace System

/-- Of two runs of the same events, but for what the invokers are told to grant and for identities of
methods, the states after every event are the same without the marks of copying: they differ at most
in flags of copies, identities of methods, and what the invokers grant and have granted. So every send
comes to the same reply on the same way, and every site has the same guards, the same statistics and,
but for the flags of copies, the same report. The results of method bodies are the same by themselves: if
the bodies ignore marks, those of one run are what the bodies give if those of the other are. -/
theorem cloning_unobservable (es fs : List (Event β))
    (h : es.map Event.unmarked = fs.map Event.unmarked) :
    (∀ k : Nat,
      let σ := run (es.take k)
      let τ := run (fs.take k)
      σ.unmarked = τ.unmarked ∧
      (∀ (i : Nat) (s : SiteId) (call : Call) (route : Route) (reply : Except Failure Outcome),
        σ.sends[i]? = some ⟨s, call, .ended route reply⟩ ↔
          τ.sends[i]? = some ⟨s, call, .ended route reply⟩) ∧
      ∀ t : SiteId, (σ.world.site t).chain.guards = (τ.world.site t).chain.guards ∧
        (σ.world.site t).stats = (τ.world.site t).stats ∧
        ∀ label, (σ.world.describe label t).unmarked = (τ.world.describe label t).unmarked) ∧
    ∀ body : List (Event β) → Activation β → Except Failure Value, IgnoresMarks body →
      (Obeys body es ↔ Obeys body fs) := by
  refine ⟨fun k => ?_, fun body hbody => ⟨.of_unmarked hbody h, .of_unmarked hbody h.symm⟩⟩
  intro σ τ
  have hsame : σ.unmarked = τ.unmarked := by
    refine unmarked_run ?_
    rw [List.map_take, List.map_take, h]
  refine ⟨hsame, fun i s call route reply => ?_, fun t => ?_⟩
  · rw [← ended_unmarked, hsame, ended_unmarked]
  · have hsite : (σ.world.site t).unmarked = (τ.world.site t).unmarked := by
      rw [← World.site_unmarked, ← World.site_unmarked]
      exact congrArg (fun σ : System β => σ.world.site t) hsame
    have hguards : (σ.world.site t).chain.unmarked.guards = (τ.world.site t).chain.unmarked.guards :=
      congrArg (fun x : Site β => x.chain.guards) hsite
    have hstats : (σ.world.site t).unmarked.stats = (τ.world.site t).unmarked.stats :=
      congrArg Site.stats hsite
    refine ⟨?_, hstats, fun label => ?_⟩
    · rwa [Chain.guards_unmarked, Chain.guards_unmarked] at hguards
    · rw [← World.describe_unmarked, ← World.describe_unmarked]
      exact congrArg (fun σ : System β => σ.world.describe label t) hsame

theorem cloning_unobservable_warmSite :
    let refusing : List (Event Unit) := .act (.addInvoker false) :: warmSite.tail
    let report := fun events : List (Event Unit) => (run events).world.describe Shape.display ⟨0⟩
    warmSite.map Event.unmarked = refusing.map Event.unmarked ∧
      report warmSite ≠ report refusing ∧ (report warmSite).unmarked = (report refusing).unmarked := by
  intro refusing report
  have h : warmSite.map Event.unmarked = refusing.map Event.unmarked := rfl
  have hflags : report warmSite ≠ report refusing := by decide +kernel
  obtain ⟨_, _, hsites⟩ := (cloning_unobservable warmSite refusing h).1 warmSite.length
  exact ⟨h, hflags, (hsites ⟨0⟩).2.2 Shape.display⟩

end System
end InlineCache
