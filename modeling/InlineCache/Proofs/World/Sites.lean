import InlineCache.Proofs.Chain.Publication
import InlineCache.Proofs.World.System

/-! What an event does to a call site. A site keeps its setup for good; its chain changes only where
a send begins, which walks it, and where a send publishes what it looked up. -/
namespace InlineCache

variable {β : Type}

/-- A site apart from its chain and its statistics. -/
def Site.setup (x : Site β) : Site β := { x with chain := {}, stats := {} }

theorem Site.options_of_setup {x y : Site β} (h : x.setup = y.setup) : x.options = y.options :=
  (congrArg options h : x.setup.options = y.setup.options)

theorem Site.bound_of_setup {x y : Site β} (h : x.setup = y.setup) : x.bound = y.bound :=
  (congrArg bound h : x.setup.bound = y.setup.bound)

/-- The beginning of a send counts it, unless it is a hit. -/
def Stats.countBegin (s : Stats) (route : Route) : Stats :=
  if route = .hit then s else s.count route

/-- The end of a send counts it if it is a hit. -/
def Stats.countEnd (s : Stats) (route : Route) : Stats :=
  if route = .hit then s.count .hit else s

/-- The way of a send whose walk comes to a verdict. -/
def Verdict.route : Verdict β → Route
  | served _ => .hit
  | repair => .repair
  | generic => .miss
  | megamorphic => .megamorphic

def Landing.route : Landing β → Route
  | running route _ => route
  | finished route _ => route

/-- The reply of a send that is over: the result of its method body, unless it had a reply before. -/
def Landing.reply (result : Except Failure Value) : Landing β → Except Failure Outcome
  | running _ _ => result.map .returned
  | finished _ reply => reply

namespace Pause

def route : Pause β → Route
  | lookedUp route _ => route
  | lookedUpHandler route _ _ => route

/-- All that was looked up before a pause. -/
def resolution : Pause β → Resolution β
  | lookedUp _ lookup => { lookup, handler := none }
  | lookedUpHandler _ lookup handler => { lookup, handler := some handler }

/-- Whether a send has looked up all that it asks for. -/
def isLast (o : SiteOptions) : Pause β → Bool
  | lookedUp _ lookup => !o.wantsHandler lookup
  | lookedUpHandler .. => true

end Pause

namespace World

/-- The branch that can be built of a resolution for a site now, if any. -/
def built? (w : World β) (s : SiteId) (res : Resolution β) : Option (Branch β) :=
  (res.recipe? (w.site s).options).map fun recipe => (w.buildBranch (w.site s).invoker recipe).2

/-- What the publication of a resolution does to the chain of a site. -/
def change (w : World β) (s : SiteId) (call : Call) (res : Resolution β) : Change :=
  (w.site s).chain.plan w.isValid (w.site s).bound call.name call.receiver.shape
    (w.built? s res).isSome

/-- Whether a send on a site publishes when it goes on after a pause. -/
def publishes (w : World β) (s : SiteId) (pause : Pause β) : Bool :=
  decide (pause.route ≠ .megamorphic) && pause.isLast (w.site s).options

theorem site_congr {w w' : World β} (h : w'.sites = w.sites) (t : SiteId) : w'.site t = w.site t := by
  rw [site, site, h]

theorem site_of_not_lt {w : World β} {t : SiteId} (h : ¬ t.place < w.sites.size) :
    w.site t = default := by
  rw [site, Array.getElem?_eq_none (Nat.le_of_not_lt h), Option.getD_none]

theorem site_modifySite (w : World β) (s : SiteId) (f : Site β → Site β) (t : SiteId) :
    (w.modifySite s f).site t =
      if t = s ∧ s.place < w.sites.size then f (w.site t) else w.site t := by
  have hplace : t = s ↔ s.place = t.place := by
    cases s
    cases t
    simp [eq_comm]
  simp only [site, modifySite, Array.getElem?_modify, hplace]
  by_cases hs : s.place = t.place
  · rw [if_pos hs, hs]
    by_cases ht : t.place < w.sites.size
    · simp [ht]
    · simp [ht]
  · simp [hs]

theorem setup_modifySite {f : Site β → Site β} (hf : ∀ x, (f x).setup = x.setup) (w : World β)
    (s t : SiteId) : ((w.modifySite s f).site t).setup = (w.site t).setup := by
  rw [site_modifySite]
  split
  · exact hf _
  · rfl

@[simp] theorem size_modifySite (w : World β) (s : SiteId) (f : Site β → Site β) :
    (w.modifySite s f).sites.size = w.sites.size := Array.size_modify

@[simp] theorem sites_prepare (w : World β) (i : Nat) (m : Method β) :
    (w.prepare i m).1.sites = w.sites := by
  rw [prepare]
  split <;> rfl

@[simp] theorem sites_buildBranch (w : World β) (i : Nat) (recipe : List TokenId × Recipe β) :
    (w.buildBranch i recipe).1.sites = w.sites := by
  obtain ⟨tokens, m | m | _⟩ := recipe
  · exact sites_prepare w i m
  · exact sites_prepare w i m
  · rfl

@[simp] theorem sites_serve (w : World β) (s : SiteId) (call : Call) (target : Target β) :
    (w.serve s call target).1.sites = w.sites := by
  unfold serve
  split <;> rfl

@[simp] theorem sites_carryOut (w : World β) (s : SiteId) (route : Route)
    (decision : Decision β) : (w.carryOut s route decision).1.sites = w.sites := by
  cases decision <;> rfl

/-- The first half of the beginning of a send: its call walks the chain of the site. -/
def walkSite (w : World β) (s : SiteId) (call : Call) : World β :=
  w.modifySite s fun site =>
    { site with chain := { site.chain with links := ((w.site s).chain.links.walk w.isValid call).1 } }

/-- What the walk of a call along the chain of a site comes to. -/
def verdict (w : World β) (s : SiteId) (call : Call) : Verdict β :=
  ((w.site s).chain.links.walk w.isValid call).2

theorem begin_eq (w : World β) (s : SiteId) (call : Call) :
    w.begin s call = match w.verdict s call with
      | .served target => (((w.walkSite s call).serve s call target).1,
          .landed ((w.walkSite s call).serve s call target).2)
      | .repair => (w.walkSite s call).lookUp s call .repair
      | .generic => (w.walkSite s call).lookUp s call .miss
      | .megamorphic => (w.walkSite s call).lookUp s call .megamorphic := rfl

/-- The way that a send takes if it begins now. -/
def route (w : World β) (s : SiteId) (call : Call) : Route := (w.verdict s call).route

@[simp] theorem setup_walkSite (w : World β) (s : SiteId) (call : Call) (t : SiteId) :
    ((w.walkSite s call).site t).setup = (w.site t).setup :=
  setup_modifySite (fun _ => by rfl) w s t

theorem site_walkSite (w : World β) (s : SiteId) (call : Call) (t : SiteId) :
    (w.walkSite s call).site t = if t = s ∧ s.place < w.sites.size then
      { w.site s with chain := (w.site s).chain.walked w.isValid call } else w.site t := by
  rw [walkSite, site_modifySite]
  split
  · rename_i h
    obtain ⟨rfl, _⟩ := h
    rfl
  · rfl

theorem site_lookUp (w : World β) (s : SiteId) (call : Call) (route : Route) (t : SiteId) :
    (w.lookUp s call route).1.site t = if t = s ∧ s.place < w.sites.size then
      { w.site t with stats := (w.site t).stats.count route } else w.site t :=
  site_modifySite w s _ t

/-- The beginning of a send walks the chain of its site and counts the send there. -/
theorem site_begin (w : World β) (s : SiteId) (call : Call) (t : SiteId) :
    (w.begin s call).1.site t = if t = s ∧ s.place < w.sites.size then
      { w.site s with
        chain := (w.site s).chain.walked w.isValid call
        stats := (w.site s).stats.countBegin (w.route s call) } else w.site t := by
  have hsize : (w.walkSite s call).sites.size = w.sites.size := size_modifySite w s _
  have hlook := fun route => site_lookUp (w.walkSite s call) s call route t
  simp only [hsize, site_walkSite] at hlook
  rw [begin_eq, route]
  cases w.verdict s call with
  | served target => exact (site_congr (sites_serve _ s call target) t).trans (site_walkSite w s call t)
  | repair => rw [hlook]; split <;> rfl
  | generic => rw [hlook]; split <;> rfl
  | megamorphic => rw [hlook]; split <;> rfl

theorem publish_eq (w : World β) (s : SiteId) (call : Call) (res : Resolution β) :
    ∃ v : World β, v.sites = w.sites ∧ w.publish s call res = v.modifySite s fun site =>
      { site with
        chain := site.chain.apply call.name call.receiver.shape (w.change s call res) (w.built? s res)
        stats := site.stats.countChange (w.change s call res) } := by
  rw [change, built?, Option.isSome_map, publish]
  generalize hplan : (w.site s).chain.plan _ _ _ _ _ = change
  cases hr : res.recipe? (w.site s).options with
  | none => exact ⟨w, rfl, rfl⟩
  | some recipe =>
    cases hn : change.needsBranch with
    | true => exact ⟨(w.buildBranch (w.site s).invoker recipe).1, sites_buildBranch w _ recipe, rfl⟩
    | false => exact ⟨w, rfl, by
        simp only [Chain.apply_of_not_needsBranch hn _ _ _ none
          (some (w.buildBranch (w.site s).invoker recipe).2), Option.map_some]⟩

/-- A publication writes to the chain of its site and counts what it does to it. -/
theorem site_publish (w : World β) (s : SiteId) (call : Call) (res : Resolution β) (t : SiteId) :
    (w.publish s call res).site t = if t = s ∧ s.place < w.sites.size then
      { w.site s with
        chain := (w.site s).chain.published w.isValid (w.site s).bound call.name
          call.receiver.shape (w.built? s res)
        stats := (w.site s).stats.countChange (w.change s call res) } else w.site t := by
  obtain ⟨v, hv, heq⟩ := publish_eq w s call res
  rw [heq, site_modifySite, hv, site_congr hv]
  split
  · rename_i ht
    obtain ⟨rfl, _⟩ := ht
    rfl
  · rfl

theorem chain_publish (w : World β) (s : SiteId) (call : Call) (res : Resolution β) (t : SiteId) :
    ((w.publish s call res).site t).chain =
      if t = s ∧ s.place < w.sites.size then
        (w.site s).chain.published w.isValid (w.site s).bound call.name call.receiver.shape
          (w.built? s res)
      else (w.site t).chain := by
  rw [site_publish]
  split <;> rfl

theorem site_publish_of_ne (w : World β) {s t : SiteId} (h : t ≠ s) (call : Call)
    (res : Resolution β) : (w.publish s call res).site t = w.site t := by
  rw [site_publish, if_neg fun hts => h hts.1]

theorem setup_publish (w : World β) (s : SiteId) (call : Call) (res : Resolution β) (t : SiteId) :
    ((w.publish s call res).site t).setup = (w.site t).setup := by
  rw [site_publish]
  split
  · rename_i ht
    rw [ht.1]
    rfl
  · rfl

theorem site_settle (w : World β) (s : SiteId) (call : Call) (route : Route) (res : Resolution β)
    (t : SiteId) : (w.settle s call route res).1.site t =
      if route = .megamorphic then w.site t else (w.publish s call res).site t := by
  rw [settle, site_congr (sites_carryOut _ s route _)]
  split <;> rfl

theorem site_resume (w : World β) (s : SiteId) (call : Call) (pause : Pause β) (t : SiteId) :
    (w.resume s call pause).1.site t = if w.publishes s pause = true then
      (w.publish s call pause.resolution).site t else w.site t := by
  cases pause with
  | lookedUp route lookup =>
    simp only [resume, publishes, Pause.isLast, Pause.route, Pause.resolution]
    by_cases hwants : (w.site s).options.wantsHandler lookup = true
    · simp [hwants]
    · by_cases hroute : route = .megamorphic <;> simp [hwants, hroute, site_settle]
  | lookedUpHandler route lookup handler =>
    simp only [resume, publishes, Pause.isLast, Pause.route, Pause.resolution]
    by_cases hroute : route = .megamorphic <;> simp [hroute, site_settle]

/-- The end of a send counts it on its site. -/
theorem site_finish (w : World β) (s : SiteId) (route : Route) (t : SiteId) :
    (w.finish s route).site t = if t = s ∧ s.place < w.sites.size then
      { w.site t with stats := (w.site t).stats.countEnd route } else w.site t := by
  rw [finish, Stats.countEnd]
  split
  · rw [site_modifySite]
  · split <;> rfl

theorem sites_act (w : World β) (a : Act β) : (w.act a).sites = w.sites ∨
    ∃ x : Site β, x.chain = {} ∧ x.stats = {} ∧ x.invoker < w.invokers.size ∧
      (w.act a).sites = w.sites.push x := by
  cases a with
  | defineClass name superclass =>
    simp only [act, defineClass]
    split <;> exact .inl rfl
  | setCacheable c cacheable =>
    simp only [act, setCacheable]
    split <;> exact .inl rfl
  | defineMethod c d =>
    simp only [act, defineMethod]
    split <;> exact .inl rfl
  | removeMethod c name =>
    simp only [act, removeMethod]
    split <;> exact .inl rfl
  | addSite name options bound invoker =>
    simp only [act]
    split
    · rename_i hinvoker
      exact .inr ⟨_, rfl, rfl, hinvoker, rfl⟩
    · exact .inl rfl
  | prepare i m => exact .inl (sites_prepare w i m)
  | _ => exact .inl rfl

/-- What is done to a world outside of any send leaves the sites that are there alone. -/
theorem site_act (w : World β) (a : Act β) (t : SiteId) :
    (w.act a).site t = w.site t ∨ (w.sites.size ≤ t.place ∧
      ((w.act a).site t).chain = {} ∧ ((w.act a).site t).stats = {}) := by
  obtain h | ⟨x, hchain, hstats, _, h⟩ := sites_act w a
  · exact .inl (site_congr h t)
  · by_cases ht : t.place < w.sites.size
    · refine .inl ?_
      rw [site, site, h, Array.getElem?_push, if_neg (Nat.ne_of_lt ht)]
    · refine .inr ⟨Nat.le_of_not_lt ht, ?_⟩
      rw [site, h, Array.getElem?_push]
      split
      · exact ⟨hchain, hstats⟩
      · rw [Array.getElem?_eq_none (Nat.le_of_not_lt ht)]
        exact ⟨rfl, rfl⟩

end World

namespace System

/-- The publication on a site that an event consists in: the call of the send and all that it has
looked up. -/
def published? (σ : System β) (t : SiteId) : Event β → Option (Call × Resolution β)
  | .resume i => match σ.sends[i]? with
    | some { site, call, stage := .flying (.paused pause) } =>
      if site = t ∧ σ.world.publishes site pause = true then some (call, pause.resolution) else none
    | _ => none
  | _ => none

theorem published?_eq_some {σ : System β} {t : SiteId} {e : Event β} {call : Call}
    {res : Resolution β} : σ.published? t e = some (call, res) ↔ ∃ i pause, e = .resume i ∧
      σ.sends[i]? = some ⟨t, call, .flying (.paused pause)⟩ ∧ σ.world.publishes t pause = true ∧
      pause.resolution = res := by
  constructor
  · intro h
    cases e with
    | resume i =>
      simp only [published?] at h
      split at h
      · rename_i site call' pause hi
        simp only [Option.ite_none_right_eq_some, Option.some.injEq, Prod.mk.injEq] at h
        obtain ⟨⟨rfl, hpub⟩, rfl, hres⟩ := h
        exact ⟨i, pause, rfl, hi, hpub, hres⟩
      · cases h
    | _ => cases h
  · rintro ⟨i, pause, rfl, hi, hpub, rfl⟩
    simp [published?, hi, hpub]

/-- What a publication does to its site. -/
theorem site_of_published {σ : System β} {t : SiteId} {e : Event β} {call : Call}
    {res : Resolution β} (h : σ.published? t e = some (call, res))
    (ht : t.place < σ.world.sites.size) : (σ.step e).world.site t = { σ.world.site t with
      chain := (σ.world.site t).chain.published σ.world.isValid (σ.world.site t).bound call.name
        call.receiver.shape (σ.world.built? t res)
      stats := (σ.world.site t).stats.countChange (σ.world.change t call res) } := by
  obtain ⟨i, pause, rfl, hi, hpub, rfl⟩ := published?_eq_some.mp h
  have hsite := World.site_resume σ.world t call pause t
  rw [if_pos hpub, World.site_publish, if_pos ⟨rfl, ht⟩] at hsite
  simp only [step, hi]
  exact hsite

/-- The end of a send whose decision is made. -/
theorem step_finish {σ : System β} {i : Nat} {s : SiteId} {call : Call} {landing : Landing β}
    (h : σ.sends[i]? = some ⟨s, call, .flying (.landed landing)⟩) (result : Except Failure Value) :
    σ.step (.finish i result) =
      σ.advance (σ.world.finish s landing.route) i (.ended landing.route (landing.reply result)) := by
  simp only [step, h]
  cases landing with
  | running route activation => rfl
  | finished route reply => rfl

/-- What an event does to a site: nothing, or the site is a new one, or a send on it begins, publishes
what it has looked up, or ends. -/
theorem site_step (σ : System β) (e : Event β) (t : SiteId) :
    ((σ.step e).world.site t = σ.world.site t ∧
      (t.place < σ.world.sites.size → σ.published? t e = none)) ∨
    (σ.world.sites.size ≤ t.place ∧ ((σ.step e).world.site t).chain = {} ∧
      ((σ.step e).world.site t).stats = {}) ∨
    (∃ call, e = .begin t call ∧ t.place < σ.world.sites.size ∧
      (σ.step e).world.site t = { σ.world.site t with
        chain := (σ.world.site t).chain.walked σ.world.isValid call
        stats := (σ.world.site t).stats.countBegin (σ.world.route t call) }) ∨
    (∃ call res, σ.published? t e = some (call, res) ∧ t.place < σ.world.sites.size ∧
      (σ.step e).world.site t = { σ.world.site t with
        chain := (σ.world.site t).chain.published σ.world.isValid (σ.world.site t).bound call.name
          call.receiver.shape (σ.world.built? t res)
        stats := (σ.world.site t).stats.countChange (σ.world.change t call res) }) ∨
    ∃ i result call landing, e = .finish i result ∧
      σ.sends[i]? = some ⟨t, call, .flying (.landed landing)⟩ ∧ t.place < σ.world.sites.size ∧
      (σ.step e).world.site t = { σ.world.site t with
        stats := (σ.world.site t).stats.countEnd landing.route } := by
  cases e with
  | act a =>
    obtain h | h := World.site_act σ.world a t
    · exact .inl ⟨h, fun _ => rfl⟩
    · exact .inr (.inl h)
  | begin s call =>
    simp only [step]
    split
    · rename_i hlt
      have h := World.site_begin σ.world s call t
      by_cases ht : t = s
      · subst ht
        rw [if_pos ⟨rfl, hlt⟩] at h
        exact .inr (.inr (.inl ⟨call, rfl, hlt, h⟩))
      · rw [if_neg fun hts => ht hts.1] at h
        exact .inl ⟨h, fun _ => rfl⟩
    · exact .inl ⟨rfl, fun _ => rfl⟩
  | resume i =>
    cases hpub : σ.published? t (.resume i) with
    | some p =>
      obtain ⟨call, res⟩ := p
      by_cases ht : t.place < σ.world.sites.size
      · exact .inr (.inr (.inr (.inl ⟨call, res, rfl, ht, site_of_published hpub ht⟩)))
      · obtain ⟨_, pause, he, hi, hlast, rfl⟩ := published?_eq_some.mp hpub
        obtain rfl := Event.resume.inj he
        have h := World.site_resume σ.world t call pause t
        rw [if_pos hlast, World.site_publish, if_neg fun hts => ht hts.2] at h
        simp only [step, hi]
        exact .inl ⟨h, fun hlt => absurd hlt ht⟩
    | none =>
      refine .inl ⟨?_, fun _ => rfl⟩
      simp only [step]
      split
      · rename_i site call pause hi
        have h := World.site_resume σ.world site call pause t
        by_cases hlast : σ.world.publishes site pause = true
        · have ht : t ≠ site := by
            rintro rfl
            cases hpub.symm.trans (published?_eq_some.mpr ⟨i, pause, rfl, hi, hlast, rfl⟩)
          rw [if_pos hlast, World.site_publish_of_ne _ ht] at h
          exact h
        · rw [if_neg hlast] at h
          exact h
      · rfl
  | finish i result =>
    by_cases hland : ∃ site call landing,
        σ.sends[i]? = some ⟨site, call, .flying (.landed landing)⟩
    · obtain ⟨site, call, landing, hi⟩ := hland
      rw [step_finish hi result, advance, World.site_finish]
      split
      · rename_i ht
        obtain ⟨rfl, hlt⟩ := ht
        exact .inr (.inr (.inr (.inr ⟨i, result, call, landing, rfl, hi, hlt, rfl⟩)))
      · exact .inl ⟨rfl, fun _ => rfl⟩
    · refine .inl ⟨?_, fun _ => rfl⟩
      simp only [step]
      split
      · rename_i site call landing hi
        exact absurd ⟨site, call, landing, hi⟩ hland
      · rfl

/-- What an event does to the chain of a site: nothing, or the site is a new one, or a send on it
begins and walks the chain, or one publishes what it has looked up. -/
theorem chain_step (σ : System β) (e : Event β) (t : SiteId) :
    ((σ.step e).world.site t).chain = (σ.world.site t).chain ∨
    (σ.world.sites.size ≤ t.place ∧ ((σ.step e).world.site t).chain = {}) ∨
    (∃ call, e = .begin t call ∧ t.place < σ.world.sites.size ∧
      ((σ.step e).world.site t).chain = (σ.world.site t).chain.walked σ.world.isValid call) ∨
    ∃ i call pause, e = .resume i ∧ t.place < σ.world.sites.size ∧
      σ.sends[i]? = some ⟨t, call, .flying (.paused pause)⟩ ∧
      ((σ.step e).world.site t).chain = (σ.world.site t).chain.published σ.world.isValid
        (σ.world.site t).bound call.name call.receiver.shape
        (σ.world.built? t pause.resolution) := by
  obtain ⟨h, _⟩ | ⟨hle, h, _⟩ | ⟨call, he, ht, h⟩ | ⟨call, res, hpub, ht, h⟩ |
    ⟨_, _, _, _, _, _, _, h⟩ := site_step σ e t
  · exact .inl (congrArg Site.chain h)
  · exact .inr (.inl ⟨hle, h⟩)
  · exact .inr (.inr (.inl ⟨call, he, ht, congrArg Site.chain h⟩))
  · obtain ⟨i, pause, he, hi, _, rfl⟩ := published?_eq_some.mp hpub
    exact .inr (.inr (.inr ⟨i, call, pause, he, ht, hi, congrArg Site.chain h⟩))
  · exact .inl ((congrArg Site.chain h).trans rfl)

/-- A site that is there keeps its setup. -/
theorem setup_step (σ : System β) (e : Event β) {t : SiteId} (ht : t.place < σ.world.sites.size) :
    ((σ.step e).world.site t).setup = (σ.world.site t).setup := by
  obtain ⟨h, _⟩ | ⟨hle, _⟩ | ⟨_, _, _, h⟩ | ⟨_, _, _, _, h⟩ | ⟨_, _, _, _, _, _, _, h⟩ :=
    site_step σ e t
  · exact congrArg Site.setup h
  · exact absurd ht (Nat.not_lt_of_le hle)
  · exact (congrArg Site.setup h).trans rfl
  · exact (congrArg Site.setup h).trans rfl
  · exact (congrArg Site.setup h).trans rfl

end System
end InlineCache
