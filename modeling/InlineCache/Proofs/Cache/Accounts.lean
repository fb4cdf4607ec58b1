import InlineCache.Proofs.Cache.Recollection
import InlineCache.Proofs.World.Census

/-! The statistics of a site against its sends. A send is counted once, by the way it takes; so the ways
add up to the sends that are over, and to those under way that were counted when they began. What is
installed or merged is owed to a send that waited, and each such send has been counted as a miss or
as a repair before: this is an inequality in every state, as a publication settles the debt. -/
namespace InlineCache

variable {β : Type}

namespace Stats

/-- The number of sends that were counted on a way. -/
def sent (s : Stats) : Route → Nat
  | .hit => s.hits
  | .miss => s.misses
  | .repair => s.repairs
  | .megamorphic => s.megamorphicLookups

theorem sent_countBegin (s : Stats) (route r : Route) :
    (s.countBegin route).sent r = s.sent r + (route == r && r != .hit).toNat := by
  cases route <;> cases r <;> rfl

theorem sent_countEnd (s : Stats) (route r : Route) :
    (s.countEnd route).sent r = s.sent r + (route == r && r == .hit).toNat := by
  cases route <;> cases r <;> rfl

@[simp] theorem sent_countChange (s : Stats) (change : Change) (r : Route) :
    (s.countChange change).sent r = s.sent r := by
  cases change with
  | fill i merges => cases merges <;> cases r <;> rfl
  | _ => cases r <;> rfl

@[simp] theorem merges_countBegin (s : Stats) (route : Route) :
    (s.countBegin route).merges = s.merges := by
  cases route <;> rfl

@[simp] theorem merges_countEnd (s : Stats) (route : Route) :
    (s.countEnd route).merges = s.merges := by
  cases route <;> rfl

/-- A publication installs or merges one node at most. -/
theorem written_countChange_le (s : Stats) (change : Change) :
    (s.countChange change).installs + (s.countChange change).merges ≤
      s.installs + s.merges + 1 := by
  cases change with
  | fill i merges => cases merges <;> simp [countChange, Nat.add_assoc]
  | append => exact Nat.le_of_eq (Nat.add_right_comm s.installs 1 s.merges)
  | _ => exact Nat.le_succ _

end Stats

namespace Chain

/-- A chain has a node in charge of a message and a shape, or it has given up its nodes. -/
def Provides (c : Chain β) (name : String) (shape : Shape) : Prop :=
  c.isMegamorphic = true ∨ Guard.of name shape ∈ c.guards

theorem Grows.provides {c c' : Chain β} (h : c.Grows c') {name : String} {shape : Shape}
    (hc : c.Provides name shape) : c'.Provides name shape := by
  obtain hm | hg := hc
  · exact .inl (h.megamorphic hm)
  · exact h.guards.imp_right fun hprefix => hprefix.subset hg

/-- Where there is a node in charge already, none is added. -/
theorem Provides.plan_ne_append {c : Chain β} {name : String} {shape : Shape}
    (h : c.Provides name shape) (hw : ∀ n ∈ c.nodes, n.WellFormed) (valid : TokenId → Bool)
    (bound : Nat) (built : Option (Branch β)) :
    c.plan valid bound name shape built.isSome ≠ .append := by
  intro hplan
  have hwants : c.Wants name shape built :=
    Chain.advances_plan_iff.mp (congrArg Change.advances hplan)
  obtain hm | hg := h
  · cases hwants.growing.symm.trans hm
  · exact (position_eq_none_iff hw).mp hwants.position hg

end Chain

namespace Sending

/-- Whether a send is on a site and takes a way. -/
def takes (t : SiteId) (r : Route) (q : Sending β) : Bool := q.site == t && q.stage.route == r

/-- Whether a site has counted a send on a way: a hit when it is over, any other send when it begins. -/
def counted (t : SiteId) (r : Route) (q : Sending β) : Bool :=
  q.takes t r && (q.stage.isOver || r != .hit)

/-- Whether a send is past its lookups. -/
def settled (t : SiteId) (r : Route) (q : Sending β) : Bool := q.takes t r && !q.stage.isPaused

theorem settled_flying (t : SiteId) (r : Route) (s : SiteId) (call : Call) (flight : Flight β) :
    settled t r ⟨s, call, .flying flight⟩ =
      (s == t && (Stage.flying flight).route == r && !(Stage.flying flight).isPaused) := rfl

theorem settled_paused (t : SiteId) (r : Route) (s : SiteId) (call : Call) (pause : Pause β) :
    settled t r ⟨s, call, .flying (.paused pause)⟩ = false := Bool.and_false _

theorem counted_flying (t : SiteId) (r : Route) (s : SiteId) (call : Call) (flight : Flight β) :
    counted t r ⟨s, call, .flying flight⟩ =
      (s == t && (Stage.flying flight).route == r && r != .hit) := rfl

theorem counted_ended (t : SiteId) (r : Route) (s : SiteId) (call : Call) (route : Route)
    (reply : Except Failure Outcome) :
    counted t r (⟨s, call, .ended route reply⟩ : Sending β) = (s == t && route == r) :=
  Bool.and_true _

/-- A send that is over, or that was counted when it began, is counted on one way. -/
theorem sum_counted (t : SiteId) (q : Sending β) : (if q.counted t .hit then 1 else 0) +
    (if q.counted t .miss then 1 else 0) + (if q.counted t .repair then 1 else 0) +
    (if q.counted t .megamorphic then 1 else 0) = (if q.site == t && q.stage.isOver then 1 else 0) +
      if q.site == t && !q.stage.isOver && q.stage.route != .hit then 1 else 0 := by
  rw [counted, counted, counted, counted, takes, takes, takes, takes]
  cases q.site == t <;> cases q.stage.isOver <;> cases q.stage.route <;> decide

end Sending

namespace World

/-- A send that goes on after a pause changes the statistics where it publishes. -/
theorem stats_resume (w : World β) (s : SiteId) (call : Call) (pause : Pause β) (t : SiteId) :
    ((w.resume s call pause).1.site t).stats =
      if w.publishes s pause = true ∧ t = s ∧ s.place < w.sites.size then
        (w.site s).stats.countChange (w.change s call pause.resolution) else (w.site t).stats := by
  rw [site_resume]
  by_cases hpub : w.publishes s pause = true
  · rw [if_pos hpub, site_publish]
    by_cases ht : t = s ∧ s.place < w.sites.size
    · rw [if_pos ht, if_pos ⟨hpub, ht⟩]
    · rw [if_neg ht, if_neg fun h => ht h.2]
  · rw [if_neg hpub, if_neg fun h => hpub h.1]

theorem stats_act (w : World β) (a : Act β) (t : SiteId) :
    ((w.act a).site t).stats = (w.site t).stats := by
  obtain h | ⟨hle, _, hstats⟩ := site_act w a t
  · rw [h]
  · rw [hstats, site_of_not_lt (Nat.not_lt_of_le hle)]
    rfl

/-- A send that publishes does not wait any more. -/
theorem isPaused_of_publishes {w : World β} {s : SiteId} {pause : Pause β}
    (h : w.publishes s pause = true) (call : Call) :
    (Stage.flying (w.resume s call pause).2).isPaused = false := by
  cases pause with
  | lookedUp route lookup =>
    have hwants : (w.site s).options.wantsHandler lookup = false :=
      (Bool.not_eq_true' _).mp ((Bool.and_eq_true _ _).mp h).2
    rw [resume, hwants]
    rfl
  | lookedUpHandler route lookup handler => rfl

/-- A send that comes to a branch that is no longer valid comes to a node in charge. -/
theorem provides_of_repair {w : World β} {t : SiteId} (hc : (w.site t).Counted)
    (hw : ∀ n ∈ (w.site t).chain.nodes, n.WellFormed) {call : Call}
    (h : w.route t call = .repair) :
    (w.site t).chain.Provides call.name call.receiver.shape := by
  rw [route_eq hc hw] at h
  by_contra hnone
  rw [Chain.Provides, not_or, Bool.not_eq_true] at hnone
  rw [hnone.1, Chain.branch_of_position ((Chain.position_eq_none_iff hw).mpr hnone.2)] at h
  cases h

end World

namespace System

/-- A send that waits was not served; if it came to a branch that was no longer valid, there is a node in
charge of its call, unless the site has none at all any more. -/
theorem route_of_paused {events : List (Event β)} {i : Nat} {s : SiteId} {call : Call}
    {pause : Pause β} (h : (run events).sends[i]? = some ⟨s, call, .flying (.paused pause)⟩) :
    pause.route ≠ .hit ∧ (pause.route = .repair →
      ((run events).world.site s).chain.Provides call.name call.receiver.shape) := by
  induction events using List.reverseRecOn generalizing pause with
  | nil => exact absurd h (by simp [run])
  | append_singleton es e ih =>
    have hcoherent := coherent_run es
    rw [run_append, runFrom_cons, runFrom_nil] at h ⊢
    obtain hsame | ⟨rfl, hs, _, hstage⟩ | ⟨before, rfl, hbefore, hstage⟩ | ⟨_, _, _, _, hstage⟩ :=
      sends_step h
    · obtain ⟨hhit, hrepair⟩ := ih hsame
      exact ⟨hhit, fun hr => (grows_step hcoherent e (inside_run hsame)).provides (hrepair hr)⟩
    · have hpaused := (Stage.flying.inj hstage).symm
      have hroute : pause.route = (run es).world.route s call := by
        rw [← World.route_begin, hpaused]
        rfl
      have hserved := World.route_ne_hit_of_paused hpaused
      rw [← hroute] at hserved
      refine ⟨hserved, fun hr => ?_⟩
      refine (grows_step hcoherent _ hs).provides ?_
      exact World.provides_of_repair (counted_run es s) (hcoherent.chains s).wellFormed
        (hroute.symm.trans hr)
    · have hroute := World.route_resume (run es).world s call before
      rw [← hstage] at hroute
      obtain ⟨hhit, hrepair⟩ := ih hbefore
      have hsame : pause.route = before.route := hroute
      refine ⟨hsame.trans_ne hhit, fun hr => ?_⟩
      exact (grows_step hcoherent _ (inside_run hbefore)).provides (hrepair (hsame.symm.trans hr))
    · cases hstage

/-- A site has counted each of its sends on the way that it took, and no send else. -/
theorem sent_eq_census (events : List (Event β)) (t : SiteId) (r : Route) :
    ((run events).world.site t).stats.sent r = (run events).census (Sending.counted t r) := by
  induction events using List.reverseRecOn with
  | nil =>
    rw [World.site_of_not_lt (Nat.not_lt_zero _)]
    cases r <;> rfl
  | append_singleton es e ih =>
    rw [run_append, runFrom_cons, runFrom_nil]
    obtain hidle | ⟨a, rfl, hact⟩ | ⟨s, call, rfl, hs, hbegin⟩ | ⟨i, s, call, pause, rfl, hi, hresume⟩ |
      ⟨i, result, s, call, landing, rfl, hi, hfinish⟩ := step_cases (run es) e
    · rw [hidle, ih]
    · rw [hact, World.stats_act, ih]
      rfl
    · rw [hbegin, census_push (Nat.zero_le _), ← ih, World.site_begin, Sending.counted_flying,
        World.route_begin]
      by_cases ht : t = s
      · subst ht
        rw [if_pos ⟨rfl, hs⟩, Stats.sent_countBegin, beq_self_eq_true, Bool.true_and]
      · rw [if_neg fun h => ht h.1, beq_false_of_ne (Ne.symm ht)]
        rfl
    · rw [hresume, census_advance_of_same hi, ← ih]
      · rw [advance, World.stats_resume]
        split
        · rename_i h
          rw [h.2.1, Stats.sent_countChange]
        · rfl
      · rw [Sending.counted_flying, Sending.counted_flying, World.route_resume]
        rfl
    · have hcount := census_advance (p := Sending.counted t r) hi (Nat.zero_le i)
        ((run es).world.finish s landing.route) (.ended landing.route (landing.reply result))
      rw [Sending.counted_flying, Sending.counted_ended, ← ih, ← hfinish] at hcount
      refine Nat.add_right_cancel (.trans ?_ hcount.symm)
      rw [hfinish, advance, World.site_finish, Stage.route]
      by_cases ht : t = s
      · subst ht
        rw [if_pos ⟨rfl, inside_run hi⟩, Stats.sent_countEnd, beq_self_eq_true, Nat.add_assoc, bne]
        cases landing.route == r <;> cases r == .hit <;> rfl
      · rw [if_neg fun h => ht h.1, beq_false_of_ne (Ne.symm ht)]
        rfl

/-- A send that is past its lookups stays so. -/
theorem settled_step (σ : System β) (e : Event β) (t : SiteId) (r : Route) :
    σ.census (Sending.settled t r) ≤ (σ.step e).census (Sending.settled t r) := by
  obtain hidle | ⟨a, rfl, hact⟩ | ⟨s, call, rfl, hs, hbegin⟩ | ⟨i, s, call, pause, rfl, hi, hresume⟩ |
    ⟨i, result, s, call, landing, rfl, hi, hfinish⟩ := step_cases σ e
  · exact Nat.le_of_eq (by rw [hidle])
  · exact Nat.le_of_eq (by rw [hact]; rfl)
  · rw [hbegin, census_push (Nat.zero_le _)]
    exact Nat.le_add_right _ _
  · have hcount := census_advance (p := Sending.settled t r) hi (Nat.zero_le i)
      (σ.world.resume s call pause).1 (.flying (σ.world.resume s call pause).2)
    rw [Sending.settled_paused, ← hresume] at hcount
    exact Nat.le.intro hcount.symm
  · rw [hfinish]
    exact Nat.le_of_eq (census_advance_of_same hi (by rfl)).symm

/-- A send that publishes gets past its lookups. -/
theorem settled_of_publishes {σ : System β} {i : Nat} {s : SiteId} {call : Call} {pause : Pause β}
    (hi : σ.sends[i]? = some ⟨s, call, .flying (.paused pause)⟩)
    (hpub : σ.world.publishes s pause = true) :
    (σ.step (.resume i)).census (Sending.settled s pause.route) =
      σ.census (Sending.settled s pause.route) + 1 := by
  have hcount := census_advance (p := Sending.settled s pause.route) hi (Nat.zero_le i)
    (σ.world.resume s call pause).1 (.flying (σ.world.resume s call pause).2)
  rw [Sending.settled_paused, Sending.settled_flying, World.route_resume,
    World.isPaused_of_publishes hpub, beq_self_eq_true, beq_self_eq_true, ← step_resume hi] at hcount
  exact hcount

/-- What was installed and merged is covered by the sends that are past their lookups: a new node by a
miss, any other one by a miss or a repair. -/
structure Covered (σ : System β) (t : SiteId) : Prop where
  installs : (σ.world.site t).stats.installs ≤ σ.census (Sending.settled t .miss)
  written : (σ.world.site t).stats.installs + (σ.world.site t).stats.merges ≤
    σ.census (Sending.settled t .miss) + σ.census (Sending.settled t .repair)

theorem Covered.of_written_eq {σ τ : System β} {t : SiteId} (h : σ.Covered t)
    (hle : ∀ r, σ.census (Sending.settled t r) ≤ τ.census (Sending.settled t r))
    (hinstalls : (τ.world.site t).stats.installs = (σ.world.site t).stats.installs)
    (hmerges : (τ.world.site t).stats.merges = (σ.world.site t).stats.merges) : τ.Covered t := by
  obtain ⟨hnew, hall⟩ := h
  have hmiss := hle .miss
  have hrepair := hle .repair
  constructor <;> omega

/-- What a publication writes is covered by its own send; no new node is owed to a repair. -/
theorem Covered.publish {events : List (Event β)} {t : SiteId} (h : (run events).Covered t) {i : Nat}
    {call : Call} {pause : Pause β}
    (hi : (run events).sends[i]? = some ⟨t, call, .flying (.paused pause)⟩)
    (hpub : (run events).world.publishes t pause = true)
    (hstats : (((run events).step (.resume i)).world.site t).stats =
      ((run events).world.site t).stats.countChange
        ((run events).world.change t call pause.resolution)) :
    ((run events).step (.resume i)).Covered t := by
  obtain ⟨hnew, hall⟩ := h
  obtain ⟨hhit, hprovides⟩ := route_of_paused hi
  have hmega : pause.route ≠ .megamorphic := of_decide_eq_true ((Bool.and_eq_true _ _).mp hpub).1
  have hmiss := settled_step (run events) (.resume i) t .miss
  have hrepair := settled_step (run events) (.resume i) t .repair
  have hself := settled_of_publishes hi hpub
  have hwritten := Stats.written_countChange_le ((run events).world.site t).stats
    ((run events).world.change t call pause.resolution)
  have hinstalls := Stats.installs_countChange ((run events).world.site t).stats
    ((run events).world.change t call pause.resolution)
  rw [← hstats] at hwritten hinstalls
  cases hr : pause.route with
  | hit => exact absurd hr hhit
  | megamorphic => exact absurd hr hmega
  | miss =>
    rw [hr] at hself
    split at hinstalls <;> constructor <;> omega
  | repair =>
    have hold : (run events).world.change t call pause.resolution ≠ .append :=
      (hprovides hr).plan_ne_append ((coherent_run events).chains t).wellFormed _ _ _
    rw [hr] at hself
    rw [if_neg hold] at hinstalls
    constructor <;> omega

theorem covered_run (events : List (Event β)) (t : SiteId) : (run events).Covered t := by
  induction events using List.reverseRecOn with
  | nil =>
    have hnone : ((run ([] : List (Event β))).world.site t) = default :=
      World.site_of_not_lt (Nat.not_lt_zero _)
    constructor <;> rw [hnone] <;> exact Nat.zero_le _
  | append_singleton es e ih =>
    rw [run_append, runFrom_cons, runFrom_nil]
    have hle := settled_step (run es) e t
    obtain ⟨hkeep, _⟩ | ⟨_, _, hstats⟩ | ⟨call, _, _, hbegin⟩ | ⟨call, res, hpub, _, hstats⟩ |
      ⟨_, _, _, landing, _, _, _, hend⟩ := site_step (run es) e t
    · exact ih.of_written_eq hle (hkeep ▸ rfl) (hkeep ▸ rfl)
    · constructor <;> rw [hstats] <;> exact Nat.zero_le _
    · have hstats := congrArg Site.stats hbegin
      refine ih.of_written_eq hle ?_ ?_
      · rw [hstats, Stats.installs_countBegin]
      · rw [hstats, Stats.merges_countBegin]
    · obtain ⟨i, pause, rfl, hi, hlast, rfl⟩ := published?_eq_some.mp hpub
      exact ih.publish hi hlast (congrArg Site.stats hstats)
    · have hstats := congrArg Site.stats hend
      refine ih.of_written_eq hle ?_ ?_
      · rw [hstats, Stats.installs_countEnd]
      · rw [hstats, Stats.merges_countEnd]

/-- The number of sends on a site that are over, whether they returned or failed. -/
def completed (σ : System β) (t : SiteId) : Nat := σ.census fun q => q.site == t && q.stage.isOver

/-- The number of sends under way on a site that were counted when they began. -/
def pending (σ : System β) (t : SiteId) : Nat :=
  σ.census fun q => q.site == t && !q.stage.isOver && q.stage.route != .hit

/-- The ways add up to all sends that were counted. -/
theorem sum_sent (events : List (Event β)) (t : SiteId) :
    let stats := ((run events).world.site t).stats
    stats.hits + stats.misses + stats.repairs + stats.megamorphicLookups =
      (run events).completed t + (run events).pending t := by
  have hsent := sent_eq_census events t
  have hhit : Stats.hits _ = _ := hsent .hit
  have hmiss : Stats.misses _ = _ := hsent .miss
  have hrepair : Stats.repairs _ = _ := hsent .repair
  have hmega : Stats.megamorphicLookups _ = _ := hsent .megamorphic
  intro stats
  rw [hhit, hmiss, hrepair, hmega, completed, pending]
  simp only [census]
  induction (run events).sends.toList.drop 0 with
  | nil => rfl
  | cons q rest ih =>
    have hq := q.sum_counted t
    simp only [List.countP_cons]
    omega

/-- A send that got past its lookups was counted before. -/
theorem settled_le_sent (events : List (Event β)) (t : SiteId) {r : Route} (hr : r ≠ .hit) :
    (run events).census (Sending.settled t r) ≤ ((run events).world.site t).stats.sent r := by
  rw [sent_eq_census]
  refine census_mono fun q hq => ?_
  rw [Sending.counted, ((Bool.and_eq_true _ _).mp hq).1, bne_iff_ne.mpr hr, Bool.or_true]
  rfl

/-- In every reachable state the ways of a site add up to its sends that are over and those under way
that are no hits, so to its completed sends whenever it is idle; whether these returned or failed
makes no difference. Also in the middle of sends no more nodes were installed than sends missed, and
no more were installed and merged than missed or came to a repair. -/
theorem stats_add_up (events : List (Event β)) (t : SiteId) :
    let σ := run events
    let stats := (σ.world.site t).stats
    stats.hits + stats.misses + stats.repairs + stats.megamorphicLookups =
      σ.completed t + σ.pending t ∧
    (σ.Idle t → stats.hits + stats.misses + stats.repairs + stats.megamorphicLookups =
      σ.completed t) ∧
    stats.installs ≤ stats.misses ∧
    stats.installs + stats.merges ≤ stats.misses + stats.repairs := by
  intro σ stats
  have hsum := sum_sent events t
  obtain ⟨hinstalls, hwritten⟩ := covered_run events t
  have hmiss : _ ≤ stats.misses := settled_le_sent events t (r := .miss) nofun
  have hrepair : _ ≤ stats.repairs := settled_le_sent events t (r := .repair) nofun
  refine ⟨hsum, fun hidle => ?_, Nat.le_trans hinstalls hmiss,
    Nat.le_trans hwritten (Nat.add_le_add hmiss hrepair)⟩
  have hnone : σ.pending t = 0 := hidle.census_eq_zero fun q hq => by
    simp only [Bool.and_eq_true, beq_iff_eq, Bool.not_eq_true'] at hq
    exact hq.1
  rw [hsum, hnone]
  rfl

/-- A send that failed and a hit, both over. -/
theorem stats_add_up_warmSite :
    let events : List (Event Unit) := warmSite ++ [.finish 0 (.error (.raised "boom" none)),
      .begin ⟨0⟩ { name := "m", receiver := .bool true }, .finish 1 (.ok .nil)]
    let stats := ((run events).world.site ⟨0⟩).stats
    (run events).Idle ⟨0⟩ ∧
      stats.hits + stats.misses + stats.repairs + stats.megamorphicLookups = 2 := by
  intro events stats
  have hidle : (run events).Idle ⟨0⟩ := by decide +kernel
  have hcompleted : (run events).completed ⟨0⟩ = 2 := by decide +kernel
  exact ⟨hidle, ((stats_add_up events ⟨0⟩).2.1 hidle).trans hcompleted⟩

end System
end InlineCache
