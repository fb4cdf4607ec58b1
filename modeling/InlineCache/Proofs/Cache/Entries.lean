import InlineCache.Proofs.Cache.Accounts
import InlineCache.Proofs.Cache.Fitness
import InlineCache.Proofs.Chain.Posting

/-! How often the branches were entered. A branch counts every try, also one that finds its tokens
lost; but a send that does so goes on to replace the branch or to drop it, and as long as it has not
done so it is under way. So what an idle site shows are the calls that each branch has served since it
was built, whatever else became of the chain meanwhile. -/
namespace InlineCache

variable {β : Type}

/-- How a branch came into a chain: what was before, the event that put it there, and what has been
since. -/
structure Origin (β : Type) where
  before : List (Event β)
  event : Event β
  since : List (Event β)

namespace Origin

def events (o : Origin β) : List (Event β) := o.before ++ o.event :: o.since

/-- The number of the first send that began afterwards. -/
def first (o : Origin β) : Nat := (System.run o.before).sends.size

theorem first_le (o : Origin β) : o.first ≤ (System.run o.events).sends.size := by
  rw [events, System.run_append]
  exact System.size_sends_runFrom _ _

end Origin

/-- Whether a send is a hit on a site, of a message to a receiver of a shape. -/
def Sending.hits (t : SiteId) (name : String) (shape : Shape) (q : Sending β) : Bool :=
  q.takes t .hit && (q.call.name == name && q.call.receiver.shape == shape)

theorem Chain.not_megamorphic_of_branch {c : Chain β} {name : String} {shape : Shape} {b : Branch β}
    (h : c.branch? name shape = some b) : c.isMegamorphic = false := by
  rw [Bool.eq_false_iff]
  intro hm
  cases (branch_of_isMegamorphic hm).symm.trans h

theorem Chain.exists_node_of_branch {c : Chain β} {name : String} {shape : Shape} {b : Branch β}
    (h : c.branch? name shape = some b) : ∃ n ∈ c.nodes, n.branch? name shape = some b := by
  obtain ⟨i, _, h⟩ := Option.bind_eq_some_iff.mp h
  obtain ⟨n, hn, h⟩ := Option.bind_eq_some_iff.mp h
  exact ⟨n, List.mem_of_getElem? hn, h⟩

theorem World.entered_built {w : World β} {s : SiteId} {res : Resolution β} {b : Branch β}
    (h : w.built? s res = some b) : b.entered = 0 := by
  obtain ⟨⟨tokens, recipe⟩, _, rfl⟩ := Option.map_eq_some_iff.mp h
  cases recipe <;> rfl

namespace System

/-- The branch that an event puts into the chain of a site for a message and a shape. -/
def posted? (σ : System β) (t : SiteId) (name : String) (shape : Shape) (e : Event β) :
    Option (Branch β) :=
  (σ.published? t e).bind fun (call, res) =>
    if name = call.name ∧ shape = call.receiver.shape ∧ (σ.world.change t call res).posts = true then
      σ.world.built? t res
    else none

/-- What an origin says of the branch that a chain remembers for a message and a shape: the event put
it there, and from then on no other one was put in its place; only its counter has moved. -/
structure Brings (o : Origin β) (t : SiteId) (name : String) (shape : Shape) (b : Branch β) :
    Prop where
  posted : (run o.before).posted? t name shape o.event = some { b with entered := 0 }
  stays : Throughout step (fun σ e => σ.posted? t name shape e = none ∧
    ∃ k, (σ.world.site t).chain.branch? name shape = some { b with entered := k })
    (run (o.before ++ [o.event])) o.since

/-- A send waits that came to the branch for a message and a shape and found it invalid. -/
def Mends (σ : System β) (t : SiteId) (name : String) (shape : Shape) : Prop :=
  ∃ (i : Nat) (call : Call) (pause : Pause β),
    σ.sends[i]? = some ⟨t, call, .flying (.paused pause)⟩ ∧ call.name = name ∧
      call.receiver.shape = shape ∧ pause.route = .repair

/-- What a branch has counted: the calls that it has served since some moment, and failed tries, of
which there are none unless the branch is invalid and a send is under way that will see to it. -/
structure Tried (σ : System β) (t : SiteId) (name : String) (shape : Shape) (b : Branch β)
    (first failed : Nat) : Prop where
  entered : b.entered = σ.census (Sending.hits t name shape) first + failed
  failed : failed ≠ 0 → b.isValid σ.world.isValid = false ∧ σ.Mends t name shape

theorem posted?_of_published {σ : System β} {t : SiteId} {e : Event β} {call : Call}
    {res : Resolution β} (h : σ.published? t e = some (call, res)) (name : String) (shape : Shape) :
    σ.posted? t name shape e = if name = call.name ∧ shape = call.receiver.shape ∧
      (σ.world.change t call res).posts = true then σ.world.built? t res else none := by
  rw [posted?, h, Option.bind_some]

theorem posted?_of_not_published {σ : System β} {t : SiteId} {e : Event β}
    (h : σ.published? t e = none) (name : String) (shape : Shape) :
    σ.posted? t name shape e = none := by
  rw [posted?, h, Option.bind_none]

/-- An event that has nothing to do with the branch for a message and a shape: no call of the kind
begins, and what is published for it, if anything, finds the branch valid. -/
structure Passes (σ : System β) (t : SiteId) (name : String) (shape : Shape) (b : Branch β)
    (e : Event β) : Prop where
  begins : ∀ call, e = .begin t call → t.place < σ.world.sites.size →
    ¬ (name = call.name ∧ shape = call.receiver.shape)
  publishes : ∀ call res, σ.published? t e = some (call, res) → name = call.name →
    shape = call.receiver.shape → b.isValid σ.world.isValid = true
  posts : σ.posted? t name shape e = none

section Step

variable {events : List (Event β)} {e : Event β} {t : SiteId} {name : String} {shape : Shape}
  {b : Branch β}

/-- What is remembered after a publication was brought by it, or was there and then had to be valid if
the publication is for it. -/
theorem branch_of_published {call : Call} {res : Resolution β}
    (hpub : (run events).published? t e = some (call, res))
    (h : (((run events).step e).world.site t).chain.branch? name shape = some b) :
    (run events).posted? t name shape e = some b ∨
    (((run events).world.site t).chain.branch? name shape = some b ∧
      (run events).posted? t name shape e = none ∧
      (name = call.name → shape = call.receiver.shape →
        b.isValid (run events).world.isValid = true)) := by
  have hcoherent := coherent_run events
  have hw := (hcoherent.chains t).wellFormed
  obtain ⟨_, _, _, hi, _⟩ := published?_eq_some.mp hpub
  obtain ⟨effect, he⟩ := hcoherent.exists_effect t call res
  rw [site_of_published hpub (inside_run hi)] at h
  have hm := Chain.not_megamorphic_of_branch h
  have hposts : ((run events).world.change t call res).posts = true ↔ _ :=
    Chain.posts_plan_iff hw hm
  have hposted := posted?_of_published hpub name shape
  rw [he.branch_eq hw hm] at h
  split at h
  · rename_i hkey
    obtain ⟨rfl, rfl⟩ := hkey
    simp only [true_and] at hposted
    cases hold : (((run events).world.site t).chain.branch? call.name call.receiver.shape).filter
        fun b => b.isValid (run events).world.isValid with
    | none =>
      rw [hold, Option.none_or] at h
      rw [if_pos (hposts.mpr ⟨h ▸ rfl, hold⟩), h] at hposted
      exact .inl hposted
    | some old =>
      rw [hold, Option.some_or, Option.some.injEq] at h
      subst h
      obtain ⟨hbranch, hvalid⟩ := Option.filter_eq_some_iff.mp hold
      rw [if_neg fun hnew => nomatch hold.symm.trans (hposts.mp hnew).2] at hposted
      exact .inr ⟨hbranch, hposted, fun _ _ => hvalid⟩
  · rename_i hkey
    rw [if_neg fun hnew => hkey ⟨hnew.1, hnew.2.1⟩] at hposted
    exact .inr ⟨h, hposted, fun hname hshape => absurd ⟨hname, hshape⟩ hkey⟩

/-- Where a branch that is remembered after an event comes from: a call entered it, or it was put there,
or the event had nothing to do with it. -/
theorem branch_step
    (h : (((run events).step e).world.site t).chain.branch? name shape = some b) :
    (∃ call old, e = .begin t call ∧ t.place < (run events).world.sites.size ∧
      name = call.name ∧ shape = call.receiver.shape ∧
      ((run events).world.site t).chain.branch? name shape = some old ∧
      { old with entered := old.entered + 1 } = b) ∨
    (run events).posted? t name shape e = some b ∨
    (((run events).world.site t).chain.branch? name shape = some b ∧
      (run events).Passes t name shape b e) := by
  by_cases hbegin : ∃ call, e = .begin t call ∧ t.place < (run events).world.sites.size
  · obtain ⟨call, rfl, ht⟩ := hbegin
    have hw := ((coherent_run events).chains t).wellFormed
    rw [step_begin ht, World.site_begin, if_pos ⟨rfl, ht⟩, Chain.branch_walked hw] at h
    split at h
    · rename_i hkey
      obtain ⟨old, hold, rfl⟩ := Option.map_eq_some_iff.mp h
      exact .inl ⟨call, old, rfl, ht, hkey.1, hkey.2, hold, rfl⟩
    · rename_i hkey
      refine .inr (.inr ⟨h, ?_, fun _ _ hpub => (nomatch hpub), rfl⟩)
      rintro _ he _
      exact (Event.begin.inj he).2 ▸ hkey
  · have hbegins : ∀ call, e = .begin t call → t.place < (run events).world.sites.size →
        ¬ (name = call.name ∧ shape = call.receiver.shape) :=
      fun call he ht => absurd ⟨call, he, ht⟩ hbegin
    cases hpub : (run events).published? t e with
    | some published =>
      obtain ⟨call, res⟩ := published
      refine .inr ((branch_of_published hpub h).imp_right ?_)
      rintro ⟨hbranch, hnone, hvalid⟩
      refine ⟨hbranch, hbegins, fun _ _ hpub' => ?_, hnone⟩
      obtain ⟨rfl, rfl⟩ := Prod.mk.inj (Option.some.inj (hpub.symm.trans hpub'))
      exact hvalid
    | none =>
      refine .inr (.inr ⟨?_, hbegins, fun _ _ hsome => (nomatch hpub.symm.trans hsome),
        posted?_of_not_published hpub name shape⟩)
      obtain ⟨hkeep, _⟩ | ⟨_, hnew, _⟩ | ⟨call, he, ht, _⟩ | ⟨_, _, hsome, _⟩ |
        ⟨_, _, _, _, _, _, _, hend⟩ := site_step (run events) e t
      · rwa [hkeep] at h
      · rw [hnew] at h
        cases h
      · exact absurd ⟨call, he, ht⟩ hbegin
      · cases hpub.symm.trans hsome
      · rwa [hend] at h

/-- The hits of a kind are counted as before. -/
theorem hits_of_passes (h : (run events).Passes t name shape b e) {first : Nat}
    (hfirst : first ≤ (run events).sends.size) :
    ((run events).step e).census (Sending.hits t name shape) first =
      (run events).census (Sending.hits t name shape) first := by
  obtain hidle | ⟨a, rfl, hact⟩ | ⟨s, call, rfl, hs, hbegin⟩ | ⟨i, s, call, pause, rfl, hi, hresume⟩ |
    ⟨i, result, s, call, landing, rfl, hi, hfinish⟩ := step_cases (run events) e
  · rw [hidle]
  · rw [hact]
    rfl
  · have hother : Sending.hits t name shape
        ⟨s, call, .flying ((run events).world.begin s call).2⟩ = false := by
      rw [Bool.eq_false_iff]
      intro hhit
      simp only [Sending.hits, Sending.takes, Bool.and_eq_true, beq_iff_eq] at hhit
      obtain ⟨⟨rfl, _⟩, hname, hshape⟩ := hhit
      exact h.begins call rfl hs ⟨hname.symm, hshape.symm⟩
    rw [hbegin, census_push hfirst, hother]
    rfl
  · rw [hresume]
    refine census_advance_of_same hi ?_
    rw [Sending.hits, Sending.hits, Sending.takes, Sending.takes, World.route_resume]
    rfl
  · rw [hfinish]
    exact census_advance_of_same hi (by rfl)

theorem not_isValid_step (hb : ((run events).world.site t).chain.branch? name shape = some b)
    (hv : b.isValid (run events).world.isValid = false) (e : Event β) :
    b.isValid ((run events).step e).world.isValid = false := by
  have hcoherent := coherent_run events
  obtain ⟨n, hn, hbranch⟩ := Chain.exists_node_of_branch hb
  have hbacked := (hcoherent.chains t n hn).branches name shape b hbranch
  exact hbacked.not_isValid_evolve (evolves_step hcoherent.registry e) hv

/-- A send that has to see to a branch goes on waiting. -/
theorem mends_of_passes (h : (run events).Passes t name shape b e)
    (hv : b.isValid (run events).world.isValid = false)
    (hm : (run events).Mends t name shape) : ((run events).step e).Mends t name shape := by
  obtain ⟨i, call, pause, hi, hname, hshape, hroute⟩ := hm
  by_cases he : e = .resume i
  · subst he
    have hlast : (run events).world.publishes t pause = false := by
      rw [Bool.eq_false_iff]
      intro hpub
      have hvalid := h.publishes call pause.resolution
        (published?_eq_some.mpr ⟨i, pause, rfl, hi, hpub, rfl⟩) hname.symm hshape.symm
      cases hvalid.symm.trans hv
    cases pause with
    | lookedUpHandler route lookup handler =>
      obtain rfl : route = .repair := hroute
      cases hlast
    | lookedUp route lookup =>
      obtain rfl : route = .repair := hroute
      have hwants : ((run events).world.site t).options.wantsHandler lookup = true :=
        (Bool.not_eq_false' _).mp hlast
      refine ⟨i, call, .lookedUpHandler .repair lookup
        ((run events).world.registry.lookupHandler call), ?_, hname, hshape, rfl⟩
      rw [step_resume hi, sends_advance, if_pos rfl, hi, Option.map_some,
        World.resume_of_wants .repair hwants]
  · exact ⟨i, call, pause, paused_step hi he, hname, hshape, hroute⟩

theorem Tried.passes {first failed : Nat} (h : (run events).Tried t name shape b first failed)
    (hfirst : first ≤ (run events).sends.size)
    (hb : ((run events).world.site t).chain.branch? name shape = some b)
    (he : (run events).Passes t name shape b e) :
    ((run events).step e).Tried t name shape b first failed := by
  refine ⟨by rw [hits_of_passes he hfirst, h.entered], fun hfailed => ?_⟩
  obtain ⟨hv, hm⟩ := h.failed hfailed
  exact ⟨not_isValid_step hb hv e, mends_of_passes he hv hm⟩

/-- A call that enters a branch is served by it, or it failed and waits to see to it. -/
theorem Tried.begins {call : Call} {old : Branch β} {first failed : Nat}
    (h : (run events).Tried t call.name call.receiver.shape old first failed)
    (hfirst : first ≤ (run events).sends.size) (ht : t.place < (run events).world.sites.size)
    (hold : ((run events).world.site t).chain.branch? call.name call.receiver.shape = some old) :
    ∃ failed', ((run events).step (.begin t call)).Tried t call.name call.receiver.shape
      { old with entered := old.entered + 1 } first failed' := by
  have hroute := World.route_eq (counted_run events t) ((coherent_run events).chains t).wellFormed call
  rw [Chain.not_megamorphic_of_branch hold, if_neg Bool.false_ne_true, hold] at hroute
  have hcensus : ((run events).step (.begin t call)).census
      (Sending.hits t call.name call.receiver.shape) first =
        (run events).census (Sending.hits t call.name call.receiver.shape) first +
          ((run events).world.route t call == .hit).toNat := by
    rw [step_begin ht, census_push hfirst, Sending.hits, Sending.takes, World.route_begin]
    simp only [beq_self_eq_true, Bool.true_and, Bool.and_true]
  cases hv : old.isValid (run events).world.isValid with
  | true =>
    have hhit : (run events).world.route t call = .hit := hroute.trans (if_pos hv)
    refine ⟨failed, ?_, fun hfailed => ?_⟩
    · rw [hcensus, hhit, beq_self_eq_true, h.entered, Bool.toNat_true, Nat.add_right_comm]
    · cases hv.symm.trans (h.failed hfailed).1
  | false =>
    have hrepair : (run events).world.route t call = .repair :=
      hroute.trans (if_neg (Bool.eq_false_iff.mp hv))
    have hunserved : (run events).unserved? t call.name call.receiver.shape (.begin t call) =
        some call := unserved?_eq_some.mpr ⟨rfl, ht, rfl, rfl, hrepair.trans_ne (by decide)⟩
    refine ⟨failed + 1, ?_, fun _ => ⟨not_isValid_step hold hv _, ?_⟩⟩
    · rw [hcensus, hrepair, h.entered]
      rfl
    · exact ⟨_, call, _, sends_of_unserved hunserved, rfl, rfl, hrepair⟩

/-- A branch that is put into a chain has not been entered yet. -/
theorem Tried.posted (h : (run events).posted? t name shape e = some b) :
    b.entered = 0 ∧ ((run events).step e).Tried t name shape b (run events).sends.size 0 := by
  obtain ⟨⟨call, res⟩, hpub, hb⟩ := Option.bind_eq_some_iff.mp h
  obtain ⟨i, pause, rfl, hi, _⟩ := published?_eq_some.mp hpub
  have hfresh : b.entered = 0 :=
    World.entered_built ((Option.ite_none_right_eq_some.mp hb).2)
  have hsize : ((run events).step (.resume i)).sends.size = (run events).sends.size := by
    rw [step_resume hi]
    exact Array.size_modify
  refine ⟨hfresh, ?_, fun hzero => absurd rfl hzero⟩
  rw [hfresh, census_of_size_le (Nat.le_of_eq hsize)]

end Step

variable {t : SiteId} {name : String} {shape : Shape} {b old : Branch β}

/-- An origin goes on to tell where a branch comes from, as long as no other one is put in its place. -/
theorem Brings.concat {o : Origin β} (h : Brings o t name shape old) {e : Event β}
    (hnone : (run o.events).posted? t name shape e = none)
    (hold : ((run o.events).world.site t).chain.branch? name shape = some old)
    (hb : { b with entered := 0 } = { old with entered := 0 }) :
    Brings { o with since := o.since ++ [e] } t name shape b := by
  have hrun : (run (o.before ++ [o.event])).runFrom o.since = run o.events := by
    rw [← run_append, Origin.events, List.append_assoc]
    rfl
  have hmoved : ∀ k, { b with entered := k } = { old with entered := k } :=
    fun k => congrArg (fun c : Branch β => { c with entered := k }) hb
  refine ⟨hb ▸ h.posted, Throughout.concat.mpr ⟨?_, ?_⟩⟩
  · simp only [hmoved]
    exact h.stays
  · have hlast : (o.since.foldl step (run (o.before ++ [o.event]))) = run o.events := hrun
    rw [hlast]
    exact ⟨hnone, old.entered, hold.trans (congrArg some (hmoved old.entered).symm)⟩

/-- Every branch of a chain has an origin, and has counted since then the calls that it served, and
failed tries only as long as somebody is to see to it. -/
theorem tried_run {events : List (Event β)}
    (h : ((run events).world.site t).chain.branch? name shape = some b) :
    ∃ (o : Origin β) (failed : Nat), o.events = events ∧ Brings o t name shape b ∧
      (run events).Tried t name shape b o.first failed := by
  induction events using List.reverseRecOn generalizing b with
  | nil =>
    rw [chain_of_not_lt (Nat.not_lt_zero _)] at h
    cases h
  | append_singleton es e ih =>
    rw [run_append, runFrom_cons, runFrom_nil] at h ⊢
    obtain ⟨call, old, rfl, ht, rfl, rfl, hold, rfl⟩ | hposted | ⟨hsame, hpasses⟩ := branch_step h
    · obtain ⟨o, failed, rfl, hbrings, htried⟩ := ih hold
      obtain ⟨failed', htried'⟩ := htried.begins o.first_le ht hold
      exact ⟨{ o with since := o.since ++ [.begin t call] }, failed', by simp [Origin.events],
        hbrings.concat rfl hold rfl, htried'⟩
    · obtain ⟨hfresh, htried⟩ := Tried.posted hposted
      have hb : { b with entered := 0 } = b := hfresh ▸ rfl
      exact ⟨⟨es, e, []⟩, 0, rfl, ⟨hb.symm ▸ hposted, trivial⟩, htried⟩
    · obtain ⟨o, failed, rfl, hbrings, htried⟩ := ih hsame
      exact ⟨{ o with since := o.since ++ [e] }, failed, by simp [Origin.events],
        hbrings.concat hpasses.posts hsame rfl, htried.passes o.first_le hsame hpasses⟩

/-- On an idle site a branch has counted the calls that it has served. -/
theorem entered_eq_hits {events : List (Event β)} (hidle : (run events).Idle t)
    (h : ((run events).world.site t).chain.branch? name shape = some b) :
    ∃ o : Origin β, o.events = events ∧ Brings o t name shape b ∧
      b.entered = (run events).census (Sending.hits t name shape) o.first := by
  obtain ⟨o, failed, rfl, hbrings, hentered, hfailed⟩ := tried_run h
  refine ⟨o, rfl, hbrings, hentered.trans ?_⟩
  by_cases hzero : failed = 0
  · rw [hzero, Nat.add_zero]
  · obtain ⟨_, i, call, pause, hi, _⟩ := hfailed hzero
    exact absurd hi (hidle i call _)

end System

/-- How often the branches of a node were entered. -/
def Node.entered (n : Node β) : Nat := (n.branches.map Branch.entered).sum

/-- How often the branches of a chain were entered. -/
def Chain.entered (c : Chain β) : Nat := (c.nodes.map Node.entered).sum

/-- The branches of a node are what it remembers for its message and the shapes that it covers. -/
theorem Node.WellFormed.entered_eq {n : Node β} (h : n.WellFormed) : ∃ shapes : List Shape,
    shapes.Nodup ∧ (∀ shape ∈ shapes, n.covers n.guard.name shape = true) ∧
      n.entered = (shapes.map fun shape =>
        (n.branch? n.guard.name shape).elim 0 Branch.entered).sum := by
  cases n with
  | boolean g onFalse onTrue =>
    have hc : ∀ v, (boolean g onFalse onTrue).covers g.name (.bool v) = true :=
      fun v => (covers_boolean h).mpr ⟨rfl, v, rfl⟩
    have hfalse : (boolean g onFalse onTrue).branch? g.name (.bool false) = onFalse :=
      branch_of_slot (hc false) rfl
    have htrue : (boolean g onFalse onTrue).branch? g.name (.bool true) = onTrue :=
      branch_of_slot (hc true) rfl
    refine ⟨[.bool false, .bool true], by decide, ?_, ?_⟩
    · simp [hc, guard]
    · cases onFalse <;> cases onTrue <;> simp [entered, branches, guard, hfalse, htrue]
  | single g branch =>
    obtain ⟨shape, hshape, _⟩ := h
    have hc : (single g branch).covers g.name shape = true := (covers_single hshape).mpr ⟨rfl, rfl⟩
    have hslot : (single g branch).branch? g.name shape = branch := branch_of_slot hc rfl
    refine ⟨[shape], List.nodup_singleton _, ?_, ?_⟩
    · simp [hc, guard]
    · cases branch <;> simp [entered, branches, guard, hslot]

namespace Chain

variable {c : Chain β} {bound : Nat}

/-- What a node remembers is remembered by the chain. -/
theorem branch_of_mem (hc : c.Proper bound) (hw : ∀ n ∈ c.nodes, n.WellFormed) {n : Node β}
    (hn : n ∈ c.nodes) {name : String} {shape : Shape} {b : Branch β}
    (hb : n.branch? name shape = some b) : c.branch? name shape = some b := by
  have hcovers : n.covers name shape = true := by
    by_contra hcovers
    rw [Node.branch?, if_neg hcovers] at hb
    cases hb
  cases hp : c.position? name shape with
  | none => cases hcovers.symm.trans (not_covers_of_position hp n hn)
  | some i =>
    obtain ⟨m, hm⟩ := inCharge_of_position hp
    obtain ⟨j, hj⟩ := List.mem_iff_getElem?.mp hn
    have hguard : m.guard = n.guard :=
      ((Node.covers_iff_guard (hw m hm.mem)).mp hm.covers).trans
        ((Node.covers_iff_guard (hw n hn)).mp hcovers).symm
    obtain rfl := hc.index_unique hm.node hj hguard
    obtain rfl := Option.some.inj (hm.node.symm.trans hj)
    rw [branch_of_inCharge hm, hb]

/-- No two nodes of a chain are in charge of one message and shape. -/
theorem pairwise_covers (hc : c.Proper bound) (hw : ∀ n ∈ c.nodes, n.WellFormed) :
    c.nodes.Pairwise fun m n => ∀ name shape, n.covers name shape = true →
      m.covers name shape = false := by
  refine (List.pairwise_map.mp hc.distinct).imp_of_mem fun {m n} hm hn hne name shape hcovers => ?_
  rw [Bool.eq_false_iff]
  intro hboth
  exact hne (((Node.covers_iff_guard (hw m hm)).mp hboth).trans
    ((Node.covers_iff_guard (hw n hn)).mp hcovers).symm)

end Chain

namespace System

section Sums

variable {events : List (Event β)} {t : SiteId}

/-- On an idle site, hits have been counted. -/
theorem census_served_eq {σ : System β} (hidle : σ.Idle t) {p : Sending β → Bool}
    (hp : ∀ q, p q = true → q.takes t .hit = true) {since : Nat} :
    σ.census p since = σ.census (fun q => p q && q.stage.isOver) since := by
  refine census_congr fun i q hq => ?_
  cases h : p q with
  | false => rw [Bool.false_and]
  | true =>
    have hsite : q.site = t := beq_iff_eq.mp (Bool.and_eq_true_iff.mp (hp q h)).1
    rw [idle_iff.mp hidle q (Array.mem_iff_getElem?.mpr ⟨i, hq⟩) hsite, Bool.and_self]

/-- The branches of a node have counted no more than the hits that the node is in charge of. -/
theorem entered_node_le (hidle : (run events).Idle t) {n : Node β}
    (hn : n ∈ ((run events).world.site t).chain.nodes) : n.entered ≤
      (run events).census fun q => q.takes t .hit && n.covers q.call.name q.call.receiver.shape := by
  have hproper := (counted_run events t).proper
  have hw := ((coherent_run events).chains t).wellFormed
  obtain ⟨shapes, hnodup, hcovers, hsum⟩ := (hw n hn).entered_eq
  have hslot : ∀ shape ∈ shapes, (n.branch? n.guard.name shape).elim 0 Branch.entered ≤
      (run events).census fun q =>
        (q.takes t .hit && n.covers q.call.name q.call.receiver.shape) &&
          (q.call.name == n.guard.name && q.call.receiver.shape == shape) := by
    intro shape hshape
    cases hb : n.branch? n.guard.name shape with
    | none => exact Nat.zero_le _
    | some b =>
      obtain ⟨o, _, _, hentered⟩ := entered_eq_hits hidle (Chain.branch_of_mem hproper hw hn hb)
      rw [Option.elim_some, hentered]
      refine Nat.le_trans census_le (census_mono fun q hq => ?_)
      simp only [Sending.hits, Bool.and_eq_true, beq_iff_eq] at hq ⊢
      obtain ⟨htakes, hname, rfl⟩ := hq
      exact ⟨⟨htakes, hname ▸ hcovers _ hshape⟩, hname, rfl⟩
  rw [hsum]
  refine sum_le_census (hnodup.imp fun {s u} hne q hq => ?_) _ hslot
  rw [Bool.and_eq_true, beq_iff_eq, beq_iff_eq] at hq
  rw [hq.2, beq_false_of_ne (Ne.symm hne), Bool.and_false]

theorem entered_le_hits (hidle : (run events).Idle t) :
    ((run events).world.site t).chain.entered ≤ ((run events).world.site t).stats.hits := by
  have hproper := (counted_run events t).proper
  have hw := ((coherent_run events).chains t).wellFormed
  have hhits : ((run events).world.site t).stats.hits =
      (run events).census fun q => q.takes t .hit := by
    rw [census_served_eq hidle fun q hq => hq]
    refine Eq.trans (sent_eq_census events t .hit) (census_congr fun i q _ => ?_)
    rw [Sending.counted, bne_self_eq_false, Bool.or_false]
  rw [hhits]
  exact sum_le_census ((Chain.pairwise_covers hproper hw).imp fun h q => h _ _) _
    fun n hn => entered_node_le hidle hn

end Sums

/-- In every reachable state in which a site is idle, the counter of each cached branch is the number of
sends that were hits on this very branch since it was built: from the event that put it into the
chain on no other one was put in its place, and only its counter has moved, whatever was rebuilt
around it. So the counters of a chain come to no more than the hits of its site. -/
theorem entered_counts_hits (events : List (Event β)) (t : SiteId) (h : (run events).Idle t) :
    let x := (run events).world.site t
    (∀ (n : Node β) (name : String) (shape : Shape) (b : Branch β),
      n ∈ x.chain.nodes → n.branch? name shape = some b →
      ∃ o : Origin β, o.events = events ∧ Brings o t name shape b ∧
        b.entered = (run events).census (fun q => q.hits t name shape && q.stage.isOver) o.first) ∧
    x.chain.entered ≤ x.stats.hits := by
  intro x
  refine ⟨fun n name shape b hn hb => ?_, entered_le_hits h⟩
  have hproper := (counted_run events t).proper
  have hw := ((coherent_run events).chains t).wellFormed
  obtain ⟨o, ho, hbrings, hentered⟩ := entered_eq_hits h (Chain.branch_of_mem hproper hw hn hb)
  refine ⟨o, ho, hbrings, hentered.trans (census_served_eq h fun q hq => ?_)⟩
  exact (Bool.and_eq_true_iff.mp hq).1

theorem entered_counts_hits_warmSite :
    let events : List (Event Unit) := warmSite ++ [.finish 0 (.ok .nil),
      .begin ⟨0⟩ { name := "m", receiver := .bool true }, .finish 1 (.ok .nil)]
    (run events).Idle ⟨0⟩ ∧ ((run events).world.site ⟨0⟩).chain.entered ≤
      ((run events).world.site ⟨0⟩).stats.hits ∧
    ∃ o : Origin Unit, o.events = events ∧
      1 = (run events).census
        (fun q => q.hits ⟨0⟩ "m" (.bool true) && q.stage.isOver) o.first := by
  intro events
  let b : Branch Unit :=
    ⟨[⟨10⟩], .direct ⟨⟨{ name := "m", alwaysClone := true, body := () }, 2, .object⟩, true⟩, 1⟩
  have hidle : (run events).Idle ⟨0⟩ := by decide +kernel
  have hn : Node.boolean ⟨"m", .boolean⟩ none (some b) ∈
      ((run events).world.site ⟨0⟩).chain.nodes := by decide +kernel
  obtain ⟨hcounts, hsum⟩ := entered_counts_hits events ⟨0⟩ hidle
  obtain ⟨o, ho, _, hentered⟩ := hcounts _ "m" (.bool true) b hn rfl
  exact ⟨hidle, hsum, o, ho, hentered⟩

end System
end InlineCache
