import InlineCache.Proofs.Throughout
import InlineCache.Proofs.World.Routes

/-! What a run tells about the sends that were not served. In a run that nothing interrupts a send
looks up and publishes in one go, though its method body may send again; of the sends of a message to
receivers of one shape that a site did not serve, the latest one is found by looking back. -/
namespace InlineCache

variable {β : Type}

/-- The send that an event takes through a pause. -/
def Event.resumed? : Event β → Option Nat
  | resume i => some i
  | _ => none

/-- A send that a site did not serve: the state that it began in, its call, and what has happened
since. -/
structure Unserved (β : Type) where
  start : System β
  call : Call
  since : List (Event β)

namespace System

/-- A send waits with what it has looked up. -/
def waiting (σ : System β) (i : Nat) : Bool :=
  match σ.sends[i]? with
  | some { stage := .flying (.paused _), .. } => true
  | _ => false

/-- Nothing comes between the lookups of a send and what it does with them: while a send waits the next
event is that it goes on. -/
def Uninterrupted (σ : System β) (events : List (Event β)) : Prop :=
  Throughout step (fun σ e => ∀ i < σ.sends.size, σ.waiting i = true → e.resumed? = some i) σ events

instance (σ : System β) (events : List (Event β)) : Decidable (σ.Uninterrupted events) :=
  inferInstanceAs (Decidable (Throughout ..))

/-- The event after a send has paused. -/
theorem Uninterrupted.eq_resume {before : List (Event β)} {e : Event β}
    (h : Uninterrupted {} (before ++ [e])) {i : Nat} {s : SiteId} {call : Call} {pause : Pause β}
    (hi : (run before).sends[i]? = some ⟨s, call, .flying (.paused pause)⟩) : e = .resume i := by
  obtain ⟨hlt, _⟩ := Array.getElem?_eq_some_iff.mp hi
  have hw : (run before).waiting i = true := by rw [waiting, hi]
  have he := (Throughout.concat.mp h).2 i hlt hw
  cases e with
  | resume j => exact congrArg Event.resume (Option.some.inj he)
  | _ => cases he

/-- The call of an event that begins a send, of a message to a receiver of a shape, that a site does not
serve. -/
def unserved? (σ : System β) (t : SiteId) (name : String) (shape : Shape) : Event β → Option Call
  | .begin s call =>
    if s = t ∧ t.place < σ.world.sites.size ∧ call.name = name ∧ call.receiver.shape = shape ∧
        σ.world.route t call ≠ .hit then some call
    else none
  | _ => none

theorem unserved?_eq_some {σ : System β} {t : SiteId} {name : String} {shape : Shape} {e : Event β}
    {call : Call} : σ.unserved? t name shape e = some call ↔ e = .begin t call ∧
      t.place < σ.world.sites.size ∧ call.name = name ∧ call.receiver.shape = shape ∧
      σ.world.route t call ≠ .hit := by
  cases e with
  | begin s other =>
    simp only [unserved?, Option.ite_none_right_eq_some, Option.some.injEq, Event.begin.injEq]
    constructor
    · rintro ⟨⟨rfl, h⟩, rfl⟩
      exact ⟨⟨rfl, rfl⟩, h⟩
    · rintro ⟨⟨rfl, rfl⟩, h⟩
      exact ⟨⟨rfl, h⟩, rfl⟩
  | _ => simp [unserved?]

/-- The latest send of a message to a receiver of a shape that a site did not serve, in the course of
events. -/
def latest? (σ : System β) (t : SiteId) (name : String) (shape : Shape) :
    List (Event β) → Option (Unserved β)
  | [] => none
  | e :: rest => ((σ.step e).latest? t name shape rest).or
      ((σ.unserved? t name shape e).map fun call => ⟨σ, call, rest⟩)

/-- One event more. -/
theorem latest_concat (σ : System β) (t : SiteId) (name : String) (shape : Shape)
    (es : List (Event β)) (e : Event β) : σ.latest? t name shape (es ++ [e]) =
      (((σ.runFrom es).unserved? t name shape e).map fun call => ⟨σ.runFrom es, call, []⟩).or
        ((σ.latest? t name shape es).map fun u => { u with since := u.since ++ [e] }) := by
  induction es generalizing σ with
  | nil => simp [latest?]
  | cons x rest ih =>
    rw [List.cons_append, latest?, ih, latest?, runFrom_cons, Option.or_assoc, Option.map_or,
      Option.map_map]
    rfl

/-- What is found by looking back is in the past: a send that began then and was not served. -/
theorem latest_start {σ : System β} {t : SiteId} {name : String} {shape : Shape}
    {events : List (Event β)} {u : Unserved β} (h : σ.latest? t name shape events = some u) :
    ∃ before, events = before ++ .begin t u.call :: u.since ∧ u.start = σ.runFrom before ∧
      t.place < u.start.world.sites.size ∧ u.call.name = name ∧ u.call.receiver.shape = shape ∧
      u.start.world.route t u.call ≠ .hit := by
  induction events generalizing σ with
  | nil => cases h
  | cons e rest ih =>
    rw [latest?, Option.or_eq_some_iff] at h
    obtain h | ⟨_, h⟩ := h
    · obtain ⟨before, rfl, hstart, hrest⟩ := ih h
      exact ⟨e :: before, rfl, hstart, hrest⟩
    · obtain ⟨call, hcall, rfl⟩ := Option.map_eq_some_iff.mp h
      obtain ⟨rfl, hrest⟩ := unserved?_eq_some.mp hcall
      exact ⟨[], rfl, rfl, hrest⟩

/-- A send that is not served waits with its first lookup. -/
theorem sends_of_unserved {σ : System β} {t : SiteId} {name : String} {shape : Shape} {e : Event β}
    {call : Call} (h : σ.unserved? t name shape e = some call) :
    (σ.step e).sends[σ.sends.size]? = some ⟨t, call, .flying (.paused (.lookedUp
      (σ.world.route t call) (σ.world.registry.lookup (σ.world.site t).options call)))⟩ := by
  obtain ⟨rfl, ht, _, _, hroute⟩ := unserved?_eq_some.mp h
  have hserved : ∀ target, σ.world.verdict t call ≠ .served target := by
    intro target hv
    rw [World.route, hv] at hroute
    exact hroute rfl
  obtain ⟨route, hbegin⟩ := World.begin_of_not_served hserved
  have hsame := World.route_begin σ.world t call
  rw [hbegin] at hsame
  obtain rfl : route = _ := hsame
  rw [step_begin ht, Array.getElem?_push_size, hbegin]

end System
end InlineCache
