import InlineCache.Proofs.Registry.Validity
import InlineCache.Proofs.World.System

/-! The validity of tokens in the course of events. Sends never change the registry, so what a run
leaves of a token is what its history of operations leaves of it. -/
namespace InlineCache

variable {β : Type}

namespace System

/-- An event leaves a class and all that is above it unchanged. -/
def Spares (σ : System β) (c : ClassId) (e : Event β) : Prop :=
  ∀ op ∈ e.operation? σ.world, σ.world.registry.Spares c op

/-- Nothing in the course of events changes a class or anything above it. -/
def Undisturbed (σ : System β) (c : ClassId) (events : List (Event β)) : Prop :=
  Throughout step (fun σ e => σ.Spares c e) σ events

/-- What holds of every operation of a run's history holds of every event that does one. -/
theorem throughout_history {P : Registry β → Registry.Operation β → Prop} {σ : System β}
    {events : List (Event β)} :
    Throughout Registry.perform P σ.world.registry (σ.history events) ↔
      Throughout step (fun σ e => ∀ op ∈ e.operation? σ.world, P σ.world.registry op) σ events := by
  induction events generalizing σ with
  | nil => exact Iff.rfl
  | cons e rest ih =>
    have hnext : (e.operation? σ.world).toList.foldl Registry.perform σ.world.registry =
        (σ.step e).world.registry := by
      rw [registry_step]
      cases e.operation? σ.world <;> rfl
    rw [history, Throughout.append, hnext, ih]
    refine and_congr_left' ?_
    cases hop : e.operation? σ.world <;> simp [Throughout, hop]

/-- Where no token is invalidated directly, none is revoked. -/
theorem unrevoked_history {σ : System β} {events : List (Event β)} {t : TokenId}
    (h : .act (.invalidateToken t) ∉ events) : σ.world.registry.Unrevoked t (σ.history events) := by
  refine throughout_history.mpr (Throughout.of_forall_mem ?_)
  rintro e he σ op hop _ rfl
  cases e with
  | act a =>
    cases a with
    | invalidateToken u =>
      obtain rfl : u = t := by simpa [Event.operation?, Act.operation?] using hop
      exact h he
    | _ => simp [Event.operation?, Act.operation?] at hop
  | _ => cases hop

/-- The token that a class hands out is valid later exactly if the class and all above it have been left
unchanged, where no token is invalidated directly. -/
theorem isValid_runFrom_iff {before later : List (Event β)} {c : ClassId} {t : TokenId}
    (ht : (run before).world.registry.currentToken? c = some t)
    (hdirect : .act (.invalidateToken t) ∉ before ++ later) :
    (run (before ++ later)).world.isValid t = true ↔ (run before).Undisturbed c later := by
  rw [List.mem_append, not_or] at hdirect
  have hw := wellFormed_run before
  have hvalid : (run before).world.registry.tokens.isValid t = true := by
    have hunrevoked : ({} : System β).world.registry.Unrevoked t (({} : System β).history before) :=
      unrevoked_history hdirect.1
    rw [run, registry_runFrom] at ht ⊢
    exact (Registry.isValid_currentToken Registry.wellFormed_builtin Registry.fresh_builtin ht).mpr
      hunrevoked
  rw [run_append, World.isValid, registry_runFrom, Registry.isValid_performAll hw ht,
    and_iff_right hvalid, and_iff_right (unrevoked_history hdirect.2)]
  exact throughout_history

end System
end InlineCache
