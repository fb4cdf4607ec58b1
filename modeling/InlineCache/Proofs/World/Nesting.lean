import InlineCache.Proofs.World.Sends

/-! Events inside a send. What happens while a send waits, or while its method runs, begins sends of
its own and ends them; the sends that were there before stay as they are. -/
namespace InlineCache

variable {β : Type}

/-- An event that leaves the first `k` sends alone. -/
def Event.Spares (k : Nat) : Event β → Prop
  | .resume i | .finish i _ => k ≤ i
  | .act _ | .begin _ _ => True

namespace System

/-- One state comes to another by events that leave the first `k` sends alone. -/
def Leads (k : Nat) (σ τ : System β) : Prop :=
  ∃ events : List (Event β), (∀ e ∈ events, e.Spares k) ∧ σ.runFrom events = τ

namespace Leads

variable {k : Nat} {σ τ υ : System β}

theorem refl (k : Nat) (σ : System β) : Leads k σ σ := ⟨[], List.forall_mem_nil _, rfl⟩

theorem of_step {e : Event β} (h : e.Spares k) (σ : System β) : Leads k σ (σ.step e) :=
  ⟨[e], fun _ he => List.mem_singleton.mp he ▸ h, rfl⟩

theorem trans (h : Leads k σ τ) (h' : Leads k τ υ) : Leads k σ υ := by
  obtain ⟨es, hes, rfl⟩ := h
  obtain ⟨fs, hfs, rfl⟩ := h'
  refine ⟨es ++ fs, fun e he => ?_, runFrom_append σ es fs⟩
  obtain he | he := List.mem_append.mp he
  · exact hes e he
  · exact hfs e he

theorem mono {j : Nat} (h : Leads k σ τ) (hj : j ≤ k) : Leads j σ τ := by
  obtain ⟨es, hes, rfl⟩ := h
  refine ⟨es, fun e he => ?_, rfl⟩
  have hspares := hes e he
  cases e with
  | resume i => exact Nat.le_trans hj hspares
  | finish i result => exact Nat.le_trans hj hspares
  | act a => trivial
  | begin s call => trivial

theorem size_sends (h : Leads k σ τ) : σ.sends.size ≤ τ.sends.size := by
  obtain ⟨es, _, rfl⟩ := h
  exact size_sends_runFrom σ es

theorem grown (h : Leads k σ τ) : σ.world.Grown τ.world := by
  obtain ⟨es, _, rfl⟩ := h
  exact grown_runFrom σ es

/-- A send that is left alone is found as it was. -/
theorem sends_eq (h : Leads k σ τ) {i : Nat} (hk : i < k) (hi : i < σ.sends.size) :
    τ.sends[i]? = σ.sends[i]? := by
  obtain ⟨es, hes, rfl⟩ := h
  induction es generalizing σ with
  | nil => rfl
  | cons e rest ih =>
    have hspares := hes e List.mem_cons_self
    have hstep : (σ.step e).sends[i]? = σ.sends[i]? := by
      refine sends_of_others hi ?_ ?_
      · rintro rfl
        exact Nat.not_le_of_lt hk hspares
      · rintro result rfl
        exact Nat.not_le_of_lt hk hspares
    rw [runFrom_cons, ← hstep]
    exact ih (Nat.lt_of_lt_of_le hi (size_sends_step σ e))
      fun f hf => hes f (List.mem_cons_of_mem e hf)

end Leads
end System
end InlineCache
