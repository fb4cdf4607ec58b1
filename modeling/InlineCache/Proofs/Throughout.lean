/-! Runs one step at a time. What holds of every step of a run, in the state that the step is taken
in, holds throughout the run. -/
namespace InlineCache

variable {σ ε : Type}

/-- Every step of a run has a property in the state that it is taken in. -/
def Throughout (step : σ → ε → σ) (P : σ → ε → Prop) : σ → List ε → Prop
  | _, [] => True
  | s, e :: rest => P s e ∧ Throughout step P (step s e) rest

namespace Throughout

variable {step : σ → ε → σ} {P : σ → ε → Prop}

instance decidable [∀ s e, Decidable (P s e)] (s : σ) (es : List ε) :
    Decidable (Throughout step P s es) :=
  match es with
  | [] => isTrue trivial
  | e :: rest => @instDecidableAnd _ _ _ (decidable (step s e) rest)

theorem append {s : σ} {es fs : List ε} : Throughout step P s (es ++ fs) ↔
    Throughout step P s es ∧ Throughout step P (es.foldl step s) fs := by
  induction es generalizing s with
  | nil => simp [Throughout]
  | cons e rest ih => exact (and_congr_right fun _ => ih).trans and_assoc.symm

theorem concat {s : σ} {es : List ε} {e : ε} : Throughout step P s (es ++ [e]) ↔
    Throughout step P s es ∧ P (es.foldl step s) e := by
  rw [append]
  exact and_congr_right fun _ => and_iff_left trivial

theorem of_forall_mem {s : σ} {es : List ε} (h : ∀ e ∈ es, ∀ s, P s e) : Throughout step P s es := by
  induction es generalizing s with
  | nil => trivial
  | cons e rest ih =>
    exact ⟨h e List.mem_cons_self s, ih fun f hf => h f (List.mem_cons_of_mem e hf)⟩

end Throughout
end InlineCache
