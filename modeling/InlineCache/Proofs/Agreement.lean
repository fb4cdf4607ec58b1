/-! Computations that may fail. One that goes well has gone well in each of its steps. Two of them agree
if both fail with the same error, or both go well with results that stand in a relation; agreement is
carried along sequences of steps. -/
namespace InlineCache

variable {ε α γ δ κ : Type}

/-- The results of a computation that went well are those of its parts. -/
theorem ok_of_bind {x : Except ε α} {f : α → Except ε γ} {c : γ} (h : x >>= f = .ok c) :
    ∃ a, x = .ok a ∧ f a = .ok c := by
  cases x with
  | error e => cases h
  | ok a => exact ⟨a, rfl, h⟩

/-- Both computations fail with the same error, or their results are related. -/
inductive Agree (R : α → γ → Prop) : Except ε α → Except ε γ → Prop where
  | ok {a : α} {c : γ} (related : R a c) : Agree R (.ok a) (.ok c)
  | error (e : ε) : Agree R (.error e) (.error e)

namespace Agree

variable {R : α → γ → Prop} {S : δ → κ → Prop} {x : Except ε α} {y : Except ε γ}

theorem mono {R' : α → γ → Prop} (h : Agree R x y) (hR : ∀ a c, R a c → R' a c) : Agree R' x y := by
  cases h with
  | ok related => exact .ok (hR _ _ related)
  | error e => exact .error e

theorem bind (h : Agree R x y) {f : α → Except ε δ} {g : γ → Except ε κ}
    (hf : ∀ a c, R a c → Agree S (f a) (g c)) : Agree S (x >>= f) (y >>= g) := by
  cases h with
  | ok related => exact hf _ _ related
  | error e => exact .error e

/-- Only one of the two goes on. -/
theorem bind_right {S : α → κ → Prop} (h : Agree R x y) {g : γ → Except ε κ}
    (hg : ∀ a c, R a c → Agree S (.ok a) (g c)) : Agree S x (y >>= g) := by
  cases h with
  | ok related => exact hg _ _ related
  | error e => exact .error e

theorem map (h : Agree R x y) {f : α → δ} {g : γ → κ} (hf : ∀ a c, R a c → S (f a) (g c)) :
    Agree S (x.map f) (y.map g) := by
  cases h with
  | ok related => exact .ok (hf _ _ related)
  | error e => exact .error e

/-- A fold goes the same way if every step of it does. -/
theorem foldlM {ι : Type} {f : α → ι → Except ε α} {g : γ → ι → Except ε γ}
    (hf : ∀ a c i, R a c → Agree R (f a i) (g c i)) {a : α} {c : γ} (h : R a c) (l : List ι) :
    Agree R (l.foldlM f a) (l.foldlM g c) := by
  induction l generalizing a c with
  | nil => exact .ok h
  | cons i rest ih =>
    rw [List.foldlM_cons, List.foldlM_cons]
    exact (hf a c i h).bind fun a' c' h' => ih h'

/-- Two computations that agree with a third one agree. -/
theorem join {T : δ → γ → Prop} {z : Except ε δ} (h : Agree R x y) (h' : Agree T z y) :
    Agree (fun a d => ∃ c, R a c ∧ T d c) x z := by
  cases h with
  | ok related =>
    cases h' with
    | ok related' => exact .ok ⟨_, related, related'⟩
  | error e =>
    cases h' with
    | error e => exact .error e

theorem eq {x y : Except ε α} (h : Agree Eq x y) : x = y := by
  cases h with
  | ok related => rw [related]
  | error e => rfl

/-- What is related by being the image of the other is the image where both go well. -/
theorem map_eq {f : α → γ} (h : Agree (fun a c => f a = c) x y) : x.map f = y := by
  cases h with
  | ok related => exact congrArg Except.ok related
  | error e => rfl

theorem error_iff (h : Agree R x y) (e : ε) : x = .error e ↔ y = .error e := by
  cases h with
  | ok related => exact iff_of_false nofun nofun
  | error e' => rw [Except.error.injEq, Except.error.injEq]

end Agree
end InlineCache
