import Mathlib.Algebra.GroupWithZero.Nat
import InlineCache.Proofs.World.Routes

/-! How many sends are where. Sends are counted by a property, all of them or those that began from some
moment on; a beginning adds one send to a count, a stage of a send takes it from one count to another,
and nothing else does anything to any of them. -/
namespace InlineCache

variable {β : Type}

/-- With one entry of a list replaced, a count loses the old entry and gains the new one. -/
theorem countP_modify {α : Type} (p : α → Bool) (f : α → α) {l : List α} {i : Nat} {x : α}
    (h : l[i]? = some x) :
    (l.modify i f).countP p + (p x).toNat = l.countP p + (p (f x)).toNat := by
  induction l generalizing i with
  | nil => cases h
  | cons y rest ih =>
    cases i with
    | zero =>
      obtain rfl : y = x := Option.some.inj h
      rw [List.modify_zero_cons, List.countP_cons, List.countP_cons]
      cases p y <;> cases p (f y) <;> simp
    | succ i =>
      have hrest := ih (i := i) h
      rw [List.modify_succ_cons, List.countP_cons, List.countP_cons]
      omega

namespace Stage

def isOver : Stage β → Bool
  | flying _ => false
  | ended .. => true

/-- Whether a send waits with what it has looked up. -/
def isPaused : Stage β → Bool
  | flying (.paused _) => true
  | _ => false

end Stage

namespace System

/-- The number of sends with a property, of those that began from a number on. -/
def census (σ : System β) (p : Sending β → Bool) (since : Nat := 0) : Nat :=
  (σ.sends.toList.drop since).countP p

/-- No send on a site is under way. -/
def Idle (σ : System β) (t : SiteId) : Prop :=
  ∀ (i : Nat) (call : Call) (flight : Flight β), σ.sends[i]? ≠ some ⟨t, call, .flying flight⟩

section Census

variable {σ : System β} {p q : Sending β → Bool} {since : Nat}

theorem census_congr (h : ∀ (i : Nat) (x : Sending β), σ.sends[i]? = some x → p x = q x) :
    σ.census p since = σ.census q since := by
  refine List.countP_congr fun x hx => ?_
  obtain ⟨i, hi⟩ := List.mem_iff_getElem?.mp (List.mem_of_mem_drop hx)
  rw [h i x (by rwa [Array.getElem?_toList] at hi)]

theorem census_of_size_le (h : σ.sends.size ≤ since) : σ.census p since = 0 := by
  rw [census, List.drop_eq_nil_of_le h, List.countP_nil]

theorem census_mono (h : ∀ x, p x = true → q x = true) : σ.census p since ≤ σ.census q since :=
  List.countP_mono_left fun x _ => h x

theorem census_le : σ.census p since ≤ σ.census p := (List.drop_sublist since _).countP_le

/-- A count splits by any other property. -/
theorem census_and_add (p q : Sending β → Bool) : σ.census (fun x => p x && q x) since +
    σ.census (fun x => p x && !q x) since = σ.census p since := by
  rw [census, census, census]
  induction σ.sends.toList.drop since with
  | nil => rfl
  | cons x rest ih =>
    simp only [List.countP_cons]
    cases p x <;> cases q x <;> simp <;> omega

/-- Properties that exclude each other share what they are counted in. -/
theorem sum_le_census {α : Type} {as : List α} {P : α → Sending β → Bool} {f : α → Nat}
    (h : as.Pairwise fun a b => ∀ x, P b x = true → P a x = false) (p : Sending β → Bool)
    (hf : ∀ a ∈ as, f a ≤ σ.census (fun x => p x && P a x) since) :
    (as.map f).sum ≤ σ.census p since := by
  induction h generalizing p with
  | nil => exact Nat.zero_le _
  | @cons a rest hfirst _ ih =>
    have hrest : ∀ b ∈ rest, f b ≤ σ.census (fun x => (p x && !P a x) && P b x) since := by
      intro b hb
      refine Nat.le_trans (hf b (List.mem_cons_of_mem a hb)) (census_mono fun x hx => ?_)
      obtain ⟨hp, hother⟩ := Bool.and_eq_true_iff.mp hx
      rw [hp, hother, hfirst b hb x hother]
      rfl
    rw [List.map_cons, List.sum_cons, ← census_and_add p (P a)]
    exact Nat.add_le_add (hf a List.mem_cons_self) (ih (fun x => p x && !P a x) hrest)

theorem census_pos (h : 0 < σ.census p since) :
    ∃ (i : Nat) (x : Sending β), σ.sends[i]? = some x ∧ p x = true := by
  obtain ⟨x, hx, hp⟩ := List.countP_pos_iff.mp h
  obtain ⟨i, hi⟩ := List.mem_iff_getElem?.mp (List.mem_of_mem_drop hx)
  exact ⟨i, x, by rwa [Array.getElem?_toList] at hi, hp⟩

/-- A send that begins is counted where it stands. -/
theorem census_push (h : since ≤ σ.sends.size) (world : World β) (x : Sending β) :
    census ⟨world, σ.sends.push x⟩ p since = σ.census p since + (p x).toNat := by
  rw [census, census, Array.toList_push, List.drop_append_of_le_length h, List.countP_append,
    List.countP_singleton]
  cases p x <;> rfl

/-- A send that goes on leaves the counts it was in and enters the counts it belongs to now. -/
theorem census_advance {i : Nat} {x : Sending β} (h : σ.sends[i]? = some x) (hi : since ≤ i)
    (world : World β) (stage : Stage β) : (σ.advance world i stage).census p since + (p x).toNat =
      σ.census p since + (p { x with stage }).toNat := by
  rw [census, census, advance, Array.toList_modify, List.drop_modify_of_ge _ _ _ _ hi]
  refine countP_modify p _ ?_
  rw [List.getElem?_drop, Nat.add_sub_cancel' hi, Array.getElem?_toList, h]

theorem census_advance_of_same {i : Nat} {x : Sending β} (h : σ.sends[i]? = some x)
    {world : World β} {stage : Stage β} (hp : p { x with stage } = p x) :
    (σ.advance world i stage).census p since = σ.census p since := by
  by_cases hi : since ≤ i
  · have hcount := census_advance (p := p) h hi world stage
    rw [hp] at hcount
    exact Nat.add_right_cancel hcount
  · rw [census, census, advance, Array.toList_modify,
      List.drop_modify_of_lt _ _ _ _ (Nat.lt_of_not_le hi)]

end Census

/-- On an idle site every send is over. -/
theorem idle_iff {σ : System β} {t : SiteId} :
    σ.Idle t ↔ ∀ x ∈ σ.sends, x.site = t → x.stage.isOver = true := by
  constructor
  · rintro h ⟨s, call, flight | ⟨route, reply⟩⟩ hx rfl
    · obtain ⟨i, hi⟩ := Array.mem_iff_getElem?.mp hx
      exact absurd hi (h i call flight)
    · rfl
  · intro h i call flight hi
    cases h _ (Array.mem_iff_getElem?.mpr ⟨i, hi⟩) rfl

instance (σ : System β) (t : SiteId) : Decidable (σ.Idle t) := decidable_of_iff _ idle_iff.symm

/-- Nothing is under way on an idle site. -/
theorem Idle.census_eq_zero {σ : System β} {t : SiteId} (h : σ.Idle t) {p : Sending β → Bool}
    {since : Nat} (hp : ∀ x, p x = true → x.site = t ∧ x.stage.isOver = false) :
    σ.census p since = 0 := by
  refine Nat.eq_zero_of_not_pos fun hpos => ?_
  obtain ⟨i, x, hi, hx⟩ := census_pos hpos
  obtain ⟨hsite, hover⟩ := hp x hx
  cases (idle_iff.mp h x (Array.mem_iff_getElem?.mpr ⟨i, hi⟩) hsite).symm.trans hover

end System
end InlineCache
