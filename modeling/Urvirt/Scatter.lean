import Mathlib.Tactic

/-!
# Scattered stores

Items are stored one after the other, each at the place a table gives it. Items
without a place are dropped, and of several with one place the last stays.
-/

namespace Urvirt
namespace Scatter

variable {α β : Type} [DecidableEq α]

def scatter (place : ℕ → Option α) (data : ℕ → β) (f : α → β) : ℕ → α → β
  | 0 => f
  | n+1 =>
    match place n with
    | none => scatter place data f n
    | some a => Function.update (scatter place data f n) a (data n)

variable {place : ℕ → Option α} {data data' : ℕ → β} {f : α → β} {n : ℕ} {a : α}

theorem scatter_succ_of_ne (h : place n ≠ some a) :
    scatter place data f (n+1) a = scatter place data f n a := by
  simp only [scatter]
  cases hp : place n with
  | none => rfl
  | some b =>
    have hne : a ≠ b := fun hab => h (hp.trans (congrArg some hab.symm))
    exact Function.update_of_ne hne _ _

theorem scatter_succ_of_eq (h : place n = some a) : scatter place data f (n+1) a = data n := by
  simp only [scatter,h]
  exact Function.update_self _ _ _

/-- A place that no item has keeps what it held. -/
theorem scatter_frame (h : ∀ j < n, place j ≠ some a) : scatter place data f n a = f a := by
  induction n with
  | zero => rfl
  | succ n ih =>
    rw [scatter_succ_of_ne (h n (Nat.lt_succ_self n))]
    exact ih fun j hj => h j (Nat.lt_succ_of_lt hj)

/-- The last item of a place is what it holds. -/
theorem scatter_last {j : ℕ} (hj : j < n) (hp : place j = some a)
    (h : ∀ k, j < k → k < n → place k ≠ some a) : scatter place data f n a = data j := by
  induction n with
  | zero => omega
  | succ n ih =>
    rcases Nat.lt_succ_iff_lt_or_eq.mp hj with hlt | rfl
    · rw [scatter_succ_of_ne (h n hlt (Nat.lt_succ_self n))]
      exact ih hlt fun k hk hkn => h k hk (Nat.lt_succ_of_lt hkn)
    · exact scatter_succ_of_eq hp

theorem scatter_congr (h : ∀ j < n, place j = some a → data j = data' j) :
    scatter place data f n a = scatter place data' f n a := by
  induction n with
  | zero => rfl
  | succ n ih =>
    by_cases hp : place n = some a
    · rw [scatter_succ_of_eq hp,scatter_succ_of_eq hp]
      exact h n (Nat.lt_succ_self n) hp
    · rw [scatter_succ_of_ne hp,scatter_succ_of_ne hp]
      exact ih fun j hj => h j (Nat.lt_succ_of_lt hj)

theorem scatter_congr_place {place' : ℕ → Option α} (h : ∀ j < n, place j = place' j) :
    scatter place data f n = scatter place' data f n := by
  induction n with
  | zero => rfl
  | succ n ih =>
    rw [scatter,scatter,h n (Nat.lt_succ_self n),ih fun j hj => h j (Nat.lt_succ_of_lt hj)]

theorem exists_last (h : ∃ j < n, place j = some a) :
    ∃ j < n, place j = some a ∧ ∀ k, j < k → k < n → place k ≠ some a := by
  induction n with
  | zero => obtain ⟨j,hj,-⟩ := h; omega
  | succ n ih =>
    by_cases hp : place n = some a
    · exact ⟨n,Nat.lt_succ_self n,hp,fun k hk hkn => by omega⟩
    · obtain ⟨j,hj,hpj⟩ := h
      have hlt : j < n := Nat.lt_of_le_of_ne (Nat.le_of_lt_succ hj) fun he => hp (he ▸ hpj)
      obtain ⟨i,hi,hpi,hlast⟩ := ih ⟨j,hlt,hpj⟩
      refine ⟨i,Nat.lt_succ_of_lt hi,hpi,fun k hk hkn => ?_⟩
      rcases Nat.lt_succ_iff_lt_or_eq.mp hkn with hk' | rfl
      · exact hlast k hk hk'
      · exact hp

section Injective

variable {g : ℕ → α} (hg : ∀ i < n, ∀ j < n, g i = g j → i = j)
include hg

/-- With places of their own all items are there. -/
theorem scatter_of_injective (hp : ∀ j < n, place j = some (g j)) {j : ℕ} (hj : j < n) :
    scatter place data f n (g j) = data j := by
  refine scatter_last hj (hp j hj) fun k hk hkn he => ?_
  rw [hp k hkn] at he
  have := hg k hkn j hj (Option.some.inj he)
  omega

end Injective

end Scatter
end Urvirt
