import Mathlib.Algebra.BigOperators.Group.Finset.Basic
import Mathlib.Data.Fintype.Basic
import StakingOnSolana.Lib.Balance

/-! # Tables of balances under transfers

Every step moves an amount that is there, out of an account that may be taken from, to a partner
of that account. Over any number of steps a set of accounts that is closed under the partnership
keeps its sum, and an account that may not be taken from loses nothing.
-/
set_option autoImplicit false

namespace Transfers

universe u

variable {K : Type u} [DecidableEq K]

def Step (may : K → Prop) (partner : K → K → Prop) (b b' : K → Nat) : Prop :=
  ∃ s d n, may s ∧ partner s d ∧ n ≤ b s ∧ b' = Balance.move b s d n

def Steps (may : K → Prop) (partner : K → K → Prop) : (K → Nat) → (K → Nat) → Prop :=
  Relation.ReflTransGen (Step may partner)

variable {may : K → Prop} {partner : K → K → Prop} {b b' : K → Nat} {s d k : K} {n : Nat}
  {accounts : Finset K}

theorem sum_move_of_mem (hFunded : n ≤ b s) (hs : s ∈ accounts) (hd : d ∈ accounts) :
    ∑ k ∈ accounts, Balance.move b s d n k = ∑ k ∈ accounts, b k := by
  by_cases hSelf : s = d
  · subst hSelf
    rw [Balance.move_self]
  · have hRest : ∑ k ∈ (accounts.erase s).erase d, Balance.move b s d n k =
        ∑ k ∈ (accounts.erase s).erase d, b k := by
      refine Finset.sum_congr rfl fun k hk => ?_
      have hNe := Finset.mem_erase.mp hk
      exact Balance.move_of_ne b n (Finset.ne_of_mem_erase hNe.2) hNe.1
    have hd' : d ∈ accounts.erase s := Finset.mem_erase.mpr ⟨Ne.symm hSelf, hd⟩
    rw [← Finset.add_sum_erase _ _ hs, ← Finset.add_sum_erase _ _ hd', hRest,
      ← Finset.add_sum_erase _ b hs, ← Finset.add_sum_erase _ b hd', Balance.move_source b n hSelf,
      Balance.move_destination b n hSelf]
    omega

theorem sum_move_of_not_mem (hs : s ∉ accounts) (hd : d ∉ accounts) :
    ∑ k ∈ accounts, Balance.move b s d n k = ∑ k ∈ accounts, b k := by
  refine Finset.sum_congr rfl fun k hk => ?_
  exact Balance.move_of_ne b n (ne_of_mem_of_not_mem hk hs) (ne_of_mem_of_not_mem hk hd)

theorem Step.sum_eq (h : Step may partner b b')
    (hClosed : ∀ s d, partner s d → (s ∈ accounts ↔ d ∈ accounts)) :
    ∑ k ∈ accounts, b' k = ∑ k ∈ accounts, b k := by
  obtain ⟨s, d, n, -, hPartner, hFunded, rfl⟩ := h
  by_cases hs : s ∈ accounts
  · exact sum_move_of_mem hFunded hs ((hClosed s d hPartner).mp hs)
  · exact sum_move_of_not_mem hs fun hd => hs ((hClosed s d hPartner).mpr hd)

theorem Step.le_of_not_may (h : Step may partner b b') (hNot : ¬may k) : b k ≤ b' k := by
  obtain ⟨s, d, n, hMay, -, -, rfl⟩ := h
  refine Balance.le_move_of_ne_source b n ?_
  rintro rfl
  exact hNot hMay

namespace Steps

theorem refl (b : K → Nat) : Steps may partner b b := Relation.ReflTransGen.refl

theorem move (hMay : may s) (hPartner : partner s d) (hFunded : n ≤ b s) :
    Steps may partner b (Balance.move b s d n) :=
  Relation.ReflTransGen.single ⟨s, d, n, hMay, hPartner, hFunded, rfl⟩

theorem sum_eq (h : Steps may partner b b')
    (hClosed : ∀ s d, partner s d → (s ∈ accounts ↔ d ∈ accounts)) :
    ∑ k ∈ accounts, b' k = ∑ k ∈ accounts, b k := by
  induction h with
  | refl => rfl
  | tail _ hStep ih => exact (hStep.sum_eq hClosed).trans ih

theorem le_of_not_may (h : Steps may partner b b') (hNot : ¬may k) : b k ≤ b' k := by
  induction h with
  | refl => exact Nat.le_refl _
  | tail _ hStep ih => exact ih.trans (hStep.le_of_not_may hNot)

end Steps

end Transfers
