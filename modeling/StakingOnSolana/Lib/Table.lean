import Mathlib.Algebra.BigOperators.Group.Finset.Basic
import Mathlib.Algebra.Order.BigOperators.Group.Finset
import Mathlib.Data.Finset.Insert

/-! # Sums over the entries of a table

A table has an entry at finitely many of its keys. What a measure of the entries adds up to is
followed through the changes of single entries.
-/
set_option autoImplicit false

namespace Table

universe u v

variable {K : Type u} {V : Type v}

/-- The table is finite, and the measures of its entries add up to `n`. -/
def SumsTo (t : K → Option V) (measure : V → ℕ) (n : ℕ) : Prop :=
  ∃ keys : Finset K, (∀ k, k ∈ keys ↔ (t k).isSome = true) ∧ ∑ k ∈ keys, (t k).elim 0 measure = n

variable {t : K → Option V} {measure : V → ℕ} {n m : ℕ}

theorem SumsTo.of_empty (h : ∀ k, t k = none) (measure : V → ℕ) : SumsTo t measure 0 := by
  refine ⟨∅, fun k => ?_, Finset.sum_empty⟩
  simp [h k]

theorem SumsTo.le (h : SumsTo t measure n) {k : K} {v : V} (hEntry : t k = some v) : measure v ≤ n := by
  obtain ⟨keys, hKeys, rfl⟩ := h
  have hMem : k ∈ keys := by
    rw [hKeys, hEntry]
    rfl
  have hLe := Finset.single_le_sum (f := fun j => (t j).elim 0 measure) (fun _ _ => Nat.zero_le _) hMem
  rwa [hEntry] at hLe

theorem SumsTo.update [DecidableEq K] (h : SumsTo t measure n) {k : K} {v : V}
    (hMove : m + (t k).elim 0 measure = n + measure v) :
    SumsTo (Function.update t k (some v)) measure m := by
  obtain ⟨keys, hKeys, hSum⟩ := h
  refine ⟨insert k keys, fun j => ?_, ?_⟩
  · by_cases hj : j = k
    · subst hj
      simp
    · simp [hj, hKeys j]
  · have hRest : ∑ j ∈ keys.erase k, (Function.update t k (some v) j).elim 0 measure =
        ∑ j ∈ keys.erase k, (t j).elim 0 measure := by
      refine Finset.sum_congr rfl fun j hj => ?_
      rw [Function.update_of_ne (Finset.ne_of_mem_erase hj)]
    have hNew : ∑ j ∈ insert k keys, (Function.update t k (some v) j).elim 0 measure =
        measure v + ∑ j ∈ keys.erase k, (t j).elim 0 measure := by
      rw [← Finset.add_sum_erase _ _ (Finset.mem_insert_self k keys), Function.update_self,
        Finset.erase_insert_eq_erase, hRest]
      rfl
    have hOld : (t k).elim 0 measure + ∑ j ∈ keys.erase k, (t j).elim 0 measure = n := by
      rw [← hSum]
      by_cases hk : k ∈ keys
      · exact Finset.add_sum_erase keys (fun j => (t j).elim 0 measure) hk
      · have hNone : t k = none := by
          rwa [hKeys, Bool.not_eq_true, Option.isSome_eq_false_iff, Option.isNone_iff_eq_none] at hk
        rw [Finset.erase_eq_of_notMem hk, hNone]
        exact Nat.zero_add _
    omega

end Table
