import Mathlib.Algebra.BigOperators.Group.Finset.Piecewise
import Mathlib.Algebra.Order.BigOperators.Group.Finset
import Mathlib.Algebra.BigOperators.Ring.Finset
import Mathlib.Data.Nat.ModEq

/-! # Sharing a stream of rewards through an accumulator

Rewards are shared in proportion to weights without touching every holder: one
accumulator records the reward earned by a unit of weight, scaled by a precision, and
each holder keeps as a debt what the accumulator gave at the last settlement. Both the
accumulator and the debts are rounded down. The bounds below measure how far the two
roundings carry the amounts owed away from the rewards accrued.
-/
set_option autoImplicit false

namespace RewardShare

universe u

variable {ι : Type u}

structure Position where
  weight : ℕ
  debt : ℕ
  deriving DecidableEq, Repr

def earned (precision acc weight : ℕ) : ℕ := weight * acc / precision

def Position.owed (precision acc : ℕ) (p : Position) : ℕ := earned precision acc p.weight - p.debt

@[ext] structure Book (ι : Type u) where
  total : ℕ
  acc : ℕ
  accrued : ℕ
  paid : ℕ
  position : ι → Position

namespace Book

def accrue (precision reward : ℕ) (b : Book ι) : Book ι :=
  { b with acc := b.acc + reward * precision / b.total, accrued := b.accrued + reward }

/-- Pay the holder `i` what he is owed and reopen his position with a new weight. -/
def settle [DecidableEq ι] (precision : ℕ) (i : ι) (weight : ℕ) (b : Book ι) : Book ι :=
  { b with
    total := b.total + weight - (b.position i).weight
    paid := b.paid + (b.position i).owed precision b.acc
    position := Function.update b.position i ⟨weight, earned precision b.acc weight⟩ }

/-- The book is covered by the rewards accrued, up to `drift` parts of one unit cut into
`precision`. All sums run over a finite set of holders outside of which nobody has a position. -/
structure SoundOn (precision drift : ℕ) (holders : Finset ι) (b : Book ι) : Prop where
  outside : ∀ i, i ∉ holders → b.position i = ⟨0, 0⟩
  total_eq : b.total = ∑ i ∈ holders, (b.position i).weight
  debt_le : ∀ i, (b.position i).debt ≤ earned precision b.acc (b.position i).weight
  covered : precision * b.paid + b.total * b.acc ≤
    precision * b.accrued + precision * ∑ i ∈ holders, (b.position i).debt + drift

def Sound (precision drift : ℕ) (b : Book ι) : Prop := ∃ holders, SoundOn precision drift holders b

end Book

theorem earned_mono (precision weight : ℕ) {acc acc' : ℕ} (h : acc ≤ acc') :
    earned precision acc weight ≤ earned precision acc' weight :=
  Nat.div_le_div_right (Nat.mul_le_mul_left weight h)

theorem earned_mul_le (precision acc weight : ℕ) :
    precision * earned precision acc weight ≤ weight * acc := Nat.mul_div_le _ _

theorem earned_mul_add_mod (precision acc weight : ℕ) :
    precision * earned precision acc weight + weight * acc % precision = weight * acc :=
  Nat.div_add_mod _ _

theorem earned_add_le {precision : ℕ} (hPrecision : 0 < precision) (acc more weight : ℕ) :
    earned precision (acc + more) weight ≤
      earned precision acc weight + (weight * more + (precision - 1)) / precision := by
  have hSplit := earned_mul_add_mod precision acc weight
  have hMod := Nat.mod_lt (weight * acc) hPrecision
  have hSum : weight * (acc + more) ≤
      weight * more + (precision - 1) + precision * earned precision acc weight := by
    rw [Nat.mul_add]
    omega
  calc
    earned precision (acc + more) weight
      ≤ (weight * more + (precision - 1) + precision * earned precision acc weight) / precision :=
        Nat.div_le_div_right hSum
    _ = (weight * more + (precision - 1)) / precision + earned precision acc weight :=
        Nat.add_mul_div_left _ _ hPrecision
    _ = _ := Nat.add_comm _ _

/-- Two weights earn together what their sum earns, or one unit less. -/
theorem earned_weight_add (precision acc n m : ℕ) :
    earned precision acc n + earned precision acc m ≤ earned precision acc (n + m) ∧
    earned precision acc (n + m) ≤ earned precision acc n + earned precision acc m + 1 := by
  unfold earned
  rw [Nat.add_mul]
  exact ⟨Nat.div_add_div_le_add_div, Nat.add_div_le_div_add_div_add_one _ _ _⟩

theorem sum_earned (precision acc : ℕ) (people : Finset ι) (weight : ι → ℕ) :
    ∑ i ∈ people, earned precision acc (weight i) ≤ earned precision acc (∑ i ∈ people, weight i) ∧
    earned precision acc (∑ i ∈ people, weight i) ≤
      ∑ i ∈ people, earned precision acc (weight i) + (people.card - 1) := by
  classical
  induction people using Finset.induction_on with
  | empty => simp [earned]
  | insert i rest hi ih =>
    rw [Finset.sum_insert hi, Finset.sum_insert hi, Finset.card_insert_of_notMem hi]
    rcases rest.eq_empty_or_nonempty with rfl | hSome
    · simp
    · have hCard := hSome.card_pos
      have hTwo := earned_weight_add precision acc (weight i) (∑ j ∈ rest, weight j)
      omega

/-- A stretch of the accumulator over which a weight stays the same. -/
structure Interval where
  weight : ℕ
  first : ℕ
  last : ℕ
  deriving DecidableEq, Repr

def Interval.reward (precision : ℕ) (i : Interval) : ℕ :=
  earned precision i.last i.weight - earned precision i.first i.weight

def rewards (precision : ℕ) (intervals : List Interval) : ℕ :=
  (intervals.map (Interval.reward precision)).sum

theorem Interval.reward_add (precision : ℕ) {i : Interval} (h : i.first ≤ i.last) :
    i.reward precision + earned precision i.first i.weight = earned precision i.last i.weight :=
  Nat.sub_add_cancel (earned_mono precision i.weight h)

theorem rewards_cons (precision : ℕ) (i : Interval) (rest : List Interval) :
    rewards precision (i :: rest) = i.reward precision + rewards precision rest := List.sum_cons

/-- One update more never raises the accumulator, and costs it at most one step. -/
theorem share_add (precision total r₁ r₂ : ℕ) :
    r₁ * precision / total + r₂ * precision / total ≤ (r₁ + r₂) * precision / total ∧
    (r₁ + r₂) * precision / total ≤ r₁ * precision / total + r₂ * precision / total + 1 := by
  rw [Nat.add_mul]
  exact ⟨Nat.div_add_div_le_add_div, Nat.add_div_le_div_add_div_add_one _ _ _⟩

namespace Book

variable {precision drift : ℕ} {holders : Finset ι} {b : Book ι}

theorem sum_settle [DecidableEq ι] (precision : ℕ) (b : Book ι) (f : Position → ℕ) {i : ι}
    (weight : ℕ) (hi : i ∈ holders) :
    (∑ j ∈ holders, f ((b.settle precision i weight).position j)) + f (b.position i) =
      (∑ j ∈ holders, f (b.position j)) + f ⟨weight, earned precision b.acc weight⟩ := by
  have hUpdate : (fun j => f ((b.settle precision i weight).position j)) =
      Function.update (fun j => f (b.position j)) i (f ⟨weight, earned precision b.acc weight⟩) := by
    funext j
    by_cases hj : j = i
    · subst hj
      simp [settle]
    · simp [settle, hj]
  have hSum := (Finset.sum_congr rfl fun j _ => congrFun hUpdate j).trans
    (Finset.sum_update_of_mem hi (fun j => f (b.position j)) (f ⟨weight, earned precision b.acc weight⟩))
  have hOld := Finset.sum_eq_add_sum_sdiff_singleton (s := holders) i (fun j => f (b.position j))
    (fun hNot => absurd hi hNot)
  omega

theorem SoundOn.mono {holders' : Finset ι} (h : SoundOn precision drift holders b)
    (hSub : holders ⊆ holders') : SoundOn precision drift holders' b := by
  have hSum : ∀ f : Position → ℕ, f ⟨0, 0⟩ = 0 →
      ∑ i ∈ holders', f (b.position i) = ∑ i ∈ holders, f (b.position i) := by
    intro f hf
    refine (Finset.sum_subset hSub fun i _ hi => ?_).symm
    rw [h.outside i hi, hf]
  refine ⟨fun i hi => h.outside i fun hMem => hi (hSub hMem), ?_, h.debt_le, ?_⟩
  · rw [hSum Position.weight rfl]
    exact h.total_eq
  · rw [hSum Position.debt rfl]
    exact h.covered

theorem SoundOn.accrue (h : SoundOn precision drift holders b) (reward : ℕ) :
    SoundOn precision drift holders (b.accrue precision reward) := by
  refine ⟨h.outside, h.total_eq, fun i => ?_, ?_⟩
  · exact (h.debt_le i).trans (earned_mono _ _ (Nat.le_add_right _ _))
  · have hShare := Nat.mul_div_le (reward * precision) b.total
    have hCovered := h.covered
    simp only [Book.accrue, Nat.mul_add]
    rw [Nat.mul_comm precision reward]
    omega

/-- A settlement can add less than one unit: the debt of the new weight is rounded down. -/
theorem SoundOn.settle [DecidableEq ι] (h : SoundOn precision drift holders b) {i : ι} (hi : i ∈ holders)
    (weight : ℕ) :
    SoundOn precision (drift + weight * b.acc % precision) holders (b.settle precision i weight) := by
  have hOther : ∀ j, j ≠ i → (b.settle precision i weight).position j = b.position j := by
    intro j hj
    simp [Book.settle, hj]
  have hSelf : (b.settle precision i weight).position i = ⟨weight, earned precision b.acc weight⟩ := by
    simp [Book.settle]
  refine ⟨fun j hj => ?_, ?_, fun j => ?_, ?_⟩
  · rw [hOther j (fun hEq => hj (hEq ▸ hi))]
    exact h.outside j hj
  · have hWeights := sum_settle precision b Position.weight weight hi
    have hTotal := h.total_eq
    simp only [Book.settle] at hWeights ⊢
    omega
  · by_cases hj : j = i
    · subst hj
      rw [hSelf]
      exact Nat.le_refl _
    · rw [hOther j hj]
      exact h.debt_le j
  · have hDebts := sum_settle precision b Position.debt weight hi
    have hWeight : (b.position i).weight ≤ b.total := by
      rw [h.total_eq]
      exact Finset.single_le_sum (f := fun j => (b.position j).weight) (fun _ _ => Nat.zero_le _) hi
    have hOwed : (b.position i).owed precision b.acc + (b.position i).debt =
        earned precision b.acc (b.position i).weight := Nat.sub_add_cancel (h.debt_le i)
    have hOld := earned_mul_le precision b.acc (b.position i).weight
    have hNew := earned_mul_add_mod precision b.acc weight
    have hCovered := h.covered
    have hTotal : (b.total + weight - (b.position i).weight) * b.acc + (b.position i).weight * b.acc =
        b.total * b.acc + weight * b.acc := by
      rw [← Nat.add_mul, ← Nat.add_mul, Nat.sub_add_cancel (hWeight.trans (Nat.le_add_right _ _))]
    change precision * (b.paid + (b.position i).owed precision b.acc) +
      (b.total + weight - (b.position i).weight) * b.acc ≤ precision * b.accrued +
        precision * ∑ j ∈ holders, ((b.settle precision i weight).position j).debt +
          (drift + weight * b.acc % precision)
    have hDebts' := congrArg (fun n => precision * n) hDebts
    have hOwed' := congrArg (fun n => precision * n) hOwed
    simp only [Nat.mul_add] at hDebts' hOwed' ⊢
    omega

/-- A settlement that keeps the weight adds nothing: what it pays and the new debt telescope. -/
theorem SoundOn.settle_same [DecidableEq ι] (h : SoundOn precision drift holders b) {i : ι}
    (hi : i ∈ holders) :
    SoundOn precision drift holders (b.settle precision i (b.position i).weight) := by
  have hSettled := h.settle hi (b.position i).weight
  refine { hSettled with covered := ?_ }
  have hDebts := sum_settle precision b Position.debt (b.position i).weight hi
  have hOwed : (b.position i).owed precision b.acc + (b.position i).debt =
      earned precision b.acc (b.position i).weight := Nat.sub_add_cancel (h.debt_le i)
  have hCovered := h.covered
  change precision * (b.paid + (b.position i).owed precision b.acc) +
    (b.total + (b.position i).weight - (b.position i).weight) * b.acc ≤ precision * b.accrued +
      precision * ∑ j ∈ holders, ((b.settle precision i (b.position i).weight).position j).debt + drift
  have hDebts' := congrArg (fun n => precision * n) hDebts
  have hOwed' := congrArg (fun n => precision * n) hOwed
  rw [Nat.add_sub_cancel]
  simp only [Nat.mul_add] at hDebts' hOwed' ⊢
  omega

theorem SoundOn.owed_le (h : SoundOn precision drift holders b) (hPrecision : 0 < precision) :
    b.paid + ∑ i ∈ holders, (b.position i).owed precision b.acc ≤ b.accrued + drift / precision := by
  have hOwed : ∑ i ∈ holders, (precision * (b.position i).owed precision b.acc +
      precision * (b.position i).debt) ≤ ∑ i ∈ holders, (b.position i).weight * b.acc := by
    refine Finset.sum_le_sum fun i _ => ?_
    rw [← Nat.mul_add, Position.owed, Nat.sub_add_cancel (h.debt_le i)]
    exact earned_mul_le _ _ _
  rw [Finset.sum_add_distrib, ← Finset.mul_sum, ← Finset.mul_sum, ← Finset.sum_mul, ← h.total_eq]
    at hOwed
  have hCovered := h.covered
  have hBound : precision * (b.paid + ∑ i ∈ holders, (b.position i).owed precision b.acc) ≤
      precision * b.accrued + drift := by
    rw [Nat.mul_add]
    omega
  calc
    _ ≤ (precision * b.accrued + drift) / precision := by
      rwa [Nat.le_div_iff_mul_le hPrecision, Nat.mul_comm]
    _ = b.accrued + drift / precision := Nat.mul_add_div hPrecision _ _

theorem Sound.owed_le (h : Sound precision drift b) (hPrecision : 0 < precision) (people : Finset ι) :
    b.paid + ∑ i ∈ people, (b.position i).owed precision b.acc ≤ b.accrued + drift / precision := by
  obtain ⟨holders, hOn⟩ := h
  classical
  have hLeft : holders ⊆ holders ∪ people := Finset.subset_union_left
  have hRight : people ⊆ holders ∪ people := Finset.subset_union_right
  have hAll := (hOn.mono hLeft).owed_le hPrecision
  have hSub := Finset.sum_le_sum_of_subset (f := fun i => (b.position i).owed precision b.acc) hRight
  omega

theorem Sound.accrue (h : Sound precision drift b) (reward : ℕ) :
    Sound precision drift (b.accrue precision reward) := by
  obtain ⟨holders, hOn⟩ := h
  exact ⟨holders, hOn.accrue reward⟩

theorem Sound.settle [DecidableEq ι] (h : Sound precision drift b) (i : ι) (weight : ℕ) :
    Sound precision (drift + weight * b.acc % precision) (b.settle precision i weight) := by
  obtain ⟨holders, hOn⟩ := h
  exact ⟨insert i holders, (hOn.mono (Finset.subset_insert i holders)).settle
    (Finset.mem_insert_self i holders) weight⟩

theorem Sound.settle_same [DecidableEq ι] (h : Sound precision drift b) (i : ι) :
    Sound precision drift (b.settle precision i (b.position i).weight) := by
  obtain ⟨holders, hOn⟩ := h
  exact ⟨insert i holders, (hOn.mono (Finset.subset_insert i holders)).settle_same
    (Finset.mem_insert_self i holders)⟩

theorem Sound.mono {drift' : ℕ} (h : Sound precision drift b) (hDrift : drift ≤ drift') :
    Sound precision drift' b := by
  obtain ⟨holders, hOn⟩ := h
  exact ⟨holders, { hOn with covered := hOn.covered.trans (Nat.add_le_add_left hDrift _) }⟩

theorem Sound.total_eq (h : Sound precision drift b) (holders : Finset ι)
    (hOutside : ∀ i, i ∉ holders → b.position i = ⟨0, 0⟩) :
    b.total = ∑ i ∈ holders, (b.position i).weight := by
  obtain ⟨holders', hOn⟩ := h
  rw [hOn.total_eq]
  refine Finset.sum_congr_of_eq_on_inter (fun i _ hi => ?_) (fun i _ hi => ?_) fun i _ _ => rfl
  · rw [hOutside i hi]
  · rw [hOn.outside i hi]

theorem Sound.weight_le (h : Sound precision drift b) (i : ι) : (b.position i).weight ≤ b.total := by
  obtain ⟨holders, hOn⟩ := h
  classical
  rw [(hOn.mono (Finset.subset_insert i holders)).total_eq]
  exact Finset.single_le_sum (f := fun j => (b.position j).weight) (fun _ _ => Nat.zero_le _)
    (Finset.mem_insert_self i holders)

theorem Sound.debt_le (h : Sound precision drift b) (i : ι) :
    (b.position i).debt ≤ earned precision b.acc (b.position i).weight := by
  obtain ⟨holders, hOn⟩ := h
  exact hOn.debt_le i

end Book
end RewardShare
