import StakingOnSolana.Lib.RewardShare

/-! # What the rounding keeps back

The other side of a sound book: a reward that was accrued is paid, owed, or lost to a rounding.
An update loses the remainder that its accumulator does not divide, and a holder less than one
unit over each stretch of time in which his weight stays the same.
-/
set_option autoImplicit false

namespace RewardShare

universe u

variable {ι : Type u}

/-- What the holder of the position may still lose, in parts of one unit cut into `precision`. -/
def Position.slack (precision : ℕ) (p : Position) : ℕ := if p.weight = 0 then 0 else precision - 1

theorem Position.mod_le_slack {precision : ℕ} (hPrecision : 0 < precision) (acc : ℕ) (p : Position) :
    p.weight * acc % precision ≤ p.slack precision := by
  have hMod := Nat.mod_lt (p.weight * acc) hPrecision
  unfold slack
  split
  · rename_i hNone
    rw [hNone, Nat.zero_mul, Nat.zero_mod]
  · omega

theorem Position.slack_le (precision : ℕ) (p : Position) : p.slack precision ≤ precision - 1 := by
  unfold slack
  split <;> omega

theorem Position.owed_of_weight_zero {p : Position} (h : p.weight = 0) (precision acc : ℕ) :
    p.owed precision acc = 0 := by
  rw [owed, earned, h, Nat.zero_mul, Nat.zero_div, Nat.zero_sub]

namespace Book

/-- The rewards accrued are covered by those paid and those that the weights have earned, up to
`loss` parts of one unit and what the positions may still lose. -/
structure CompleteOn (precision drift loss : ℕ) (holders : Finset ι) (b : Book ι) : Prop
    extends SoundOn precision drift holders b where
  complete : precision * b.accrued + precision * ∑ i ∈ holders, (b.position i).debt +
    ∑ i ∈ holders, (b.position i).slack precision ≤ precision * b.paid + b.total * b.acc + loss

def Complete (precision loss : ℕ) (b : Book ι) : Prop :=
  ∃ drift holders, CompleteOn precision drift loss holders b

variable {precision drift loss : ℕ} {holders : Finset ι} {b : Book ι}

theorem CompleteOn.join [DecidableEq ι] (h : CompleteOn precision drift loss holders b) (i : ι) :
    CompleteOn precision drift loss (insert i holders) b := by
  refine ⟨h.toSoundOn.mono (Finset.subset_insert i holders), ?_⟩
  have hSum : ∀ f : Position → ℕ, f ⟨0, 0⟩ = 0 →
      ∑ j ∈ insert i holders, f (b.position j) = ∑ j ∈ holders, f (b.position j) := by
    intro f hf
    refine Finset.sum_insert_of_eq_zero_if_notMem fun hi => ?_
    rw [h.outside i hi, hf]
  rw [hSum Position.debt rfl, hSum (Position.slack precision) rfl]
  exact h.complete

theorem CompleteOn.accrue (h : CompleteOn precision drift loss holders b) (reward : ℕ) :
    CompleteOn precision drift (loss + reward * precision % b.total) holders
      (b.accrue precision reward) := by
  refine ⟨h.toSoundOn.accrue reward, ?_⟩
  have hShare := Nat.div_add_mod (reward * precision) b.total
  have hComplete := h.complete
  simp only [Book.accrue, Nat.mul_add]
  rw [Nat.mul_comm precision reward]
  omega

theorem CompleteOn.settle [DecidableEq ι] (h : CompleteOn precision drift loss holders b)
    (hPrecision : 0 < precision) {i : ι} (hi : i ∈ holders) (weight : ℕ) :
    CompleteOn precision (drift + weight * b.acc % precision) (loss + (precision - 1)) holders
      (b.settle precision i weight) := by
  refine ⟨h.toSoundOn.settle hi weight, ?_⟩
  have hDebts := sum_settle precision b Position.debt weight hi
  have hSlacks := sum_settle precision b (Position.slack precision) weight hi
  have hWeight : (b.position i).weight ≤ b.total := by
    rw [h.total_eq]
    exact Finset.single_le_sum (f := fun j => (b.position j).weight) (fun _ _ => Nat.zero_le _) hi
  have hOwed : (b.position i).owed precision b.acc + (b.position i).debt =
      earned precision b.acc (b.position i).weight := Nat.sub_add_cancel (h.debt_le i)
  have hOld := earned_mul_add_mod precision b.acc (b.position i).weight
  have hNew := earned_mul_le precision b.acc weight
  -- The stretch that ends may lose its slack, and the next one brings its own.
  have hEnds := (b.position i).mod_le_slack hPrecision b.acc
  have hBegins := Position.slack_le precision ⟨weight, earned precision b.acc weight⟩
  have hComplete := h.complete
  have hTotal : (b.total + weight - (b.position i).weight) * b.acc + (b.position i).weight * b.acc =
      b.total * b.acc + weight * b.acc := by
    rw [← Nat.add_mul, ← Nat.add_mul, Nat.sub_add_cancel (hWeight.trans (Nat.le_add_right _ _))]
  change precision * b.accrued +
    precision * ∑ j ∈ holders, ((b.settle precision i weight).position j).debt +
      ∑ j ∈ holders, ((b.settle precision i weight).position j).slack precision ≤
    precision * (b.paid + (b.position i).owed precision b.acc) +
      (b.total + weight - (b.position i).weight) * b.acc + (loss + (precision - 1))
  have hDebts' := congrArg (fun n => precision * n) hDebts
  have hOwed' := congrArg (fun n => precision * n) hOwed
  simp only [Nat.mul_add] at hDebts' hOwed' ⊢
  omega

/-- A settlement that keeps the weight ends no stretch. -/
theorem CompleteOn.settle_same [DecidableEq ι] (h : CompleteOn precision drift loss holders b) {i : ι}
    (hi : i ∈ holders) :
    CompleteOn precision drift loss holders (b.settle precision i (b.position i).weight) := by
  refine ⟨h.toSoundOn.settle_same hi, ?_⟩
  have hDebts := sum_settle precision b Position.debt (b.position i).weight hi
  have hSlacks := sum_settle precision b (Position.slack precision) (b.position i).weight hi
  have hSame : Position.slack precision ⟨(b.position i).weight,
      earned precision b.acc (b.position i).weight⟩ = (b.position i).slack precision := rfl
  have hOwed : (b.position i).owed precision b.acc + (b.position i).debt =
      earned precision b.acc (b.position i).weight := Nat.sub_add_cancel (h.debt_le i)
  have hComplete := h.complete
  change precision * b.accrued +
    precision * ∑ j ∈ holders, ((b.settle precision i (b.position i).weight).position j).debt +
      ∑ j ∈ holders, ((b.settle precision i (b.position i).weight).position j).slack precision ≤
    precision * (b.paid + (b.position i).owed precision b.acc) +
      (b.total + (b.position i).weight - (b.position i).weight) * b.acc + loss
  have hDebts' := congrArg (fun n => precision * n) hDebts
  have hOwed' := congrArg (fun n => precision * n) hOwed
  rw [Nat.add_sub_cancel]
  simp only [Nat.mul_add] at hDebts' hOwed' ⊢
  omega

theorem CompleteOn.accrued_le (h : CompleteOn precision drift loss holders b)
    (hPrecision : 0 < precision) : precision * b.accrued ≤
      precision * (b.paid + ∑ i ∈ holders, (b.position i).owed precision b.acc) + loss := by
  have hOwed : ∑ i ∈ holders, (b.position i).weight * b.acc ≤
      ∑ i ∈ holders, (precision * (b.position i).owed precision b.acc +
        precision * (b.position i).debt + (b.position i).slack precision) := by
    refine Finset.sum_le_sum fun i _ => ?_
    rw [← Nat.mul_add, Position.owed, Nat.sub_add_cancel (h.debt_le i)]
    have hSplit := earned_mul_add_mod precision b.acc (b.position i).weight
    have hMod := (b.position i).mod_le_slack hPrecision b.acc
    omega
  rw [Finset.sum_add_distrib, Finset.sum_add_distrib, ← Finset.mul_sum, ← Finset.mul_sum,
    ← Finset.sum_mul, ← h.total_eq] at hOwed
  have hComplete := h.complete
  rw [Nat.mul_add]
  omega

theorem Complete.accrue (h : Complete precision loss b) (reward : ℕ) :
    Complete precision (loss + reward * precision % b.total) (b.accrue precision reward) := by
  obtain ⟨drift, holders, hOn⟩ := h
  exact ⟨drift, holders, hOn.accrue reward⟩

theorem Complete.settle [DecidableEq ι] (h : Complete precision loss b) (hPrecision : 0 < precision)
    (i : ι) (weight : ℕ) :
    Complete precision (loss + (precision - 1)) (b.settle precision i weight) := by
  obtain ⟨drift, holders, hOn⟩ := h
  exact ⟨_, _, (hOn.join i).settle hPrecision (Finset.mem_insert_self i holders) weight⟩

theorem Complete.settle_same [DecidableEq ι] (h : Complete precision loss b) (i : ι) :
    Complete precision loss (b.settle precision i (b.position i).weight) := by
  obtain ⟨drift, holders, hOn⟩ := h
  exact ⟨_, _, (hOn.join i).settle_same (Finset.mem_insert_self i holders)⟩

theorem Complete.mono {loss' : ℕ} (h : Complete precision loss b) (hLoss : loss ≤ loss') :
    Complete precision loss' b := by
  obtain ⟨drift, holders, hOn⟩ := h
  exact ⟨drift, holders, { hOn with complete := hOn.complete.trans (Nat.add_le_add_left hLoss _) }⟩

/-- What is paid and owed to any people with everybody that holds a weight among them falls short of
the rewards accrued by the loss at most. -/
theorem Complete.accrued_le (h : Complete precision loss b) (hPrecision : 0 < precision)
    (people : Finset ι) (hAll : ∀ i, 0 < (b.position i).weight → i ∈ people) :
    precision * b.accrued ≤
      precision * (b.paid + ∑ i ∈ people, (b.position i).owed precision b.acc) + loss := by
  obtain ⟨drift, holders, hOn⟩ := h
  have hMore : ∑ i ∈ holders, (b.position i).owed precision b.acc ≤
      ∑ i ∈ people, (b.position i).owed precision b.acc := by
    refine Finset.sum_le_sum_of_ne_zero fun i _ hOwed => hAll i (Nat.pos_of_ne_zero fun hNone => ?_)
    exact hOwed (Position.owed_of_weight_zero hNone precision b.acc)
  refine (hOn.accrued_le hPrecision).trans (Nat.add_le_add_right (Nat.mul_le_mul_left _ ?_) _)
  exact Nat.add_le_add_left hMore _

end Book
end RewardShare
