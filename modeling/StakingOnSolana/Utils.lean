import StakingOnSolana.Error
import StakingOnSolana.State
import Mathlib.Order.Basic

/-! # The reward update of a pool

`updatePool` and its helpers, as `utils/mod.rs` computes them, and the same update over
the naturals: `PoolState.accrue` is what a successful `updatePool` returns.
-/
set_option autoImplicit false

namespace StakingOnSolana

open Checked

def getMultiplier (fromSlot toSlot poolEndSlot : Nat) : Except Error Nat :=
  if toSlot ≤ poolEndSlot then subU64 toSlot fromSlot
  else if fromSlot ≥ poolEndSlot then pure 0
  else subU64 poolEndSlot fromSlot

def getPrecisionFactor (poolConfig : PoolConfig) : Except Error Nat := do
  let precisionDecimals ← subU64 9 poolConfig.rewardMintDecimals
  powU64 10 precisionDecimals

def updatePool (poolConfig : PoolConfig) (clockSlot : Nat) (poolState : PoolState) :
    Except Error PoolState :=
  if clockSlot ≤ poolState.lastRewardSlot ∨ poolState.lastRewardSlot = 0 then pure poolState
  else if poolState.totalStaked = 0 then pure { poolState with lastRewardSlot := clockSlot }
  else do
    let multiplier ← getMultiplier poolState.lastRewardSlot clockSlot poolConfig.endSlot
    let reward ← mulU64 multiplier poolConfig.rewardPerSlot
    let precisionFactor ← getPrecisionFactor poolConfig
    let scaled ← mulU64 reward precisionFactor
    let accTokenPerShare ← addU64 poolState.accTokenPerShare (scaled / poolState.totalStaked)
    let shouldTotalPaid ← addU64 poolState.shouldTotalPaid reward
    pure { poolState with accTokenPerShare, lastRewardSlot := clockSlot, shouldTotalPaid }

def availableRewardTokens (poolConfig : PoolConfig) (poolState : PoolState) : Nat :=
  if poolConfig.rewardMint = poolConfig.stakeMint then
    if poolState.rewardAmount < poolState.totalStaked then 0
    else poolState.rewardAmount - poolState.totalStaked
  else poolState.rewardAmount

/-- The reward that the pool will still emit, the branch of `insufficient_rewards`. -/
def remainingEmission (poolConfig : PoolConfig) (poolState : PoolState) : Except Error Nat :=
  if poolConfig.startSlot = 0 then do
    let perDuration ← mulU64 poolConfig.rewardPerSlot poolConfig.duration
    mulU64 perDuration slotsPerDay
  else do
    let remainBlocks ← getMultiplier poolState.lastRewardSlot poolConfig.endSlot poolConfig.endSlot
    mulU64 poolConfig.rewardPerSlot remainBlocks

def insufficientRewards (poolConfig : PoolConfig) (poolState : PoolState) : Except Error Nat := do
  let remainRewards ← addU64 (availableRewardTokens poolConfig poolState) poolState.paidRewards
  let emission ← remainingEmission poolConfig poolState
  let adjustedShouldTotalPaid ← addU64 poolState.shouldTotalPaid emission
  if remainRewards ≥ adjustedShouldTotalPaid then pure 0
  else subU64 adjustedShouldTotalPaid remainRewards

namespace PoolConfig

def precisionFactor (c : PoolConfig) : Nat := 10 ^ (9 - c.rewardMintDecimals)

def emittingSlots (c : PoolConfig) (fromSlot toSlot : Nat) : Nat :=
  min toSlot c.endSlot - min fromSlot c.endSlot

theorem precisionFactor_pos (c : PoolConfig) : 0 < c.precisionFactor := Nat.pow_pos (by decide)

end PoolConfig

namespace PoolState

/-- The reward that an update at `slot` adds to `shouldTotalPaid`. -/
def accruing (c : PoolConfig) (slot : Nat) (s : PoolState) : Nat :=
  if slot ≤ s.lastRewardSlot ∨ s.lastRewardSlot = 0 ∨ s.totalStaked = 0 then 0
  else c.emittingSlots s.lastRewardSlot slot * c.rewardPerSlot

def accrue (c : PoolConfig) (slot : Nat) (s : PoolState) : PoolState :=
  { s with
    accTokenPerShare := s.accTokenPerShare + s.accruing c slot * c.precisionFactor / s.totalStaked
    lastRewardSlot := if s.lastRewardSlot = 0 then 0 else max s.lastRewardSlot slot
    shouldTotalPaid := s.shouldTotalPaid + s.accruing c slot }

variable (c : PoolConfig) (slot : Nat) (s : PoolState)

@[simp] theorem accrue_totalStaked : (s.accrue c slot).totalStaked = s.totalStaked := rfl

/-- The four cases of `update_pool`: up to date, not started, empty, accruing. -/
theorem accrue_eq (h : slot ≤ s.lastRewardSlot ∨ s.lastRewardSlot = 0) : s.accrue c slot = s := by
  have hNone : s.accruing c slot = 0 := by
    unfold accruing
    rw [if_pos (h.imp_right Or.inl)]
  rcases s with ⟨_, last, _, _, _, _, _⟩
  simp only [accrue, hNone, Nat.zero_mul, Nat.zero_div, Nat.add_zero, PoolState.mk.injEq, true_and,
    and_true]
  simp only at h
  split <;> omega

end PoolState

theorem getMultiplier_eq (c : PoolConfig) {fromSlot toSlot : Nat} (h : fromSlot ≤ toSlot) :
    getMultiplier fromSlot toSlot c.endSlot = .ok (c.emittingSlots fromSlot toSlot) := by
  unfold getMultiplier PoolConfig.emittingSlots
  split
  · rw [subU64_eq_ok]
    omega
  · split
    · rw [pure_eq_ok]
      omega
    · rw [subU64_eq_ok]
      omega

theorem getPrecisionFactor_eq_ok (c : PoolConfig) (pf : Nat) :
    getPrecisionFactor c = .ok pf ↔ c.rewardMintDecimals ≤ 9 ∧ c.precisionFactor = pf := by
  simp only [getPrecisionFactor, bind_eq_ok, subU64_eq_ok, powU64_eq_ok, PoolConfig.precisionFactor]
  constructor
  · rintro ⟨_, ⟨hDecimals, rfl⟩, _, rfl⟩
    exact ⟨hDecimals, rfl⟩
  · rintro ⟨hDecimals, rfl⟩
    refine ⟨_, ⟨hDecimals, rfl⟩, ?_, rfl⟩
    calc
      10 ^ (9 - c.rewardMintDecimals) ≤ 10 ^ 9 := Nat.pow_le_pow_right (by decide) (by omega)
      _ < 2 ^ 64 := by decide

theorem updatePool_ok {c : PoolConfig} {slot : Nat} {s s' : PoolState}
    (h : updatePool c slot s = .ok s') : s' = s.accrue c slot := by
  unfold updatePool at h
  split at h
  · rename_i hSame
    rw [PoolState.accrue_eq c slot s hSame]
    exact (pure_eq_ok.mp h).symm
  · rename_i hSame
    obtain ⟨hLate, hStarted⟩ := not_or.mp hSame
    have hLast : max s.lastRewardSlot slot = slot := by omega
    split at h
    · rename_i hEmpty
      have hNone : s.accruing c slot = 0 := by
        unfold PoolState.accruing
        rw [if_pos (Or.inr (Or.inr hEmpty))]
      rw [← pure_eq_ok.mp h]
      simp only [PoolState.accrue, hNone, hStarted, hLast, if_false, Nat.zero_mul, Nat.zero_div,
        Nat.add_zero]
    · rename_i hStaked
      rw [getMultiplier_eq c (by omega)] at h
      simp only [bind_eq_ok, mulU64_eq_ok, addU64_eq_ok, getPrecisionFactor_eq_ok, pure_eq_ok] at h
      obtain ⟨_, hMult, _, ⟨-, rfl⟩, _, ⟨-, rfl⟩, _, ⟨-, rfl⟩, _, ⟨-, rfl⟩, _, ⟨-, rfl⟩, rfl⟩ := h
      cases hMult
      have hReward : s.accruing c slot = c.emittingSlots s.lastRewardSlot slot * c.rewardPerSlot := by
        unfold PoolState.accruing
        rw [if_neg]
        omega
      simp only [PoolState.accrue, hReward, hStarted, hLast, if_false]

/-- An update succeeds where its scaled reward fits and its two sums do. -/
theorem updatePool_of_fits {c : PoolConfig} {slot : Nat} {s : PoolState}
    (hDecimals : c.rewardMintDecimals ≤ 9) (hScaled : s.accruing c slot * c.precisionFactor < 2 ^ 64)
    (hAcc : (s.accrue c slot).accTokenPerShare < 2 ^ 64)
    (hShould : (s.accrue c slot).shouldTotalPaid < 2 ^ 64) :
    updatePool c slot s = .ok (s.accrue c slot) := by
  suffices hOk : ∃ s', updatePool c slot s = .ok s' by
    obtain ⟨s', hOk⟩ := hOk
    rw [hOk, updatePool_ok hOk]
  unfold updatePool
  split
  · exact ⟨_, rfl⟩
  · split
    · exact ⟨_, rfl⟩
    · rename_i hSame hStaked
      have hReward : s.accruing c slot = c.emittingSlots s.lastRewardSlot slot * c.rewardPerSlot :=
        if_neg (by omega)
      have hSmall : s.accruing c slot < 2 ^ 64 :=
        Nat.lt_of_le_of_lt (Nat.le_mul_of_pos_right _ c.precisionFactor_pos) hScaled
      simp only [PoolState.accrue, hReward] at hScaled hAcc hShould hSmall
      rw [getMultiplier_eq c (by omega)]
      simp only [bind_eq_ok, mulU64_eq_ok, addU64_eq_ok, getPrecisionFactor_eq_ok, pure_eq_ok]
      exact ⟨_, _, rfl, _, ⟨hSmall, rfl⟩, _, ⟨hDecimals, rfl⟩, _, ⟨hScaled, rfl⟩, _, ⟨hAcc, rfl⟩, _,
        ⟨hShould, rfl⟩, rfl⟩

theorem updatePool_scaled {c : PoolConfig} {slot : Nat} {s s' : PoolState}
    (h : updatePool c slot s = .ok s') : s.accruing c slot * c.precisionFactor < 2 ^ 64 := by
  by_cases hIdle : slot ≤ s.lastRewardSlot ∨ s.lastRewardSlot = 0 ∨ s.totalStaked = 0
  · have hNone : s.accruing c slot = 0 := if_pos hIdle
    rw [hNone, Nat.zero_mul]
    decide
  · have hReward : s.accruing c slot = c.emittingSlots s.lastRewardSlot slot * c.rewardPerSlot :=
      if_neg hIdle
    unfold updatePool at h
    rw [if_neg (by omega), if_neg (by omega), getMultiplier_eq c (by omega)] at h
    simp only [bind_eq_ok, mulU64_eq_ok, getPrecisionFactor_eq_ok] at h
    obtain ⟨_, hMult, _, ⟨-, rfl⟩, _, ⟨-, rfl⟩, _, ⟨hScaled, -⟩, -⟩ := h
    cases hMult
    rwa [hReward]

namespace PoolState

theorem accruing_eq_zero_iff (c : PoolConfig) (slot : Nat) (s : PoolState) :
    s.accruing c slot = 0 ↔ slot ≤ s.lastRewardSlot ∨ s.lastRewardSlot = 0 ∨ s.totalStaked = 0 ∨
      c.endSlot ≤ s.lastRewardSlot ∨ c.rewardPerSlot = 0 := by
  unfold accruing PoolConfig.emittingSlots
  split
  · rename_i hIdle
    exact iff_of_true rfl (by omega)
  · rename_i hActive
    rw [Nat.mul_eq_zero]
    omega

/-- An update in between splits the reward of an interval. -/
theorem accruing_accrue (c : PoolConfig) (s : PoolState) {slot later : Nat} (h : slot ≤ later) :
    s.accruing c slot + (s.accrue c slot).accruing c later = s.accruing c later := by
  by_cases hSame : slot ≤ s.lastRewardSlot ∨ s.lastRewardSlot = 0
  · have hNone : s.accruing c slot = 0 := if_pos (hSame.imp_right Or.inl)
    rw [accrue_eq c slot s hSame, hNone, Nat.zero_add]
  · obtain ⟨hLate, hStarted⟩ := not_or.mp hSame
    have hLast : (s.accrue c slot).lastRewardSlot = slot := by
      change (if s.lastRewardSlot = 0 then 0 else max s.lastRewardSlot slot) = slot
      rw [if_neg hStarted]
      omega
    by_cases hEmpty : s.totalStaked = 0
    · simp only [accruing, accrue_totalStaked, hEmpty, or_true, if_true]
    · have hFirst : s.accruing c slot = c.emittingSlots s.lastRewardSlot slot * c.rewardPerSlot :=
        if_neg (by omega)
      have hWhole : s.accruing c later = c.emittingSlots s.lastRewardSlot later * c.rewardPerSlot :=
        if_neg (by omega)
      have hSecond : (s.accrue c slot).accruing c later =
          c.emittingSlots slot later * c.rewardPerSlot := by
        unfold accruing
        rw [hLast, accrue_totalStaked]
        split
        · rename_i hIdle
          obtain rfl : slot = later := by omega
          simp [PoolConfig.emittingSlots]
        · rfl
      rw [hFirst, hSecond, hWhole, ← Nat.add_mul]
      congr 1
      unfold PoolConfig.emittingSlots
      omega

end PoolState

theorem getMultiplier_error {fromSlot toSlot poolEndSlot : Nat} {e : Error}
    (h : getMultiplier fromSlot toSlot poolEndSlot = .error e) : e = .arithmetic := by
  unfold getMultiplier at h
  split at h
  · exact (subU64_eq_error.mp h).2.symm
  · split at h
    · exact absurd h pure_ne_error
    · exact (subU64_eq_error.mp h).2.symm

theorem getPrecisionFactor_error {c : PoolConfig} {e : Error}
    (h : getPrecisionFactor c = .error e) : e = .arithmetic := by
  simp only [getPrecisionFactor, bind_eq_error, subU64_eq_error, powU64_eq_error] at h
  rcases h with ⟨-, rfl⟩ | ⟨_, -, -, rfl⟩ <;> rfl

theorem updatePool_error {c : PoolConfig} {slot : Nat} {s : PoolState} {e : Error}
    (h : updatePool c slot s = .error e) : e = .arithmetic := by
  unfold updatePool at h
  split at h
  · exact absurd h pure_ne_error
  · split at h
    · exact absurd h pure_ne_error
    · simp only [bind_eq_error, mulU64_eq_error, addU64_eq_error, pure_ne_error, and_false,
        exists_false, or_false] at h
      rcases h with h | ⟨_, -, ⟨-, rfl⟩ | ⟨_, -, h | ⟨_, -, ⟨-, rfl⟩ | ⟨_, -, ⟨-, rfl⟩ | ⟨_, -, -, rfl⟩⟩⟩⟩⟩
      · exact getMultiplier_error h
      · rfl
      · exact getPrecisionFactor_error h
      all_goals rfl

theorem updatePool_or (c : PoolConfig) (slot : Nat) (s : PoolState) :
    updatePool c slot s = .ok (s.accrue c slot) ∨ updatePool c slot s = .error .arithmetic := by
  cases h : updatePool c slot s with
  | ok s' => exact Or.inl (congrArg Except.ok (updatePool_ok h))
  | error e => exact Or.inr (congrArg Except.error (updatePool_error h))

end StakingOnSolana
