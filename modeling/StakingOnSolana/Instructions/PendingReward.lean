import StakingOnSolana.Instructions.Common

/-! # The view `pending_reward`

The view repeats the arithmetic of `update_pool` under conditions of its own. Where it
returns, it returns what a payout at the same slot would transfer.
-/
set_option autoImplicit false

namespace StakingOnSolana

open Checked

structure PendingReward where
  userInfo : Pubkey
  poolConfigAccount : Pubkey
  poolStateAccount : Pubkey

def adjustedTokenPerShare (poolConfig : PoolConfig) (clockSlot precisionFactor : Nat)
    (poolState : PoolState) : Except Error Nat :=
  if clockSlot > poolState.lastRewardSlot ∧ poolState.totalStaked ≠ 0 ∧
      poolState.lastRewardSlot > 0 then do
    let multiplier ← getMultiplier poolState.lastRewardSlot clockSlot poolConfig.endSlot
    let reward ← mulU64 multiplier poolConfig.rewardPerSlot
    let scaled ← mulU64 reward precisionFactor
    addU64 poolState.accTokenPerShare (scaled / poolState.totalStaked)
  else pure poolState.accTokenPerShare

def pendingReward (env : Env) (a : PendingReward) (w : World) : Except Error Nat := do
  let userInfo ← load (w.userInfo a.userInfo) .accountNotInitialized
  let poolConfig ← load (w.poolConfig a.poolConfigAccount) .accountNotInitialized
  let poolState ← load (w.poolState a.poolStateAccount) .accountNotInitialized
  let precisionFactor ← getPrecisionFactor poolConfig
  let adjustedTokenPerShare ←
    adjustedTokenPerShare poolConfig env.slot precisionFactor poolState
  let scaled ← mulU64 userInfo.stakedAmount adjustedTokenPerShare
  subU64 (scaled / precisionFactor) userInfo.rewardDebt

theorem adjustedTokenPerShare_ok {c : PoolConfig} {slot acc : Nat} {s : PoolState}
    (h : adjustedTokenPerShare c slot c.precisionFactor s = .ok acc) :
    (s.accrue c slot).accTokenPerShare = acc := by
  unfold adjustedTokenPerShare at h
  split at h
  · rename_i hActive
    rw [getMultiplier_eq c (by omega)] at h
    simp only [bind_eq_ok, mulU64_eq_ok, addU64_eq_ok] at h
    obtain ⟨_, hMult, _, ⟨-, rfl⟩, _, ⟨-, rfl⟩, -, rfl⟩ := h
    cases hMult
    have hReward : s.accruing c slot = c.emittingSlots s.lastRewardSlot slot * c.rewardPerSlot := by
      unfold PoolState.accruing
      rw [if_neg]
      omega
    simp only [PoolState.accrue, hReward]
  · rename_i hIdle
    have hNone : s.accruing c slot = 0 := by
      unfold PoolState.accruing
      rw [if_pos]
      omega
    rw [← pure_eq_ok.mp h]
    simp only [PoolState.accrue, hNone, Nat.zero_mul, Nat.zero_div, Nat.add_zero]

/-- The value of the view: the reward owed by the pool that an update would leave. -/
theorem pendingReward_ok {env : Env} {a : PendingReward} {w : World} {pending : Nat}
    (h : pendingReward env a w = .ok pending) :
    ∃ c s info, w.poolConfig a.poolConfigAccount = some c ∧
      w.poolState a.poolStateAccount = some s ∧ w.userInfo a.userInfo = some info ∧
      info.rewardDebt ≤ UserInfo.earned c (s.accrue c env.slot) info.stakedAmount ∧
      pending = info.owed c (s.accrue c env.slot) := by
  simp only [pendingReward, bind_eq_ok, load_eq_ok, getPrecisionFactor_eq_ok, mulU64_eq_ok,
    subU64_eq_ok] at h
  obtain ⟨info, hInfo, c, hConfig, s, hState, _, ⟨-, rfl⟩, acc, hAcc, _, ⟨-, rfl⟩, hDebt, rfl⟩ := h
  obtain rfl := adjustedTokenPerShare_ok hAcc
  exact ⟨c, s, info, hConfig, hState, hInfo, hDebt, rfl⟩

/-- Where an update succeeds, so does the view's own: its conditions are the negation of those
under which `update_pool` returns early. -/
theorem adjustedTokenPerShare_of_updated {c : PoolConfig} {slot : Nat} {s : PoolState}
    (hDecimals : c.rewardMintDecimals ≤ 9) (h : updatePool c slot s = .ok (s.accrue c slot)) :
    adjustedTokenPerShare c slot c.precisionFactor s = .ok (s.accrue c slot).accTokenPerShare := by
  have hPrecision := (getPrecisionFactor_eq_ok c c.precisionFactor).mpr ⟨hDecimals, rfl⟩
  have hAcc : ∀ acc, adjustedTokenPerShare c slot c.precisionFactor s = .ok acc →
      adjustedTokenPerShare c slot c.precisionFactor s = .ok (s.accrue c slot).accTokenPerShare := by
    intro acc hOk
    rwa [adjustedTokenPerShare_ok hOk]
  unfold updatePool at h
  unfold adjustedTokenPerShare at hAcc ⊢
  split
  · rename_i hActive
    rw [if_neg (by omega), if_neg (by omega)] at h
    simp only [bind_eq_ok, mulU64_eq_ok, hPrecision, Except.ok.injEq, exists_eq_left'] at h
    obtain ⟨multiplier, hMultiplier, _, hReward, _, hScaled, acc, hSum, -⟩ := h
    rw [if_pos hActive] at hAcc
    refine hAcc acc ?_
    simp only [bind_eq_ok, mulU64_eq_ok]
    exact ⟨multiplier, hMultiplier, _, hReward, _, hScaled, hSum⟩
  · rename_i hIdle
    rw [if_neg hIdle] at hAcc
    exact hAcc _ rfl

theorem pendingReward_congr {env : Env} {a : PendingReward} {w w' : World} {c : PoolConfig}
    {s s' : PoolState} (hUser : w'.userInfo a.userInfo = w.userInfo a.userInfo)
    (hConfig : w.poolConfig a.poolConfigAccount = some c)
    (hConfig' : w'.poolConfig a.poolConfigAccount = some c)
    (hState : w.poolState a.poolStateAccount = some s)
    (hState' : w'.poolState a.poolStateAccount = some s') (hTotal : s'.totalStaked = s.totalStaked)
    (hLast : s'.lastRewardSlot = s.lastRewardSlot) (hAcc : s'.accTokenPerShare = s.accTokenPerShare) :
    pendingReward env a w' = pendingReward env a w := by
  have hAdjusted : ∀ pf, adjustedTokenPerShare c env.slot pf s' = adjustedTokenPerShare c env.slot pf s := by
    intro pf
    unfold adjustedTokenPerShare
    rw [hTotal, hLast, hAcc]
  unfold pendingReward
  rw [hUser, hConfig, hConfig', hState, hState']
  simp only [load, bind, Except.bind, hAdjusted]

theorem pendingReward_of_computed {env : Env} {a : PendingReward} {w : World} {c : PoolConfig}
    {s : PoolState} {info : UserInfo} (hConfig : w.poolConfig a.poolConfigAccount = some c)
    (hState : w.poolState a.poolStateAccount = some s) (hInfo : w.userInfo a.userInfo = some info)
    (hDecimals : c.rewardMintDecimals ≤ 9) (hComputed : Computed c env.slot s info)
    (hDebt : info.rewardDebt ≤ UserInfo.earned c (s.accrue c env.slot) info.stakedAmount) :
    pendingReward env a w = .ok (info.owed c (s.accrue c env.slot)) := by
  simp only [pendingReward, bind_eq_ok, load_eq_ok, mulU64_eq_ok, subU64_eq_ok]
  exact ⟨info, hInfo, c, hConfig, s, hState, _, (getPrecisionFactor_eq_ok c _).mpr ⟨hDecimals, rfl⟩, _,
    adjustedTokenPerShare_of_updated hDecimals hComputed.updated, _, ⟨hComputed.product, rfl⟩, hDebt, rfl⟩

end StakingOnSolana
