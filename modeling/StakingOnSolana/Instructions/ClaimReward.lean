import StakingOnSolana.Instructions.Common

/-! # `claim_reward`

As in `unstake`, the user account is any user account.
-/
set_option autoImplicit false

namespace StakingOnSolana

open Checked

structure ClaimReward where
  claimer : Pubkey
  admin : Pubkey
  treasury : Pubkey
  userInfo : Pubkey
  poolConfigAccount : Pubkey
  poolStateAccount : Pubkey
  platform : Pubkey
  userRewardTokenVault : Pubkey
  poolRewardTokenVault : Pubkey
  deriving DecidableEq, Repr

namespace ClaimReward

def payoutAccounts (a : ClaimReward) : PayoutAccounts :=
  ⟨a.poolRewardTokenVault, a.userRewardTokenVault, a.admin, a.claimer⟩

end ClaimReward

def claimReward (R : Runtime) (env : Env) (a : ClaimReward) (w : World) : Except Error World := do
  require (a.claimer ∈ env.signers) .accountNotSigner
  require (a.admin ∈ env.signers) .accountNotSigner
  let userInfo ← load (w.userInfo a.userInfo) .accountNotInitialized
  let poolConfig ← load (w.poolConfig a.poolConfigAccount) .accountNotInitialized
  require (poolConfig.poolRewardTokenVault = a.poolRewardTokenVault) .constraintHasOne
  let poolState ← load (w.poolState a.poolStateAccount) .accountNotInitialized
  let platform ← load (w.platform a.platform) .accountNotInitialized
  require (w.bank.AreTokenAccounts [a.userRewardTokenVault, a.poolRewardTokenVault])
    .accountNotInitialized
  let bank ← payPerformanceFee R env.signers platform a.claimer a.treasury w.bank
  let poolState ← updatePool poolConfig env.slot poolState
  if userInfo.stakedAmount = 0 then
    pure { w with
      poolState := Function.update w.poolState a.poolStateAccount (some poolState)
      bank }
  else do
    let precisionFactor ← getPrecisionFactor poolConfig
    let paid ← payPending R env.signers poolConfig precisionFactor a.payoutAccounts userInfo
      poolState bank
    let scaled ← mulU64 userInfo.stakedAmount paid.poolState.accTokenPerShare
    pure { w with
      userInfo := Function.update w.userInfo a.userInfo
        (some { userInfo with rewardDebt := scaled / precisionFactor })
      poolState := Function.update w.poolState a.poolStateAccount (some paid.poolState)
      bank := paid.bank
      events := w.events ++ paid.events }

/-- A successful claim, in terms of the accounts that it loaded. Without a stake it only brings
the pool up to date, and leaves the user account as it is. -/
structure Claimed (env : Env) (a : ClaimReward) (w w' : World)
    (platform : PlatformInfo) (c : PoolConfig) (s : PoolState) (info : UserInfo) : Prop where
  signed : a.claimer ∈ env.signers ∧ a.admin ∈ env.signers
  loadedUser : w.userInfo a.userInfo = some info
  loadedPlatform : w.platform a.platform = some platform
  loadedConfig : w.poolConfig a.poolConfigAccount = some c
  loadedState : w.poolState a.poolStateAccount = some s
  rewardVault : c.poolRewardTokenVault = a.poolRewardTokenVault
  decimals : 0 < info.stakedAmount → c.rewardMintDecimals ≤ 9
  debt_le : 0 < info.stakedAmount →
    info.rewardDebt ≤ UserInfo.earned c (s.accrue c env.slot) info.stakedAmount
  available : 0 < info.owed c (s.accrue c env.slot) →
    info.owed c (s.accrue c env.slot) ≤ availableRewardTokens c (s.accrue c env.slot)
  funded : info.owed c (s.accrue c env.slot) ≤ w.bank.amount a.poolRewardTokenVault
  feeBalance : platform.performanceFee < w.bank.lamports a.claimer
  userInfo_eq : w'.userInfo = Function.update w.userInfo a.userInfo
    (some (if info.stakedAmount = 0 then info else
      { info with rewardDebt := UserInfo.earned c (s.accrue c env.slot) info.stakedAmount }))
  poolState_eq : w'.poolState = Function.update w.poolState a.poolStateAccount
    (some ((s.accrue c env.slot).pay (info.owed c (s.accrue c env.slot))))
  bank_eq : w'.bank = (w.bank.moveLamports a.claimer a.treasury platform.performanceFee).moveTokens
    a.poolRewardTokenVault a.userRewardTokenVault (info.owed c (s.accrue c env.slot))
  events_eq : w'.events = w.events ++ claimEvents a.claimer (info.owed c (s.accrue c env.slot))
  frame : w'.poolConfig = w.poolConfig ∧ w'.platform = w.platform ∧ w'.mint = w.mint

theorem claimReward_ok {R : Runtime} {env : Env} {a : ClaimReward} {w w' : World}
    (h : claimReward R env a w = .ok w') :
    ∃ platform c s info, Claimed env a w w' platform c s info := by
  simp only [claimReward, bind_eq_ok, require_eq_ok, load_eq_ok] at h
  obtain ⟨-, hClaimer, -, hAdmin, info, hInfo, c, hConfig, -, hVault, s, hState, platform,
    hPlatform, -, -, bank₁, hFee, s₁, hUpdate, h⟩ := h
  obtain ⟨hBalance, rfl⟩ := payPerformanceFee_ok hFee
  obtain rfl := updatePool_ok hUpdate
  refine ⟨platform, c, s, info, ?_⟩
  split at h
  · rename_i hNone
    obtain rfl := pure_eq_ok.mp h
    have hOwed := UserInfo.owed_of_unstaked c (s.accrue c env.slot) info hNone
    refine ⟨⟨hClaimer, hAdmin⟩, hInfo, hPlatform, hConfig, hState, hVault, fun hPos => ?_,
      fun hPos => ?_, fun hPos => ?_, ?_, hBalance, ?_, ?_, ?_, ?_, rfl, rfl, rfl⟩
    · omega
    · omega
    · omega
    · rw [hOwed]
      exact Nat.zero_le _
    · rw [if_pos hNone, ← hInfo, Function.update_eq_self]
    · rw [hOwed, PoolState.pay_zero]
    · rw [hOwed, Bank.moveTokens_zero]
    · rw [hOwed, claimEvents_zero, List.append_nil]
  · rename_i hStaked
    simp only [bind_eq_ok, getPrecisionFactor_eq_ok, mulU64_eq_ok, pure_eq_ok] at h
    obtain ⟨_, ⟨hDecimals, rfl⟩, paid, hPaid, _, ⟨-, rfl⟩, rfl⟩ := h
    have hPayout := payPending_ok hPaid
    refine ⟨⟨hClaimer, hAdmin⟩, hInfo, hPlatform, hConfig, hState, hVault, fun _ => hDecimals,
      hPayout.debt_le, hPayout.available, hPayout.funded, hBalance, ?_, ?_, ?_, ?_, rfl, rfl, rfl⟩
    · simp only [hPayout.state, if_neg hStaked]
      rfl
    · simp only [hPayout.state]
    · simp only [hPayout.bank_eq]
      rfl
    · simp only [hPayout.events]
      rfl

theorem claimReward_computed {R : Runtime} {env : Env} {a : ClaimReward} {w w' : World}
    {c : PoolConfig} {s : PoolState} {info : UserInfo} (hConfig : w.poolConfig a.poolConfigAccount = some c)
    (hState : w.poolState a.poolStateAccount = some s) (hInfo : w.userInfo a.userInfo = some info)
    (h : claimReward R env a w = .ok w') : Computed c env.slot s info := by
  simp only [claimReward, bind_eq_ok, load_eq_ok, hConfig, hState, hInfo, Option.some.injEq,
    exists_eq_left'] at h
  obtain ⟨-, -, -, -, -, -, platform, -, -, -, bank, -, s₁, hUpdate, h⟩ := h
  obtain rfl := updatePool_ok hUpdate
  refine ⟨hUpdate, ?_⟩
  split at h
  · rename_i hNone
    rw [hNone, Nat.zero_mul]
    decide
  · simp only [payPending, bind_eq_ok, mulU64_eq_ok] at h
    obtain ⟨_, -, _, ⟨_, ⟨hProduct, -⟩, -⟩, -⟩ := h
    exact hProduct

theorem claimReward_ne_arithmetic {R : Runtime} {env : Env} {a : ClaimReward} {w : World}
    {c : PoolConfig} {s : PoolState} {info : UserInfo} (hConfig : w.poolConfig a.poolConfigAccount = some c)
    (hState : w.poolState a.poolStateAccount = some s) (hInfo : w.userInfo a.userInfo = some info)
    (hDecimals : c.rewardMintDecimals ≤ 9) (hComputed : Computed c env.slot s info)
    (hDebt : info.rewardDebt ≤ UserInfo.earned c (s.accrue c env.slot) info.stakedAmount)
    (hFunds : s.rewardAmount + s.paidRewards < 2 ^ 64) : claimReward R env a w ≠ .error .arithmetic := by
  intro h
  have hPrecision := (getPrecisionFactor_eq_ok c _).mpr ⟨hDecimals, rfl⟩
  have hProduct := hComputed.product
  have hPay : ∀ bank, payPending R env.signers c c.precisionFactor a.payoutAccounts info
      (s.accrue c env.slot) bank ≠ .error .arithmetic :=
    fun bank => payPending_ne_arithmetic hProduct hDebt hFunds
  simp only [claimReward, bind_eq_error, require_eq_error, load_eq_error, load_eq_ok, hConfig, hState,
    hInfo, hComputed.updated, payPerformanceFee_ne_arithmetic, Option.some.injEq, exists_eq_left',
    Except.ok.injEq, reduceCtorEq, and_false, false_or] at h
  obtain ⟨-, -, -, -, -, -, platform, -, -, -, bank, -, h⟩ := h
  split at h
  · exact pure_ne_error h
  · simp only [bind_eq_error, hPrecision, hPay, mulU64_eq_error, pure_ne_error, Except.ok.injEq,
      exists_eq_left', reduceCtorEq, and_false, exists_false, or_false, false_or, and_true] at h
    obtain ⟨paid, hPaid, hLarge⟩ := h
    rw [(payPending_ok hPaid).state] at hLarge
    exact absurd hProduct (Nat.not_lt_of_le hLarge)

/-- What a claim checks before it updates the pool. -/
structure ClaimReward.Admitted (R : Runtime) (env : Env) (a : ClaimReward) (w : World) (c : PoolConfig)
    (platform : PlatformInfo) : Prop where
  signed : a.claimer ∈ env.signers ∧ a.admin ∈ env.signers
  rewardVault : c.poolRewardTokenVault = a.poolRewardTokenVault
  loadedPlatform : w.platform a.platform = some platform
  tokens : w.bank.AreTokenAccounts [a.userRewardTokenVault, a.poolRewardTokenVault]
  fee : payPerformanceFee R env.signers platform a.claimer a.treasury w.bank =
    .ok (w.bank.moveLamports a.claimer a.treasury platform.performanceFee)

theorem claimReward_arithmetic_iff {R : Runtime} {env : Env} {a : ClaimReward} {w : World}
    {c : PoolConfig} {s : PoolState} {info : UserInfo} (hConfig : w.poolConfig a.poolConfigAccount = some c)
    (hState : w.poolState a.poolStateAccount = some s) (hInfo : w.userInfo a.userInfo = some info)
    (hDecimals : c.rewardMintDecimals ≤ 9) (hStaked : 0 < info.stakedAmount)
    (hDebt : info.rewardDebt ≤ UserInfo.earned c (s.accrue c env.slot) info.stakedAmount)
    (hFunds : s.rewardAmount + s.paidRewards < 2 ^ 64) : claimReward R env a w = .error .arithmetic ↔
      ∃ platform, a.Admitted R env w c platform ∧ ¬Computed c env.slot s info := by
  have hPrecision := (getPrecisionFactor_eq_ok c _).mpr ⟨hDecimals, rfl⟩
  constructor
  · intro h
    have hFails := h
    simp only [claimReward, bind_eq_error, require_eq_error, require_eq_ok, load_eq_error, load_eq_ok,
      hConfig, hState, hInfo, payPerformanceFee_ne_arithmetic, Option.some.injEq, exists_eq_left',
      reduceCtorEq, and_false, false_or] at h
    obtain ⟨-, hClaimer, -, hAdmin, -, hVault, platform, hPlatform, -, hTokens, bank, hFee, -⟩ := h
    refine ⟨platform, ⟨⟨hClaimer, hAdmin⟩, hVault, hPlatform, hTokens, ?_⟩, fun hComputed => ?_⟩
    · rw [hFee, (payPerformanceFee_ok hFee).2]
    · exact claimReward_ne_arithmetic hConfig hState hInfo hDecimals hComputed hDebt hFunds hFails
  · rintro ⟨platform, hAdmitted, hNot⟩
    simp only [claimReward, bind_eq_error, require_eq_error, require_eq_ok, load_eq_error, load_eq_ok,
      hConfig, hState, hInfo, Option.some.injEq, exists_eq_left', reduceCtorEq, and_false, false_or]
    refine ⟨(), hAdmitted.signed.1, (), hAdmitted.signed.2, (), hAdmitted.rewardVault, platform,
      hAdmitted.loadedPlatform, (), hAdmitted.tokens, Or.inr ⟨_, hAdmitted.fee, ?_⟩⟩
    rcases updatePool_or c env.slot s with hUpdate | hUpdate
    · have hLarge : 2 ^ 64 ≤ info.stakedAmount * (s.accrue c env.slot).accTokenPerShare :=
        Nat.le_of_not_lt fun hProduct => hNot ⟨hUpdate, hProduct⟩
      refine Or.inr ⟨_, hUpdate, ?_⟩
      rw [if_neg (Nat.ne_of_gt hStaked)]
      simp only [bind_eq_error]
      exact Or.inr ⟨_, hPrecision, Or.inl (payPending_of_large hLarge)⟩
    · exact Or.inl hUpdate

end StakingOnSolana
