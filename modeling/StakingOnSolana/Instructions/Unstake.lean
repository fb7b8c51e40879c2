import StakingOnSolana.Instructions.Common

/-! # `unstake`

A user takes part of his stake back, after his reward so far has been paid to him. The
user account is any user account: nothing ties it to the signer or to the pool.
-/
set_option autoImplicit false

namespace StakingOnSolana

open Checked

structure Unstake where
  user : Pubkey
  admin : Pubkey
  treasury : Pubkey
  poolConfigAccount : Pubkey
  poolStateAccount : Pubkey
  platform : Pubkey
  userInfo : Pubkey
  userStakeTokenVault : Pubkey
  userRewardTokenVault : Pubkey
  poolStakeTokenVault : Pubkey
  poolRewardTokenVault : Pubkey
  creatorStakeTokenVault : Pubkey
  treasuryStakeTokenVault : Pubkey
  deriving DecidableEq, Repr

namespace Unstake

def payoutAccounts (a : Unstake) : PayoutAccounts :=
  ⟨a.poolRewardTokenVault, a.userRewardTokenVault, a.admin, a.user⟩

def tokenAccounts (a : Unstake) : List Pubkey :=
  [a.userStakeTokenVault, a.userRewardTokenVault, a.poolStakeTokenVault, a.poolRewardTokenVault,
    a.creatorStakeTokenVault, a.treasuryStakeTokenVault]

end Unstake

def unstake (R : Runtime) (env : Env) (a : Unstake) (unstakeAmount : Nat) (w : World) :
    Except Error World := do
  require (a.user ∈ env.signers) .accountNotSigner
  require (a.admin ∈ env.signers) .accountNotSigner
  let poolConfig ← load (w.poolConfig a.poolConfigAccount) .accountNotInitialized
  require (poolConfig.poolStakeTokenVault = a.poolStakeTokenVault) .constraintHasOne
  require (poolConfig.poolRewardTokenVault = a.poolRewardTokenVault) .constraintHasOne
  let poolState ← load (w.poolState a.poolStateAccount) .accountNotInitialized
  let platform ← load (w.platform a.platform) .accountNotInitialized
  let userInfo ← load (w.userInfo a.userInfo) .accountNotInitialized
  require (w.bank.AreTokenAccounts a.tokenAccounts) .accountNotInitialized
  require (unstakeAmount > 0) (.brew .unstakeAmountTooSmall)
  require (userInfo.stakedAmount > unstakeAmount) (.brew .unstakeAmountTooHigh)
  let bank ← payPerformanceFee R env.signers platform a.user a.treasury w.bank
  let poolState ← updatePool poolConfig env.slot poolState
  let precisionFactor ← getPrecisionFactor poolConfig
  let paid ← payIfStaked R env.signers poolConfig precisionFactor a.payoutAccounts userInfo
    poolState bank
  let realAmount :=
    if userInfo.stakedAmount < unstakeAmount then userInfo.stakedAmount else unstakeAmount
  -- Transfer unstake fee from pool to pool owner
  let feeProduct ← mulU64 realAmount poolConfig.unstakeFee
  let unstakeFee := feeProduct / percentPrecision
  let bank ← cpi (R.tokenTransfer paid.bank env.signers a.poolStakeTokenVault
    a.creatorStakeTokenVault a.admin unstakeFee)
  -- Transfer unstake amount from pool to user
  let returned ← subU64 realAmount unstakeFee
  let bank ← cpi (R.tokenTransfer bank env.signers a.poolStakeTokenVault
    a.userStakeTokenVault a.admin returned)
  -- Update user and pool info
  let stakedAmount ← subU64 userInfo.stakedAmount realAmount
  let scaled ← mulU64 stakedAmount paid.poolState.accTokenPerShare
  let totalStaked ← subU64 paid.poolState.totalStaked realAmount
  pure { w with
    userInfo := Function.update w.userInfo a.userInfo
      (some { userInfo with stakedAmount, rewardDebt := scaled / precisionFactor })
    poolState := Function.update w.poolState a.poolStateAccount
      (some { paid.poolState with totalStaked })
    bank
    events := w.events ++ paid.events }

/-- A successful unstake, in terms of the accounts that it loaded. -/
structure Unstaked (env : Env) (a : Unstake) (unstakeAmount : Nat) (w w' : World)
    (platform : PlatformInfo) (c : PoolConfig) (s : PoolState) (info : UserInfo) : Prop where
  signed : a.user ∈ env.signers ∧ a.admin ∈ env.signers
  loadedUser : w.userInfo a.userInfo = some info
  loadedPlatform : w.platform a.platform = some platform
  loadedConfig : w.poolConfig a.poolConfigAccount = some c
  loadedState : w.poolState a.poolStateAccount = some s
  stakeVault : c.poolStakeTokenVault = a.poolStakeTokenVault
  rewardVault : c.poolRewardTokenVault = a.poolRewardTokenVault
  decimals : c.rewardMintDecimals ≤ 9
  amount_pos : 0 < unstakeAmount
  amount_lt : unstakeAmount < info.stakedAmount
  debt_le : info.rewardDebt ≤ UserInfo.earned c (s.accrue c env.slot) info.stakedAmount
  available : 0 < info.owed c (s.accrue c env.slot) →
    info.owed c (s.accrue c env.slot) ≤ availableRewardTokens c (s.accrue c env.slot)
  funded : info.owed c (s.accrue c env.slot) ≤ w.bank.amount a.poolRewardTokenVault
  feeBalance : platform.performanceFee < w.bank.lamports a.user
  fee_le : feeOn c.unstakeFee unstakeAmount ≤ unstakeAmount
  total_le : unstakeAmount ≤ s.totalStaked
  userInfo_eq : w'.userInfo = Function.update w.userInfo a.userInfo (some { info with
    stakedAmount := info.stakedAmount - unstakeAmount
    rewardDebt := UserInfo.earned c (s.accrue c env.slot) (info.stakedAmount - unstakeAmount) })
  poolState_eq : w'.poolState = Function.update w.poolState a.poolStateAccount (some
    { (s.accrue c env.slot).pay (info.owed c (s.accrue c env.slot)) with
      totalStaked := s.totalStaked - unstakeAmount })
  feeFunded : feeOn c.unstakeFee unstakeAmount ≤ Balance.move w.bank.amount a.poolRewardTokenVault
    a.userRewardTokenVault (info.owed c (s.accrue c env.slot)) a.poolStakeTokenVault
  returnFunded : unstakeAmount - feeOn c.unstakeFee unstakeAmount ≤
    Balance.move (Balance.move w.bank.amount a.poolRewardTokenVault a.userRewardTokenVault
      (info.owed c (s.accrue c env.slot))) a.poolStakeTokenVault a.creatorStakeTokenVault
      (feeOn c.unstakeFee unstakeAmount) a.poolStakeTokenVault
  bank_eq : w'.bank = (((w.bank.moveLamports a.user a.treasury platform.performanceFee).moveTokens
    a.poolRewardTokenVault a.userRewardTokenVault (info.owed c (s.accrue c env.slot))).moveTokens
    a.poolStakeTokenVault a.creatorStakeTokenVault (feeOn c.unstakeFee unstakeAmount)).moveTokens
    a.poolStakeTokenVault a.userStakeTokenVault (unstakeAmount - feeOn c.unstakeFee unstakeAmount)
  events_eq : w'.events = w.events ++ claimEvents a.user (info.owed c (s.accrue c env.slot))
  frame : w'.poolConfig = w.poolConfig ∧ w'.platform = w.platform ∧ w'.mint = w.mint

theorem unstake_ok {R : Runtime} {env : Env} {a : Unstake} {unstakeAmount : Nat} {w w' : World}
    (h : unstake R env a unstakeAmount w = .ok w') :
    ∃ platform c s info, Unstaked env a unstakeAmount w w' platform c s info := by
  simp only [unstake, bind_eq_ok, require_eq_ok, load_eq_ok, getPrecisionFactor_eq_ok] at h
  obtain ⟨-, hUser, -, hAdmin, c, hConfig, -, hStakeVault, -, hRewardVault, s, hState, platform,
    hPlatform, info, hInfo, -, -, -, hPos, -, hLt, bank₁, hFee, s₁, hUpdate, _, ⟨hDecimals, rfl⟩,
    paid, hPaid, h⟩ := h
  obtain ⟨hBalance, rfl⟩ := payPerformanceFee_ok hFee
  obtain rfl := updatePool_ok hUpdate
  have hReal : (if info.stakedAmount < unstakeAmount then info.stakedAmount else unstakeAmount) =
      unstakeAmount := if_neg (by omega)
  simp only [hReal, mulU64_eq_ok, subU64_eq_ok, cpi_eq_ok, pure_eq_ok] at h
  obtain ⟨_, ⟨-, rfl⟩, bank₂, hFeeOut, _, ⟨hFeeLe, rfl⟩, bank₃, hOut, _, ⟨-, rfl⟩, _, ⟨-, rfl⟩, _,
    ⟨hTotal, rfl⟩, rfl⟩ := h
  have hPayout := payIfStaked_ok hPaid
  have hFeeOut := R.tokenTransfer_ok hFeeOut
  have hOut := R.tokenTransfer_ok hOut
  have hFeeFunded := hFeeOut.funded
  have hOutFunded := hOut.funded
  rw [hPayout.bank_eq] at hFeeFunded
  rw [hFeeOut.moved, hPayout.bank_eq] at hOutFunded
  rw [hPayout.state] at hTotal
  refine ⟨platform, c, s, info, ⟨hUser, hAdmin⟩, hInfo, hPlatform, hConfig, hState, hStakeVault,
    hRewardVault, hDecimals, hPos, hLt, hPayout.debt_le (by omega), hPayout.available,
    hPayout.funded, hBalance, hFeeLe, hTotal, ?_, ?_, hFeeFunded, hOutFunded, ?_, ?_, rfl, rfl, rfl⟩
  · simp only [hPayout.state]
    rfl
  · simp only [hPayout.state]
    rfl
  · simp only [hOut.moved, hFeeOut.moved, hPayout.bank_eq]
    rfl
  · simp only [hPayout.events]
    rfl

theorem unstake_computed {R : Runtime} {env : Env} {a : Unstake} {unstakeAmount : Nat} {w w' : World}
    {c : PoolConfig} {s : PoolState} {info : UserInfo} (hConfig : w.poolConfig a.poolConfigAccount = some c)
    (hState : w.poolState a.poolStateAccount = some s) (hInfo : w.userInfo a.userInfo = some info)
    (h : unstake R env a unstakeAmount w = .ok w') :
    Computed c env.slot s info ∧ unstakeAmount * c.unstakeFee < 2 ^ 64 := by
  simp only [unstake, bind_eq_ok, load_eq_ok, hConfig, hState, hInfo, Option.some.injEq,
    exists_eq_left', require_eq_ok, mulU64_eq_ok] at h
  obtain ⟨-, -, -, -, -, -, -, -, platform, -, -, -, -, -, -, hLt, bank, -, s₁, hUpdate, pf, -, paid,
    hPaid, _, ⟨hFee, -⟩, -⟩ := h
  obtain rfl := updatePool_ok hUpdate
  refine ⟨⟨hUpdate, payIfStaked_product hPaid⟩, ?_⟩
  rwa [if_neg (by omega)] at hFee

theorem unstake_insufficientReward {R : Runtime} {env : Env} {a : Unstake} {unstakeAmount : Nat}
    {w : World} (h : unstake R env a unstakeAmount w = .error (.brew .insufficientReward)) :
    ∃ c s info, w.poolConfig a.poolConfigAccount = some c ∧ w.poolState a.poolStateAccount = some s ∧
      w.userInfo a.userInfo = some info ∧
      availableRewardTokens c (s.accrue c env.slot) < info.owed c (s.accrue c env.slot) := by
  have hFee : ∀ platform bank, payPerformanceFee R env.signers platform a.user a.treasury bank ≠
      .error (.brew .insufficientReward) := by
    intro platform bank hFails
    rcases payPerformanceFee_error hFails with hOther | ⟨_, hOther⟩ <;> cases hOther
  have hUpdate : ∀ c s, updatePool c env.slot s ≠ .error (.brew .insufficientReward) := by
    intro c s hFails
    cases updatePool_error hFails
  have hPrecision : ∀ c, getPrecisionFactor c ≠ .error (.brew .insufficientReward) := by
    intro c hFails
    cases getPrecisionFactor_error hFails
  simp only [unstake, bind_eq_error, require_eq_error, load_eq_error, require_eq_ok, load_eq_ok,
    mulU64_eq_error, subU64_eq_error, cpi_eq_error, getPrecisionFactor_eq_ok, pure_ne_error, hFee,
    hUpdate, hPrecision, reduceCtorEq, Error.brew.injEq, and_false, exists_false, false_or,
    or_false] at h
  obtain ⟨-, -, -, -, c, hConfig, -, -, -, -, s, hState, -, -, info, hInfo, -, -, -, -, -, -, bank, -,
    s₁, hAccrued, _, ⟨-, rfl⟩, hPaid⟩ := h
  obtain rfl := updatePool_ok hAccrued
  exact ⟨c, s, info, hConfig, hState, hInfo, payIfStaked_insufficientReward hPaid⟩

theorem unstake_ne_arithmetic {R : Runtime} {env : Env} {a : Unstake} {unstakeAmount : Nat} {w : World}
    {c : PoolConfig} {s : PoolState} {info : UserInfo} (hConfig : w.poolConfig a.poolConfigAccount = some c)
    (hState : w.poolState a.poolStateAccount = some s) (hInfo : w.userInfo a.userInfo = some info)
    (hDecimals : c.rewardMintDecimals ≤ 9) (hRate : c.unstakeFee ≤ maxFee)
    (hComputed : Computed c env.slot s info) (hFee : unstakeAmount * c.unstakeFee < 2 ^ 64)
    (hDebt : info.rewardDebt ≤ UserInfo.earned c (s.accrue c env.slot) info.stakedAmount)
    (hFunds : s.rewardAmount + s.paidRewards < 2 ^ 64) (hTotal : info.stakedAmount ≤ s.totalStaked) :
    unstake R env a unstakeAmount w ≠ .error .arithmetic := by
  intro h
  have hPrecision := (getPrecisionFactor_eq_ok c _).mpr ⟨hDecimals, rfl⟩
  have hProduct := hComputed.product
  have hPay : ∀ bank, payIfStaked R env.signers c c.precisionFactor a.payoutAccounts info
      (s.accrue c env.slot) bank ≠ .error .arithmetic := by
    intro bank
    unfold payIfStaked
    split
    · exact payPending_ne_arithmetic hProduct hDebt hFunds
    · exact pure_ne_error
  simp only [unstake, bind_eq_error, require_eq_error, require_eq_ok, load_eq_error, load_eq_ok,
    hConfig, hState, hInfo, hComputed.updated, hPrecision, hPay, payPerformanceFee_ne_arithmetic,
    Option.some.injEq, exists_eq_left', Except.ok.injEq, reduceCtorEq, and_false, false_or] at h
  obtain ⟨-, -, -, -, -, -, -, -, platform, -, -, -, -, -, -, hLt, bank, -, paid, hPaid, h⟩ := h
  have hReal : (if info.stakedAmount < unstakeAmount then info.stakedAmount else unstakeAmount) =
      unstakeAmount := if_neg (by omega)
  have hState' := (payIfStaked_ok hPaid).state
  have hFeeLe : unstakeAmount * c.unstakeFee / percentPrecision ≤ unstakeAmount := feeOn_le hRate _
  have hRest : (info.stakedAmount - unstakeAmount) * (s.accrue c env.slot).accTokenPerShare < 2 ^ 64 :=
    Nat.lt_of_le_of_lt (Nat.mul_le_mul_right _ (Nat.sub_le _ _)) hProduct
  simp only [hReal, mulU64_eq_error, mulU64_eq_ok, subU64_eq_error, subU64_eq_ok, cpi_eq_error,
    hState', pure_ne_error, reduceCtorEq, and_false, exists_false, false_or, or_false, and_true] at h
  rcases h with hLarge | ⟨_, ⟨-, rfl⟩, bank₁, -, hShort | ⟨_, ⟨-, rfl⟩, bank₂, -, hShort | ⟨_, ⟨-, rfl⟩, h⟩⟩⟩
  · omega
  · omega
  · omega
  · rcases h with hLarge | ⟨_, -, hShort⟩
    · exact absurd hRest (Nat.not_lt_of_le hLarge)
    · change s.totalStaked < unstakeAmount at hShort
      omega

/-- What an unstake checks before it updates the pool. -/
structure Unstake.Admitted (R : Runtime) (env : Env) (a : Unstake) (unstakeAmount : Nat) (w : World)
    (c : PoolConfig) (info : UserInfo) (platform : PlatformInfo) : Prop where
  signed : a.user ∈ env.signers ∧ a.admin ∈ env.signers
  vaults : c.poolStakeTokenVault = a.poolStakeTokenVault ∧ c.poolRewardTokenVault = a.poolRewardTokenVault
  loadedPlatform : w.platform a.platform = some platform
  tokens : w.bank.AreTokenAccounts a.tokenAccounts
  amount : 0 < unstakeAmount ∧ unstakeAmount < info.stakedAmount
  fee : payPerformanceFee R env.signers platform a.user a.treasury w.bank =
    .ok (w.bank.moveLamports a.user a.treasury platform.performanceFee)

theorem unstake_arithmetic_iff {R : Runtime} {env : Env} {a : Unstake} {unstakeAmount : Nat} {w : World}
    {c : PoolConfig} {s : PoolState} {info : UserInfo} (hConfig : w.poolConfig a.poolConfigAccount = some c)
    (hState : w.poolState a.poolStateAccount = some s) (hInfo : w.userInfo a.userInfo = some info)
    (hDecimals : c.rewardMintDecimals ≤ 9) (hRate : c.unstakeFee ≤ maxFee)
    (hDebt : info.rewardDebt ≤ UserInfo.earned c (s.accrue c env.slot) info.stakedAmount)
    (hFunds : s.rewardAmount + s.paidRewards < 2 ^ 64) (hTotal : info.stakedAmount ≤ s.totalStaked) :
    unstake R env a unstakeAmount w = .error .arithmetic ↔
      ∃ platform, a.Admitted R env unstakeAmount w c info platform ∧ (¬Computed c env.slot s info ∨
        2 ^ 64 ≤ unstakeAmount * c.unstakeFee ∧ a.payoutAccounts.Pays R env.signers c info
          (s.accrue c env.slot) (w.bank.moveLamports a.user a.treasury platform.performanceFee)) := by
  have hPrecision := (getPrecisionFactor_eq_ok c _).mpr ⟨hDecimals, rfl⟩
  constructor
  · intro h
    have hFails := h
    simp only [unstake, bind_eq_error, require_eq_error, require_eq_ok, load_eq_error, load_eq_ok,
      hConfig, hState, hInfo, payPerformanceFee_ne_arithmetic, Option.some.injEq, exists_eq_left',
      reduceCtorEq, and_false, false_or] at h
    obtain ⟨-, hUser, -, hAdmin, -, hStake, -, hReward, platform, hPlatform, -, hTokens, -, hPos, -, hLt,
      bank, hFee, h⟩ := h
    obtain rfl := (payPerformanceFee_ok hFee).2
    refine ⟨platform, ⟨⟨hUser, hAdmin⟩, ⟨hStake, hReward⟩, hPlatform, hTokens, ⟨hPos, hLt⟩, hFee⟩, ?_⟩
    by_cases hComputed : Computed c env.slot s info
    · -- The update and the payout do not overflow, so the fee is left, and it comes after them.
      have hLarge : 2 ^ 64 ≤ unstakeAmount * c.unstakeFee :=
        Nat.le_of_not_lt fun hFits => unstake_ne_arithmetic hConfig hState hInfo hDecimals hRate
          hComputed hFits hDebt hFunds hTotal hFails
      have hPay : payPending R env.signers c c.precisionFactor a.payoutAccounts info (s.accrue c env.slot)
          (w.bank.moveLamports a.user a.treasury platform.performanceFee) ≠ .error .arithmetic :=
        payPending_ne_arithmetic hComputed.product hDebt hFunds
      simp only [hComputed.updated, hPrecision, payIfStaked, if_pos (Nat.zero_lt_of_lt hLt), hPay,
        Except.ok.injEq, exists_eq_left', reduceCtorEq, false_or] at h
      obtain ⟨out, hPaid, -⟩ := h
      exact Or.inr ⟨hLarge, (payPending_succeeds_iff hComputed.product hDebt hFunds).mp ⟨out, hPaid⟩⟩
    · exact Or.inl hComputed
  · rintro ⟨platform, hAdmitted, hOverflows⟩
    have hStaked : 0 < info.stakedAmount := Nat.zero_lt_of_lt hAdmitted.amount.2
    have hReal : (if info.stakedAmount < unstakeAmount then info.stakedAmount else unstakeAmount) =
        unstakeAmount := if_neg (Nat.not_lt_of_lt hAdmitted.amount.2)
    simp only [unstake, bind_eq_error, require_eq_error, require_eq_ok, load_eq_error, load_eq_ok,
      hConfig, hState, hInfo, Option.some.injEq, exists_eq_left', reduceCtorEq, and_false, false_or]
    refine ⟨(), hAdmitted.signed.1, (), hAdmitted.signed.2, (), hAdmitted.vaults.1, (),
      hAdmitted.vaults.2, platform, hAdmitted.loadedPlatform, (), hAdmitted.tokens, (),
      hAdmitted.amount.1, (), hAdmitted.amount.2, Or.inr ⟨_, hAdmitted.fee, ?_⟩⟩
    rcases updatePool_or c env.slot s with hUpdate | hUpdate
    · refine Or.inr ⟨_, hUpdate, Or.inr ⟨_, hPrecision, ?_⟩⟩
      simp only [payIfStaked, if_pos hStaked, hReal]
      by_cases hProduct : info.stakedAmount * (s.accrue c env.slot).accTokenPerShare < 2 ^ 64
      · obtain ⟨hLarge, hPays⟩ := hOverflows.resolve_left (not_not_intro ⟨hUpdate, hProduct⟩)
        obtain ⟨out, hPaid⟩ := (payPending_succeeds_iff hProduct hDebt hFunds).mpr hPays
        exact Or.inr ⟨out, hPaid, Or.inl (mulU64_eq_error.mpr ⟨hLarge, rfl⟩)⟩
      · exact Or.inl (payPending_of_large (Nat.le_of_not_lt hProduct))
    · exact Or.inl hUpdate

end StakingOnSolana
