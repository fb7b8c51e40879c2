import StakingOnSolana.Instructions.Common

/-! # `stake`

A user moves tokens into the pool, after his reward so far has been paid to him. The user
account is derived from the pool and the signer, and is created by the first stake.
-/
set_option autoImplicit false

namespace StakingOnSolana

open Checked

structure Stake where
  userInfo : Pubkey
  staker : Pubkey
  admin : Pubkey
  treasury : Pubkey
  platform : Pubkey
  poolConfigAccount : Pubkey
  poolStateAccount : Pubkey
  userStakeTokenVault : Pubkey
  userRewardTokenVault : Pubkey
  poolStakeTokenVault : Pubkey
  poolRewardTokenVault : Pubkey
  creatorStakeTokenVault : Pubkey
  treasuryStakeTokenVault : Pubkey
  deriving DecidableEq, Repr

namespace Stake

def payoutAccounts (a : Stake) : PayoutAccounts :=
  ⟨a.poolRewardTokenVault, a.userRewardTokenVault, a.admin, a.staker⟩

def tokenAccounts (a : Stake) : List Pubkey :=
  [a.userStakeTokenVault, a.userRewardTokenVault, a.poolStakeTokenVault, a.poolRewardTokenVault,
    a.creatorStakeTokenVault, a.treasuryStakeTokenVault]

/-- `init_if_needed`: the user account as it is, or a new one that the staker pays for. -/
def initUserInfo (R : Runtime) (env : Env) (a : Stake) (w : World) : Except Error (UserInfo × Bank) :=
  match w.userInfo a.userInfo with
  | some userInfo => pure (userInfo, w.bank)
  | none => do
    require (w.Vacant a.userInfo) .accountAlreadyInUse
    let bank ← createAccount R env.signers a.staker a.userInfo userInfoSize w.bank
    pure (UserInfo.zero, bank)

def rentDue (R : Runtime) (a : Stake) (w : World) : Nat :=
  if (w.userInfo a.userInfo).isSome then 0
  else R.minimumBalance userInfoSize - w.bank.lamports a.userInfo

end Stake

def stake (R : Runtime) (env : Env) (a : Stake) (stakeAmount : Nat) (w : World) :
    Except Error World := do
  require (a.staker ∈ env.signers) .accountNotSigner
  require (a.userInfo = .userInfoPda a.poolConfigAccount a.staker) .constraintSeeds
  let (userInfo, bank) ← a.initUserInfo R env w
  let platform ← load (w.platform a.platform) .accountNotInitialized
  let poolConfig ← load (w.poolConfig a.poolConfigAccount) .accountNotInitialized
  require (poolConfig.poolStakeTokenVault = a.poolStakeTokenVault) .constraintHasOne
  let poolState ← load (w.poolState a.poolStateAccount) .accountNotInitialized
  require (bank.AreTokenAccounts a.tokenAccounts) .accountNotInitialized
  require (poolConfig.startSlot > 0 ∧ poolConfig.startSlot < env.slot) (.brew .poolNotStarted)
  let bank ← payPerformanceFee R env.signers platform a.staker a.treasury bank
  let poolState ← updatePool poolConfig env.slot poolState
  let precisionFactor ← getPrecisionFactor poolConfig
  let paid ← payIfStaked R env.signers poolConfig precisionFactor a.payoutAccounts userInfo
    poolState bank
  -- Transfer Token from staker to pool account
  let bank ← cpi (R.tokenTransfer paid.bank env.signers a.userStakeTokenVault
    a.poolStakeTokenVault a.staker stakeAmount)
  -- Transfer stake fee from pool to pool owner
  let feeProduct ← mulU64 stakeAmount poolConfig.stakeFee
  let stakeFee := feeProduct / percentPrecision
  let bank ← cpi (R.tokenTransfer bank env.signers a.poolStakeTokenVault
    a.creatorStakeTokenVault a.admin stakeFee)
  -- Update user and pool info
  let realAmount ← subU64 stakeAmount stakeFee
  let stakedAmount ← addU64 userInfo.stakedAmount realAmount
  let scaled ← mulU64 stakedAmount paid.poolState.accTokenPerShare
  let totalStaked ← addU64 paid.poolState.totalStaked realAmount
  pure { w with
    userInfo := Function.update w.userInfo a.userInfo
      (some { userInfo with stakedAmount, rewardDebt := scaled / precisionFactor })
    poolState := Function.update w.poolState a.poolStateAccount
      (some { paid.poolState with totalStaked })
    bank
    events := w.events ++ paid.events ++ [.deposit a.staker realAmount] }

/-- A successful stake, in terms of the accounts that it loaded. -/
structure Staked (R : Runtime) (env : Env) (a : Stake) (stakeAmount : Nat) (w w' : World)
    (platform : PlatformInfo) (c : PoolConfig) (s : PoolState) (info : UserInfo) : Prop where
  signed : a.staker ∈ env.signers
  derived : a.userInfo = .userInfoPda a.poolConfigAccount a.staker
  loadedUser : (w.userInfo a.userInfo).getD UserInfo.zero = info
  loadedPlatform : w.platform a.platform = some platform
  loadedConfig : w.poolConfig a.poolConfigAccount = some c
  loadedState : w.poolState a.poolStateAccount = some s
  stakeVault : c.poolStakeTokenVault = a.poolStakeTokenVault
  started : 0 < c.startSlot ∧ c.startSlot < env.slot
  decimals : c.rewardMintDecimals ≤ 9
  debt_le : 0 < info.stakedAmount →
    info.rewardDebt ≤ UserInfo.earned c (s.accrue c env.slot) info.stakedAmount
  available : 0 < info.owed c (s.accrue c env.slot) →
    info.owed c (s.accrue c env.slot) ≤ availableRewardTokens c (s.accrue c env.slot)
  funded : info.owed c (s.accrue c env.slot) ≤ w.bank.amount a.poolRewardTokenVault
  feeBalance : platform.performanceFee <
    (w.bank.moveLamports a.staker a.userInfo (a.rentDue R w)).lamports a.staker
  fee_le : feeOn c.stakeFee stakeAmount ≤ stakeAmount
  userInfo_eq : w'.userInfo = Function.update w.userInfo a.userInfo (some { info with
    stakedAmount := info.stakedAmount + (stakeAmount - feeOn c.stakeFee stakeAmount)
    rewardDebt := UserInfo.earned c (s.accrue c env.slot)
      (info.stakedAmount + (stakeAmount - feeOn c.stakeFee stakeAmount)) })
  poolState_eq : w'.poolState = Function.update w.poolState a.poolStateAccount (some
    { (s.accrue c env.slot).pay (info.owed c (s.accrue c env.slot)) with
      totalStaked := s.totalStaked + (stakeAmount - feeOn c.stakeFee stakeAmount) })
  bank_eq : w'.bank = ((((w.bank.moveLamports a.staker a.userInfo (a.rentDue R w)).moveLamports
    a.staker a.treasury platform.performanceFee).moveTokens a.poolRewardTokenVault
    a.userRewardTokenVault (info.owed c (s.accrue c env.slot))).moveTokens a.userStakeTokenVault
    a.poolStakeTokenVault stakeAmount).moveTokens a.poolStakeTokenVault a.creatorStakeTokenVault
    (feeOn c.stakeFee stakeAmount)
  events_eq : w'.events = w.events ++ claimEvents a.staker (info.owed c (s.accrue c env.slot)) ++
    [.deposit a.staker (stakeAmount - feeOn c.stakeFee stakeAmount)]
  frame : w'.poolConfig = w.poolConfig ∧ w'.platform = w.platform ∧ w'.mint = w.mint

theorem Stake.initUserInfo_ok {R : Runtime} {env : Env} {a : Stake} {w : World} {info : UserInfo}
    {bank : Bank} (h : a.initUserInfo R env w = .ok (info, bank)) :
    (w.userInfo a.userInfo).getD UserInfo.zero = info ∧
      bank = w.bank.moveLamports a.staker a.userInfo (a.rentDue R w) := by
  unfold Stake.initUserInfo at h
  split at h
  · rename_i old hOld
    rw [pure_eq_ok, Prod.mk.injEq] at h
    obtain ⟨rfl, rfl⟩ := h
    simp [Stake.rentDue, hOld, Bank.moveLamports]
  · rename_i hNone
    simp only [bind_eq_ok, require_eq_ok, pure_eq_ok, Prod.mk.injEq] at h
    obtain ⟨-, -, bank', hCreate, rfl, rfl⟩ := h
    rw [createAccount_ok hCreate]
    simp [Stake.rentDue, hNone]

theorem stake_ok {R : Runtime} {env : Env} {a : Stake} {stakeAmount : Nat} {w w' : World}
    (h : stake R env a stakeAmount w = .ok w') :
    ∃ platform c s info, Staked R env a stakeAmount w w' platform c s info := by
  simp only [stake, bind_eq_ok, require_eq_ok, load_eq_ok, getPrecisionFactor_eq_ok,
    Prod.exists] at h
  obtain ⟨-, hSigned, -, hDerived, info, bank₀, hInit, platform, hPlatform, c, hConfig, -, hVault,
    s, hState, -, -, -, hStarted, bank₁, hFee, s₁, hUpdate, _, ⟨hDecimals, rfl⟩, paid, hPaid, h⟩ := h
  obtain ⟨hInfo, rfl⟩ := Stake.initUserInfo_ok hInit
  obtain ⟨hBalance, rfl⟩ := payPerformanceFee_ok hFee
  obtain rfl := updatePool_ok hUpdate
  simp only [mulU64_eq_ok, addU64_eq_ok, subU64_eq_ok, cpi_eq_ok, pure_eq_ok] at h
  obtain ⟨bank₂, hIn, _, ⟨-, rfl⟩, bank₃, hOut, _, ⟨hFeeLe, rfl⟩, _, ⟨-, rfl⟩, _, ⟨-, rfl⟩, _,
    ⟨-, rfl⟩, rfl⟩ := h
  have hIn := (R.tokenTransfer_ok hIn).moved
  have hOut := (R.tokenTransfer_ok hOut).moved
  have hPayout := payIfStaked_ok hPaid
  refine ⟨platform, c, s, info, hSigned, hDerived, hInfo, hPlatform, hConfig, hState, hVault,
    hStarted, hDecimals, hPayout.debt_le, hPayout.available, hPayout.funded, hBalance, hFeeLe,
    ?_, ?_, ?_, ?_, rfl, rfl, rfl⟩
  · simp only [hPayout.state]
    rfl
  · simp only [hPayout.state]
    rfl
  · simp only [hOut, hIn, hPayout.bank_eq]
    rfl
  · simp only [hPayout.events]
    rfl

theorem stake_computed {R : Runtime} {env : Env} {a : Stake} {stakeAmount : Nat} {w w' : World}
    {c : PoolConfig} {s : PoolState} (hConfig : w.poolConfig a.poolConfigAccount = some c)
    (hState : w.poolState a.poolStateAccount = some s) (h : stake R env a stakeAmount w = .ok w') :
    Computed c env.slot s ((w.userInfo a.userInfo).getD .zero) := by
  simp only [stake, bind_eq_ok, load_eq_ok, hConfig, hState, Option.some.injEq, exists_eq_left',
    Prod.exists] at h
  obtain ⟨-, -, -, -, info, bank, hInit, platform, -, -, -, -, -, -, -, bank₁, -, s₁, hUpdate, pf, -,
    paid, hPaid, -⟩ := h
  obtain ⟨hInfo, -⟩ := Stake.initUserInfo_ok hInit
  obtain rfl := updatePool_ok hUpdate
  rw [hInfo]
  exact ⟨hUpdate, payIfStaked_product hPaid⟩

/-- The two transfers of a stake, after the payout, find what they take. -/
theorem stake_funded {R : Runtime} {env : Env} {a : Stake} {stakeAmount : Nat} {w w' : World}
    {c : PoolConfig} {s : PoolState} (hConfig : w.poolConfig a.poolConfigAccount = some c)
    (hState : w.poolState a.poolStateAccount = some s) (h : stake R env a stakeAmount w = .ok w')
    {amount : Pubkey → Nat} (hPaid : amount = Balance.move w.bank.amount a.poolRewardTokenVault
      a.userRewardTokenVault (((w.userInfo a.userInfo).getD .zero).owed c (s.accrue c env.slot))) :
    stakeAmount ≤ amount a.userStakeTokenVault ∧ feeOn c.stakeFee stakeAmount ≤
      Balance.move amount a.userStakeTokenVault a.poolStakeTokenVault stakeAmount a.poolStakeTokenVault := by
  simp only [stake, bind_eq_ok, load_eq_ok, hConfig, hState, Option.some.injEq, exists_eq_left',
    Prod.exists, getPrecisionFactor_eq_ok, mulU64_eq_ok, cpi_eq_ok] at h
  obtain ⟨-, -, -, -, info, bank, hInit, platform, -, -, -, -, -, -, -, bank₁, hFee, s₁, hUpdate, _,
    ⟨-, rfl⟩, paid, hPayout, bank₂, hIn, _, ⟨-, rfl⟩, bank₃, hOut, -⟩ := h
  obtain ⟨rfl, rfl⟩ := Stake.initUserInfo_ok hInit
  obtain ⟨-, rfl⟩ := payPerformanceFee_ok hFee
  obtain rfl := updatePool_ok hUpdate
  have hBank : paid.bank.amount = amount := by
    rw [hPaid, (payIfStaked_ok hPayout).bank_eq]
    rfl
  have hIn := R.tokenTransfer_ok hIn
  have hOut := (R.tokenTransfer_ok hOut).funded
  rw [hIn.moved, Bank.moveTokens_amount, hBank] at hOut
  exact ⟨hBank ▸ hIn.funded, hOut⟩

end StakingOnSolana
