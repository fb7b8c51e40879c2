import StakingOnSolana.Instructions.Common

/-! # `compound_reward`

The pending reward is recorded as stake. Where the mints differ a swap stands between the
two, and what it brought is read from the balance of the reward vault before and after.
-/
set_option autoImplicit false

namespace StakingOnSolana

open Checked

structure CompoundReward where
  user : Pubkey
  admin : Pubkey
  treasury : Pubkey
  poolConfigAccount : Pubkey
  poolStateAccount : Pubkey
  userInfo : Pubkey
  platform : Pubkey
  poolStakeTokenVault : Pubkey
  poolRewardTokenVault : Pubkey
  deriving DecidableEq, Repr

structure Compounded where
  stakedAmount : Nat
  poolState : PoolState
  bank : Bank
  events : List Event

namespace CompoundReward

def swap (a : CompoundReward) (pending : Nat) : SwapBaseIn where
  userSourceTokenAccount := a.poolRewardTokenVault
  userDestinationTokenAccount := a.poolStakeTokenVault
  userSourceOwner := a.admin
  amountIn := pending
  minimumAmountOut := 1

/-- The amount to record as stake, and the bank after the swap if there is one. `loaded` is the
balance in the reward vault's account as it was deserialized: no `reload` follows the swap, so
the same value is read before and after it. -/
def swapPending (env : Env) (a : CompoundReward) (poolConfig : PoolConfig) (loaded pending : Nat)
    (bank : Bank) : Except Error (Nat × Bank) :=
  if poolConfig.stakeMint ≠ poolConfig.rewardMint then do
    let poolRewardBalanceBefore := loaded
    let bank ← load (env.ammProgram (a.swap pending) bank) (.cpi (.other 0))
    let poolRewardBalanceAfter := loaded
    let pending ← subU64 poolRewardBalanceAfter poolRewardBalanceBefore
    pure (pending, bank)
  else pure (pending, bank)

def compoundPending (env : Env) (a : CompoundReward) (poolConfig : PoolConfig) (userInfo : UserInfo)
    (loaded pending : Nat) (poolState : PoolState) (bank : Bank) : Except Error Compounded :=
  if pending > 0 then do
    require (availableRewardTokens poolConfig poolState ≥ pending) (.brew .insufficientReward)
    let totalEarned :=
      if poolState.totalEarned > pending then poolState.totalEarned - pending else 0
    let paidRewards ← addU64 poolState.paidRewards pending
    -- swap stake token to reward token
    let (credited, bank) ← a.swapPending env poolConfig loaded pending bank
    let totalStaked ← addU64 poolState.totalStaked credited
    let stakedAmount ← addU64 userInfo.stakedAmount credited
    pure ⟨stakedAmount, { poolState with totalEarned, paidRewards, totalStaked }, bank,
      [.compound a.user pending, .deposit a.user credited]⟩
  else pure ⟨userInfo.stakedAmount, poolState, bank, []⟩

end CompoundReward

def compoundReward (R : Runtime) (env : Env) (a : CompoundReward) (w : World) :
    Except Error World := do
  require (a.user ∈ env.signers) .accountNotSigner
  require (a.admin ∈ env.signers) .accountNotSigner
  let poolConfig ← load (w.poolConfig a.poolConfigAccount) .accountNotInitialized
  require (poolConfig.poolStakeTokenVault = a.poolStakeTokenVault) .constraintHasOne
  require (poolConfig.poolRewardTokenVault = a.poolRewardTokenVault) .constraintHasOne
  let poolState ← load (w.poolState a.poolStateAccount) .accountNotInitialized
  let userInfo ← load (w.userInfo a.userInfo) .accountNotInitialized
  let platform ← load (w.platform a.platform) .accountNotInitialized
  require (w.bank.AreTokenAccounts [a.poolStakeTokenVault, a.poolRewardTokenVault])
    .accountNotInitialized
  let bank ← payPerformanceFee R env.signers platform a.user a.treasury w.bank
  let poolState ← updatePool poolConfig env.slot poolState
  if userInfo.stakedAmount = 0 then
    pure { w with
      poolState := Function.update w.poolState a.poolStateAccount (some poolState)
      bank }
  else do
    let precisionFactor ← getPrecisionFactor poolConfig
    let scaled ← mulU64 userInfo.stakedAmount poolState.accTokenPerShare
    let pending ← subU64 (scaled / precisionFactor) userInfo.rewardDebt
    let out ← a.compoundPending env poolConfig userInfo (w.bank.amount a.poolRewardTokenVault)
      pending poolState bank
    let rescaled ← mulU64 out.stakedAmount out.poolState.accTokenPerShare
    pure { w with
      userInfo := Function.update w.userInfo a.userInfo (some { userInfo with
        stakedAmount := out.stakedAmount, rewardDebt := rescaled / precisionFactor })
      poolState := Function.update w.poolState a.poolStateAccount (some out.poolState)
      bank := out.bank
      events := w.events ++ out.events }

/-- What a compound adds to the stake: with different mints the two balances are one value. -/
def PoolConfig.credited (c : PoolConfig) (pending : Nat) : Nat :=
  if c.stakeMint = c.rewardMint then pending else 0

/-- What a compound does to the ledger. Unlike a payout it leaves `rewardAmount` as it is. -/
def PoolState.compound (pending credited : Nat) (s : PoolState) : PoolState :=
  { s with
    totalStaked := s.totalStaked + credited
    totalEarned := s.totalEarned - pending
    paidRewards := s.paidRewards + pending }

def compoundEvents (user : Pubkey) (pending credited : Nat) : List Event :=
  if pending > 0 then [.compound user pending, .deposit user credited] else []

@[simp] theorem PoolConfig.credited_zero (c : PoolConfig) : c.credited 0 = 0 := by
  simp [credited]

@[simp] theorem PoolState.compound_zero (s : PoolState) : s.compound 0 0 = s := rfl

@[simp] theorem compoundEvents_zero (user : Pubkey) (credited : Nat) :
    compoundEvents user 0 credited = [] := rfl

def CompoundReward.Swapped (env : Env) (a : CompoundReward) (c : PoolConfig) (pending : Nat)
    (bank bank' : Bank) : Prop :=
  if c.stakeMint ≠ c.rewardMint ∧ 0 < pending then env.ammProgram (a.swap pending) bank = some bank'
  else bank' = bank

/-- A successful compound, in terms of the accounts that it loaded. -/
structure CompoundedReward (env : Env) (a : CompoundReward) (w w' : World)
    (platform : PlatformInfo) (c : PoolConfig) (s : PoolState) (info : UserInfo) : Prop where
  signed : a.user ∈ env.signers ∧ a.admin ∈ env.signers
  loadedUser : w.userInfo a.userInfo = some info
  loadedPlatform : w.platform a.platform = some platform
  loadedConfig : w.poolConfig a.poolConfigAccount = some c
  loadedState : w.poolState a.poolStateAccount = some s
  stakeVault : c.poolStakeTokenVault = a.poolStakeTokenVault
  rewardVault : c.poolRewardTokenVault = a.poolRewardTokenVault
  decimals : 0 < info.stakedAmount → c.rewardMintDecimals ≤ 9
  debt_le : 0 < info.stakedAmount →
    info.rewardDebt ≤ UserInfo.earned c (s.accrue c env.slot) info.stakedAmount
  available : 0 < info.owed c (s.accrue c env.slot) →
    info.owed c (s.accrue c env.slot) ≤ availableRewardTokens c (s.accrue c env.slot)
  feeBalance : platform.performanceFee < w.bank.lamports a.user
  userInfo_eq : w'.userInfo = Function.update w.userInfo a.userInfo
    (some (if info.stakedAmount = 0 then info else { info with
      stakedAmount := info.stakedAmount + c.credited (info.owed c (s.accrue c env.slot))
      rewardDebt := UserInfo.earned c (s.accrue c env.slot)
        (info.stakedAmount + c.credited (info.owed c (s.accrue c env.slot))) }))
  poolState_eq : w'.poolState = Function.update w.poolState a.poolStateAccount
    (some ((s.accrue c env.slot).compound (info.owed c (s.accrue c env.slot))
      (c.credited (info.owed c (s.accrue c env.slot)))))
  bank_eq : a.Swapped env c (info.owed c (s.accrue c env.slot))
    (w.bank.moveLamports a.user a.treasury platform.performanceFee) w'.bank
  events_eq : w'.events = w.events ++ compoundEvents a.user (info.owed c (s.accrue c env.slot))
    (c.credited (info.owed c (s.accrue c env.slot)))
  frame : w'.poolConfig = w.poolConfig ∧ w'.platform = w.platform ∧ w'.mint = w.mint

namespace CompoundReward

theorem swapPending_ok {env : Env} {a : CompoundReward} {c : PoolConfig} {loaded pending credited : Nat}
    {bank bank' : Bank} (hPos : 0 < pending)
    (h : a.swapPending env c loaded pending bank = .ok (credited, bank')) :
    credited = c.credited pending ∧ a.Swapped env c pending bank bank' := by
  unfold swapPending at h
  split at h
  · rename_i hMints
    simp only [bind_eq_ok, load_eq_ok, subU64_eq_ok, pure_eq_ok, Prod.mk.injEq] at h
    obtain ⟨bank₁, hSwap, diff, ⟨-, rfl⟩, rfl, rfl⟩ := h
    constructor
    · rw [PoolConfig.credited, if_neg hMints, Nat.sub_self]
    · rw [Swapped, if_pos ⟨hMints, hPos⟩]
      exact hSwap
  · rename_i hMints
    rw [pure_eq_ok, Prod.mk.injEq] at h
    obtain ⟨rfl, rfl⟩ := h
    constructor
    · rw [PoolConfig.credited, if_pos (not_not.mp hMints)]
    · rw [Swapped, if_neg fun hBoth => hMints hBoth.1]

theorem compoundPending_ok {env : Env} {a : CompoundReward} {c : PoolConfig} {info : UserInfo}
    {loaded pending : Nat} {s : PoolState} {bank : Bank} {out : Compounded}
    (h : a.compoundPending env c info loaded pending s bank = .ok out) :
    (0 < pending → pending ≤ availableRewardTokens c s) ∧
      out.stakedAmount = info.stakedAmount + c.credited pending ∧
      out.poolState = s.compound pending (c.credited pending) ∧
      a.Swapped env c pending bank out.bank ∧
      out.events = compoundEvents a.user pending (c.credited pending) := by
  unfold compoundPending at h
  split at h
  · rename_i hPos
    simp only [bind_eq_ok, require_eq_ok, addU64_eq_ok, pure_eq_ok, saturating_sub,
      Prod.exists] at h
    obtain ⟨-, hAvailable, _, ⟨-, rfl⟩, credited, bank', hSwap, _, ⟨-, rfl⟩, _, ⟨-, rfl⟩, rfl⟩ := h
    obtain ⟨rfl, hSwapped⟩ := swapPending_ok hPos hSwap
    refine ⟨fun _ => hAvailable, rfl, rfl, hSwapped, ?_⟩
    rw [compoundEvents, if_pos hPos]
  · rename_i hZero
    obtain rfl : pending = 0 := by omega
    rw [pure_eq_ok] at h
    subst h
    refine ⟨fun hPos => absurd hPos (Nat.lt_irrefl 0), ?_, ?_, ?_, rfl⟩
    · rw [PoolConfig.credited_zero, Nat.add_zero]
    · rw [PoolConfig.credited_zero, PoolState.compound_zero]
    · rw [Swapped, if_neg fun hBoth => hZero hBoth.2]

end CompoundReward

theorem compoundReward_ok {R : Runtime} {env : Env} {a : CompoundReward} {w w' : World}
    (h : compoundReward R env a w = .ok w') :
    ∃ platform c s info, CompoundedReward env a w w' platform c s info := by
  simp only [compoundReward, bind_eq_ok, require_eq_ok, load_eq_ok] at h
  obtain ⟨-, hUser, -, hAdmin, c, hConfig, -, hStakeVault, -, hRewardVault, s, hState, info, hInfo,
    platform, hPlatform, -, -, bank₁, hFee, s₁, hUpdate, h⟩ := h
  obtain ⟨hBalance, rfl⟩ := payPerformanceFee_ok hFee
  obtain rfl := updatePool_ok hUpdate
  refine ⟨platform, c, s, info, ?_⟩
  split at h
  · rename_i hNone
    obtain rfl := pure_eq_ok.mp h
    have hOwed := UserInfo.owed_of_unstaked c (s.accrue c env.slot) info hNone
    refine ⟨⟨hUser, hAdmin⟩, hInfo, hPlatform, hConfig, hState, hStakeVault, hRewardVault,
      fun hPos => ?_, fun hPos => ?_, fun hPos => ?_, hBalance, ?_, ?_, ?_, ?_, rfl, rfl, rfl⟩
    · omega
    · omega
    · omega
    · rw [if_pos hNone, ← hInfo, Function.update_eq_self]
    · rw [hOwed, PoolConfig.credited_zero, PoolState.compound_zero]
    · rw [hOwed, CompoundReward.Swapped, if_neg fun hBoth => Nat.lt_irrefl 0 hBoth.2]
    · rw [hOwed, compoundEvents_zero, List.append_nil]
  · rename_i hStaked
    simp only [bind_eq_ok, getPrecisionFactor_eq_ok, mulU64_eq_ok, subU64_eq_ok, pure_eq_ok] at h
    obtain ⟨_, ⟨hDecimals, rfl⟩, _, ⟨-, rfl⟩, pending, ⟨hDebt, hPending⟩, out, hOut, _, ⟨-, rfl⟩,
      rfl⟩ := h
    obtain rfl : info.owed c (s.accrue c env.slot) = pending := hPending
    obtain ⟨hAvailable, hOutStaked, hOutState, hSwapped, hEvents⟩ :=
      CompoundReward.compoundPending_ok hOut
    refine ⟨⟨hUser, hAdmin⟩, hInfo, hPlatform, hConfig, hState, hStakeVault, hRewardVault,
      fun _ => hDecimals, fun _ => hDebt, hAvailable, hBalance, ?_, ?_, hSwapped, ?_, rfl, rfl, rfl⟩
    · simp only [hOutState, hOutStaked, if_neg hStaked]
      rfl
    · simp only [hOutState]
    · simp only [hEvents]

end StakingOnSolana
