import StakingOnSolana.Runtime
import StakingOnSolana.Utils

/-! # Blocks that several handlers repeat

`stake`, `unstake`, `claim_reward` and `compound_reward` begin with the same performance
fee, and the first three pay the pending reward by the same statements. Each block is
translated once, together with the result it has when it succeeds.
-/
set_option autoImplicit false

namespace StakingOnSolana

open Checked

def payPerformanceFee (R : Runtime) (signers : List Pubkey) (platform : PlatformInfo)
    (user treasury : Pubkey) (bank : Bank) : Except Error Bank := do
  require (bank.lamports user > platform.performanceFee) (.brew .insufficientDeployFee)
  cpi (R.systemTransfer bank signers user treasury platform.performanceFee)

theorem payPerformanceFee_ok {R : Runtime} {signers : List Pubkey} {platform : PlatformInfo}
    {user treasury : Pubkey} {bank bank' : Bank}
    (h : payPerformanceFee R signers platform user treasury bank = .ok bank') :
    platform.performanceFee < bank.lamports user ∧
      bank' = bank.moveLamports user treasury platform.performanceFee := by
  simp only [payPerformanceFee, bind_eq_ok, require_eq_ok, cpi_eq_ok] at h
  obtain ⟨-, hBalance, hTransfer⟩ := h
  exact ⟨hBalance, (R.systemTransfer_ok hTransfer).moved⟩

theorem payPerformanceFee_error {R : Runtime} {signers : List Pubkey} {platform : PlatformInfo}
    {user treasury : Pubkey} {bank : Bank} {e : Error}
    (h : payPerformanceFee R signers platform user treasury bank = .error e) :
    e = .brew .insufficientDeployFee ∨ ∃ e', e = .cpi e' := by
  simp only [payPerformanceFee, bind_eq_error, require_eq_error, cpi_eq_error] at h
  rcases h with ⟨-, rfl⟩ | ⟨-, -, e', -, rfl⟩
  · exact Or.inl rfl
  · exact Or.inr ⟨e', rfl⟩

/-- Creating an account moves to it what it lacks of the rent for its space. -/
def createAccount (R : Runtime) (signers : List Pubkey) (payer account : Pubkey) (space : Nat)
    (bank : Bank) : Except Error Bank :=
  cpi (R.systemTransfer bank signers payer account
    (R.minimumBalance space - bank.lamports account))

theorem createAccount_ok {R : Runtime} {signers : List Pubkey} {payer account : Pubkey}
    {space : Nat} {bank bank' : Bank}
    (h : createAccount R signers payer account space bank = .ok bank') :
    bank' = bank.moveLamports payer account (R.minimumBalance space - bank.lamports account) :=
  (R.systemTransfer_ok (cpi_eq_ok.mp h)).moved

def feeOn (rate amount : Nat) : Nat := amount * rate / percentPrecision

theorem feeOn_le_fifth {rate : Nat} (h : rate ≤ maxFee) (amount : Nat) : feeOn rate amount ≤ amount / 5 := by
  have hProduct := Nat.mul_le_mul_left amount h
  unfold feeOn maxFee percentPrecision at *
  omega

theorem feeOn_le {rate : Nat} (h : rate ≤ maxFee) (amount : Nat) : feeOn rate amount ≤ amount :=
  (feeOn_le_fifth h amount).trans (Nat.div_le_self amount 5)

/-- The whole reward of a stake since the accumulator was zero. -/
def UserInfo.earned (c : PoolConfig) (s : PoolState) (staked : Nat) : Nat :=
  staked * s.accTokenPerShare / c.precisionFactor

/-- The pending reward, zero where the subtraction of the debt would underflow. -/
def UserInfo.owed (c : PoolConfig) (s : PoolState) (info : UserInfo) : Nat :=
  UserInfo.earned c s info.stakedAmount - info.rewardDebt

@[simp] theorem UserInfo.owed_of_unstaked (c : PoolConfig) (s : PoolState) (info : UserInfo)
    (h : info.stakedAmount = 0) : info.owed c s = 0 := by
  simp [UserInfo.owed, UserInfo.earned, h]

/-- What a payout does to the ledger: `totalEarned` stops at zero. -/
def PoolState.pay (pending : Nat) (s : PoolState) : PoolState :=
  { s with
    rewardAmount := s.rewardAmount - pending
    totalEarned := s.totalEarned - pending
    paidRewards := s.paidRewards + pending }

@[simp] theorem PoolState.pay_zero (s : PoolState) : s.pay 0 = s := rfl

def claimEvents (claimer : Pubkey) (pending : Nat) : List Event :=
  if pending > 0 then [.rewardClaim claimer pending] else []

@[simp] theorem claimEvents_zero (claimer : Pubkey) : claimEvents claimer 0 = [] := rfl

theorem saturating_sub (a b : Nat) : (if a > b then a - b else 0) = a - b := by
  split <;> omega

theorem availableRewardTokens_le (c : PoolConfig) (s : PoolState) :
    availableRewardTokens c s ≤ s.rewardAmount := by
  unfold availableRewardTokens
  split
  · split <;> omega
  · exact Nat.le_refl _

structure PayoutAccounts where
  poolRewardTokenVault : Pubkey
  userRewardTokenVault : Pubkey
  admin : Pubkey
  claimer : Pubkey

structure Payout where
  poolState : PoolState
  bank : Bank
  events : List Event

def payPending (R : Runtime) (signers : List Pubkey) (poolConfig : PoolConfig)
    (precisionFactor : Nat) (accounts : PayoutAccounts) (userInfo : UserInfo)
    (poolState : PoolState) (bank : Bank) : Except Error Payout := do
  let scaled ← mulU64 userInfo.stakedAmount poolState.accTokenPerShare
  let pending ← subU64 (scaled / precisionFactor) userInfo.rewardDebt
  if pending > 0 then do
    require (availableRewardTokens poolConfig poolState ≥ pending) (.brew .insufficientReward)
    let bank ← cpi (R.tokenTransfer bank signers accounts.poolRewardTokenVault
      accounts.userRewardTokenVault accounts.admin pending)
    let rewardAmount ← subU64 poolState.rewardAmount pending
    let totalEarned :=
      if poolState.totalEarned > pending then poolState.totalEarned - pending else 0
    let paidRewards ← addU64 poolState.paidRewards pending
    pure ⟨{ poolState with rewardAmount, totalEarned, paidRewards }, bank,
      [.rewardClaim accounts.claimer pending]⟩
  else pure ⟨poolState, bank, []⟩

def payIfStaked (R : Runtime) (signers : List Pubkey) (poolConfig : PoolConfig)
    (precisionFactor : Nat) (accounts : PayoutAccounts) (userInfo : UserInfo)
    (poolState : PoolState) (bank : Bank) : Except Error Payout :=
  if userInfo.stakedAmount > 0 then
    payPending R signers poolConfig precisionFactor accounts userInfo poolState bank
  else pure ⟨poolState, bank, []⟩

structure PaidPending (poolConfig : PoolConfig) (accounts : PayoutAccounts) (userInfo : UserInfo)
    (poolState : PoolState) (bank : Bank) (out : Payout) : Prop where
  debt_le : 0 < userInfo.stakedAmount →
    userInfo.rewardDebt ≤ UserInfo.earned poolConfig poolState userInfo.stakedAmount
  available : 0 < userInfo.owed poolConfig poolState →
    userInfo.owed poolConfig poolState ≤ availableRewardTokens poolConfig poolState
  funded : userInfo.owed poolConfig poolState ≤ bank.amount accounts.poolRewardTokenVault
  state : out.poolState = poolState.pay (userInfo.owed poolConfig poolState)
  bank_eq : out.bank = bank.moveTokens accounts.poolRewardTokenVault accounts.userRewardTokenVault
    (userInfo.owed poolConfig poolState)
  events : out.events = claimEvents accounts.claimer (userInfo.owed poolConfig poolState)

theorem payPending_ok {R : Runtime} {signers : List Pubkey} {c : PoolConfig} {a : PayoutAccounts}
    {info : UserInfo} {s : PoolState} {bank : Bank} {out : Payout}
    (h : payPending R signers c c.precisionFactor a info s bank = .ok out) :
    PaidPending c a info s bank out := by
  simp only [payPending, bind_eq_ok, mulU64_eq_ok, subU64_eq_ok] at h
  obtain ⟨_, ⟨-, rfl⟩, pending, ⟨hDebt, hPending⟩, h⟩ := h
  have hOwed : info.owed c s = pending := hPending
  split at h
  · rename_i hPos
    simp only [bind_eq_ok, require_eq_ok, cpi_eq_ok, subU64_eq_ok, addU64_eq_ok, pure_eq_ok,
      saturating_sub] at h
    obtain ⟨-, hAvailable, bank', hTransfer, _, ⟨-, rfl⟩, _, ⟨-, rfl⟩, rfl⟩ := h
    have hMoved := R.tokenTransfer_ok hTransfer
    rw [← hOwed] at hAvailable hMoved hPos ⊢
    exact ⟨fun _ => hDebt, fun _ => hAvailable, hMoved.funded, rfl, hMoved.moved,
      by simp only [claimEvents, hPos, if_true]⟩
  · rename_i hZero
    have hOwedZero : info.owed c s = 0 := by omega
    rw [pure_eq_ok] at h
    subst h
    refine ⟨fun _ => hDebt, ?_, ?_, ?_, ?_, ?_⟩ <;> rw [hOwedZero]
    · intro hPos
      exact absurd hPos (Nat.lt_irrefl 0)
    · exact Nat.zero_le _
    · exact (PoolState.pay_zero s).symm
    · exact (Bank.moveTokens_zero _ _ _).symm
    · rfl

theorem payIfStaked_ok {R : Runtime} {signers : List Pubkey} {c : PoolConfig} {a : PayoutAccounts}
    {info : UserInfo} {s : PoolState} {bank : Bank} {out : Payout}
    (h : payIfStaked R signers c c.precisionFactor a info s bank = .ok out) :
    PaidPending c a info s bank out := by
  unfold payIfStaked at h
  split at h
  · exact payPending_ok h
  · rename_i hNone
    obtain rfl := pure_eq_ok.mp h
    have hOwed := UserInfo.owed_of_unstaked c s info (by omega)
    refine ⟨fun hSome => absurd hSome hNone, fun hPos => ?_, ?_, ?_, ?_, ?_⟩
    · omega
    all_goals rw [hOwed]
    · exact Nat.zero_le _
    · exact (PoolState.pay_zero s).symm
    · exact (Bank.moveTokens_zero _ _ _).symm
    · rfl

/-- The products behind a payout: what was computed where it succeeds. -/
structure Computed (c : PoolConfig) (slot : Nat) (s : PoolState) (info : UserInfo) : Prop where
  updated : updatePool c slot s = .ok (s.accrue c slot)
  product : info.stakedAmount * (s.accrue c slot).accTokenPerShare < 2 ^ 64

theorem payIfStaked_of_unstaked {R : Runtime} {signers : List Pubkey} {c : PoolConfig} {pf : Nat}
    {a : PayoutAccounts} {info : UserInfo} {s : PoolState} {bank : Bank} (h : info.stakedAmount = 0) :
    payIfStaked R signers c pf a info s bank = .ok ⟨s, bank, []⟩ := by
  unfold payIfStaked
  rw [h, if_neg (Nat.lt_irrefl 0)]
  rfl

theorem payIfStaked_product {R : Runtime} {signers : List Pubkey} {c : PoolConfig} {pf : Nat}
    {a : PayoutAccounts} {info : UserInfo} {s : PoolState} {bank : Bank} {out : Payout}
    (h : payIfStaked R signers c pf a info s bank = .ok out) :
    info.stakedAmount * s.accTokenPerShare < 2 ^ 64 := by
  unfold payIfStaked at h
  split at h
  · simp only [payPending, bind_eq_ok, mulU64_eq_ok] at h
    obtain ⟨_, ⟨hProduct, -⟩, -⟩ := h
    exact hProduct
  · rename_i hNone
    rw [Nat.eq_zero_of_not_pos hNone, Nat.zero_mul]
    decide

theorem payPending_insufficientReward {R : Runtime} {signers : List Pubkey} {c : PoolConfig}
    {a : PayoutAccounts} {info : UserInfo} {s : PoolState} {bank : Bank}
    (h : payPending R signers c c.precisionFactor a info s bank =
      .error (.brew .insufficientReward)) :
    availableRewardTokens c s < info.owed c s := by
  simp only [payPending, bind_eq_error, mulU64_eq_error, mulU64_eq_ok, subU64_eq_error,
    subU64_eq_ok, reduceCtorEq, and_false, false_or] at h
  obtain ⟨_, ⟨-, rfl⟩, pending, ⟨hDebt, hPending⟩, h⟩ := h
  have hOwed : info.owed c s = pending := hPending
  split at h
  · simp only [bind_eq_error, require_eq_error, cpi_eq_error, subU64_eq_error, addU64_eq_error,
      pure_ne_error, reduceCtorEq, and_false, exists_false, or_false, and_true] at h
    omega
  · exact absurd h pure_ne_error

theorem payIfStaked_insufficientReward {R : Runtime} {signers : List Pubkey} {c : PoolConfig}
    {a : PayoutAccounts} {info : UserInfo} {s : PoolState} {bank : Bank}
    (h : payIfStaked R signers c c.precisionFactor a info s bank =
      .error (.brew .insufficientReward)) :
    availableRewardTokens c s < info.owed c s := by
  unfold payIfStaked at h
  split at h
  · exact payPending_insufficientReward h
  · exact absurd h pure_ne_error

/-- A payout whose product fits cannot overflow in the ledger of a pool whose funds fit. -/
theorem payPending_ne_arithmetic {R : Runtime} {signers : List Pubkey} {c : PoolConfig}
    {a : PayoutAccounts} {info : UserInfo} {s : PoolState} {bank : Bank}
    (hProduct : info.stakedAmount * s.accTokenPerShare < 2 ^ 64)
    (hDebt : info.rewardDebt ≤ UserInfo.earned c s info.stakedAmount)
    (hFunds : s.rewardAmount + s.paidRewards < 2 ^ 64) :
    payPending R signers c c.precisionFactor a info s bank ≠ .error .arithmetic := by
  intro h
  simp only [payPending, bind_eq_error, mulU64_eq_error, mulU64_eq_ok, subU64_eq_error,
    subU64_eq_ok, and_true] at h
  rcases h with hLarge | ⟨_, ⟨-, rfl⟩, hShort | ⟨pending, -, h⟩⟩
  · omega
  · exact absurd hDebt (Nat.not_le_of_lt hShort)
  · split at h
    · simp only [bind_eq_error, require_eq_error, require_eq_ok, cpi_eq_error, subU64_eq_error,
        subU64_eq_ok, addU64_eq_error, pure_ne_error, reduceCtorEq, and_false, exists_false, false_or,
        or_false, and_true] at h
      obtain ⟨-, hAvailable, -, -, h⟩ := h
      have hRecorded := Nat.le_trans hAvailable (availableRewardTokens_le c s)
      rcases h with hShort | ⟨-, -, hLarge⟩
      · omega
      · omega
    · exact pure_ne_error h

theorem payPending_of_large {R : Runtime} {signers : List Pubkey} {c : PoolConfig} {pf : Nat}
    {a : PayoutAccounts} {info : UserInfo} {s : PoolState} {bank : Bank}
    (h : 2 ^ 64 ≤ info.stakedAmount * s.accTokenPerShare) :
    payPending R signers c pf a info s bank = .error .arithmetic := by
  simp only [payPending, bind_eq_error]
  exact Or.inl (mulU64_eq_error.mpr ⟨h, rfl⟩)

/-- The user is owed nothing, or an amount that is available and that the token program moves. -/
def PayoutAccounts.Pays (R : Runtime) (signers : List Pubkey) (c : PoolConfig) (a : PayoutAccounts)
    (info : UserInfo) (s : PoolState) (bank : Bank) : Prop :=
  info.owed c s = 0 ∨ info.owed c s ≤ availableRewardTokens c s ∧ ∃ bank', R.tokenTransfer bank signers
    a.poolRewardTokenVault a.userRewardTokenVault a.admin (info.owed c s) = .ok bank'

theorem payPending_succeeds_iff {R : Runtime} {signers : List Pubkey} {c : PoolConfig}
    {a : PayoutAccounts} {info : UserInfo} {s : PoolState} {bank : Bank}
    (hProduct : info.stakedAmount * s.accTokenPerShare < 2 ^ 64)
    (hDebt : info.rewardDebt ≤ UserInfo.earned c s info.stakedAmount)
    (hFunds : s.rewardAmount + s.paidRewards < 2 ^ 64) :
    (∃ out, payPending R signers c c.precisionFactor a info s bank = .ok out) ↔
      a.Pays R signers c info s bank := by
  have hScaled := mulU64_eq_ok.mpr ⟨hProduct, rfl⟩
  have hPending : subU64 (info.stakedAmount * s.accTokenPerShare / c.precisionFactor) info.rewardDebt =
      .ok (info.owed c s) := subU64_eq_ok.mpr ⟨hDebt, rfl⟩
  simp only [payPending, bind_eq_ok, hScaled, hPending, Except.ok.injEq, exists_eq_left']
  by_cases hPos : info.owed c s > 0
  · simp only [if_pos hPos, bind_eq_ok, require_eq_ok, cpi_eq_ok, subU64_eq_ok, addU64_eq_ok]
    constructor
    · rintro ⟨out, -, hAvailable, bank', hTransfer, -⟩
      exact Or.inr ⟨hAvailable, bank', hTransfer⟩
    · rintro (hZero | ⟨hAvailable, bank', hTransfer⟩)
      · exact absurd hZero (Nat.ne_of_gt hPos)
      · have hRecorded := hAvailable.trans (availableRewardTokens_le c s)
        exact ⟨_, (), hAvailable, bank', hTransfer, _, ⟨hRecorded, rfl⟩, _, ⟨by omega, rfl⟩, rfl⟩
  · simp only [if_neg hPos]
    exact iff_of_true ⟨_, rfl⟩ (Or.inl (Nat.eq_zero_of_not_pos hPos))

theorem payPerformanceFee_ne_arithmetic {R : Runtime} {signers : List Pubkey} {platform : PlatformInfo}
    {user treasury : Pubkey} {bank : Bank} :
    payPerformanceFee R signers platform user treasury bank ≠ .error .arithmetic := by
  intro h
  rcases payPerformanceFee_error h with hOther | ⟨_, hOther⟩ <;> cases hOther

end StakingOnSolana
