/-! # Accounts of the staking program

The account types of `state/` and the events of `events/`. Integer fields are naturals:
the width of a field (u64, u16 for fees and duration, u8 for decimals) is enforced by the
checked operations that compute its values.

Addresses derived by the program are free constructors: two derived addresses agree only
when their seeds do, and no other account lives at one.
-/
set_option autoImplicit false

namespace StakingOnSolana

inductive Pubkey where
  | address (id : Nat)
  | platformPda (treasury : Pubkey)
  | userInfoPda (poolConfig staker : Pubkey)
  deriving DecidableEq, Repr

def percentPrecision : Nat := 10000
def slotsPerDay : Nat := 216000
def maxFee : Nat := 2000

structure PlatformInfo where
  deployFee : Nat
  performanceFee : Nat
  treasury : Pubkey
  deriving DecidableEq, Repr

def platformInfoSize : Nat := 8 + 8 + 8 + 32

structure PoolConfig where
  owner : Pubkey
  duration : Nat
  startSlot : Nat
  endSlot : Nat
  rewardPerSlot : Nat
  stakeFee : Nat
  unstakeFee : Nat
  stakeMint : Pubkey
  rewardMint : Pubkey
  stakeMintDecimals : Nat
  rewardMintDecimals : Nat
  poolStakeTokenVault : Pubkey
  poolRewardTokenVault : Pubkey
  stateAddr : Pubkey
  deriving DecidableEq, Repr

def poolConfigSize : Nat := 8 + 32 + 2 + 8 + 8 + 8 + 2 + 2 + 32 + 32 + 1 + 1 + 32 + 32 + 32

@[ext]
structure PoolState where
  totalStaked : Nat
  lastRewardSlot : Nat
  accTokenPerShare : Nat
  rewardAmount : Nat
  shouldTotalPaid : Nat
  paidRewards : Nat
  totalEarned : Nat
  deriving DecidableEq, Repr

def poolStateSize : Nat := 8 + 8 + 8 + 8 + 8 + 8 + 8 + 8

structure UserInfo where
  stakedAmount : Nat
  rewardDebt : Nat
  depositSlot : Nat
  deriving DecidableEq, Repr

def userInfoSize : Nat := 8 + 8 + 8 + 8

/-- A new account holds zeros: `init` and `init_if_needed` allocate cleared data. -/
def PoolState.zero : PoolState := ⟨0, 0, 0, 0, 0, 0, 0⟩
def UserInfo.zero : UserInfo := ⟨0, 0, 0⟩

inductive Event where
  | newStartAndEndSlots (startSlot endSlot : Nat)
  | rewardsStop (endSlot : Nat)
  | deposit (staker : Pubkey) (amount : Nat)
  | rewardClaim (claimer : Pubkey) (amount : Nat)
  | compound (compounder : Pubkey) (amount : Nat)
  deriving DecidableEq, Repr

end StakingOnSolana
