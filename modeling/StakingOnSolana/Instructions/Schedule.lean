import StakingOnSolana.Instructions.Common

/-! # `start_reward` and `stop_reward`

Both take any `deployer`. The first sets the slots between which the pool emits. The second
returns what the pool need not keep; its `pool_config_account` is not `mut`, so the end
slot that it sets is announced and lost.
-/
set_option autoImplicit false

namespace StakingOnSolana

open Checked

structure StartReward where
  deployer : Pubkey
  poolConfigAccount : Pubkey
  poolStateAccount : Pubkey
  deriving DecidableEq, Repr

structure StopReward where
  deployer : Pubkey
  poolConfigAccount : Pubkey
  poolRewardTokenVault : Pubkey
  deployerRewardTokenVault : Pubkey
  poolStateAccount : Pubkey
  deriving DecidableEq, Repr

def startReward (env : Env) (a : StartReward) (w : World) : Except Error World := do
  require (a.deployer ∈ env.signers) .accountNotSigner
  let poolConfig ← load (w.poolConfig a.poolConfigAccount) .accountNotInitialized
  let poolState ← load (w.poolState a.poolStateAccount) .accountNotInitialized
  require (poolConfig.startSlot = 0) (.brew .poolAlreadyStarted)
  let startSlot ← addU64 env.slot 10
  let durationSlots ← mulU64 poolConfig.duration slotsPerDay
  let endSlot ← addU64 startSlot durationSlots
  pure { w with
    poolConfig := Function.update w.poolConfig a.poolConfigAccount
      (some { poolConfig with startSlot, endSlot })
    poolState := Function.update w.poolState a.poolStateAccount
      (some { poolState with lastRewardSlot := startSlot })
    events := w.events ++ [.newStartAndEndSlots startSlot endSlot] }

def refundRemaining (R : Runtime) (env : Env) (a : StopReward) (remainRewards : Nat)
    (poolState : PoolState) (bank : Bank) : Except Error (PoolState × Bank) :=
  if remainRewards > poolState.shouldTotalPaid then do
    let remainRewards ← subU64 remainRewards poolState.shouldTotalPaid
    let bank ← cpi (R.tokenTransfer bank env.signers a.poolRewardTokenVault
      a.deployerRewardTokenVault a.deployer remainRewards)
    let totalEarned :=
      if poolState.totalEarned > remainRewards then poolState.totalEarned - remainRewards else 0
    pure ({ poolState with totalEarned }, bank)
  else pure (poolState, bank)

def stopReward (R : Runtime) (env : Env) (a : StopReward) (w : World) : Except Error World := do
  let poolConfig ← load (w.poolConfig a.poolConfigAccount) .accountNotInitialized
  require (w.bank.AreTokenAccounts [a.poolRewardTokenVault, a.deployerRewardTokenVault])
    .accountNotInitialized
  let poolState ← load (w.poolState a.poolStateAccount) .accountNotInitialized
  let poolState ← updatePool poolConfig env.slot poolState
  let remainRewards ← addU64 (availableRewardTokens poolConfig poolState) poolState.paidRewards
  let (poolState, bank) ← refundRemaining R env a remainRewards poolState w.bank
  -- Assigned to a copy: an account without `mut` is not written back.
  let poolConfig := { poolConfig with endSlot := env.slot }
  pure { w with
    poolState := Function.update w.poolState a.poolStateAccount (some poolState)
    bank
    events := w.events ++ [.rewardsStop poolConfig.endSlot] }

/-- A successful start, in terms of the accounts that it loaded. -/
structure Started (env : Env) (a : StartReward) (w w' : World) (c : PoolConfig) (s : PoolState) :
    Prop where
  signed : a.deployer ∈ env.signers
  loadedConfig : w.poolConfig a.poolConfigAccount = some c
  loadedState : w.poolState a.poolStateAccount = some s
  notStarted : c.startSlot = 0
  poolConfig_eq : w'.poolConfig = Function.update w.poolConfig a.poolConfigAccount (some { c with
    startSlot := env.slot + 10, endSlot := env.slot + 10 + c.duration * slotsPerDay })
  poolState_eq : w'.poolState = Function.update w.poolState a.poolStateAccount
    (some { s with lastRewardSlot := env.slot + 10 })
  events_eq : w'.events = w.events ++
    [.newStartAndEndSlots (env.slot + 10) (env.slot + 10 + c.duration * slotsPerDay)]
  frame : w'.userInfo = w.userInfo ∧ w'.platform = w.platform ∧ w'.mint = w.mint ∧ w'.bank = w.bank

theorem startReward_ok {env : Env} {a : StartReward} {w w' : World}
    (h : startReward env a w = .ok w') : ∃ c s, Started env a w w' c s := by
  simp only [startReward, bind_eq_ok, require_eq_ok, load_eq_ok, addU64_eq_ok, mulU64_eq_ok,
    pure_eq_ok] at h
  obtain ⟨-, hSigned, c, hConfig, s, hState, -, hNot, _, ⟨-, rfl⟩, _, ⟨-, rfl⟩, _, ⟨-, rfl⟩, rfl⟩ := h
  exact ⟨c, s, hSigned, hConfig, hState, hNot, rfl, rfl, rfl, rfl, rfl, rfl, rfl⟩

/-- What `stop_reward` takes out of the vault: what the ledger holds beyond the reward accrued. -/
def PoolState.surplus (c : PoolConfig) (s : PoolState) : Nat :=
  availableRewardTokens c s + s.paidRewards - s.shouldTotalPaid

/-- A successful stop, in terms of the accounts that it loaded. No configuration changes, and
neither does `rewardAmount`. -/
structure Stopped (env : Env) (a : StopReward) (w w' : World) (c : PoolConfig) (s : PoolState) :
    Prop where
  loadedConfig : w.poolConfig a.poolConfigAccount = some c
  loadedState : w.poolState a.poolStateAccount = some s
  signed : 0 < (s.accrue c env.slot).surplus c → a.deployer ∈ env.signers
  funded : (s.accrue c env.slot).surplus c ≤ w.bank.amount a.poolRewardTokenVault
  poolState_eq : w'.poolState = Function.update w.poolState a.poolStateAccount (some
    { s.accrue c env.slot with totalEarned := s.totalEarned - (s.accrue c env.slot).surplus c })
  bank_eq : w'.bank = w.bank.moveTokens a.poolRewardTokenVault a.deployerRewardTokenVault
    ((s.accrue c env.slot).surplus c)
  events_eq : w'.events = w.events ++ [.rewardsStop env.slot]
  frame : w'.poolConfig = w.poolConfig ∧ w'.userInfo = w.userInfo ∧ w'.platform = w.platform ∧
    w'.mint = w.mint

theorem refundRemaining_ok {R : Runtime} {env : Env} {a : StopReward} {c : PoolConfig}
    {s s' : PoolState} {bank bank' : Bank}
    (h : refundRemaining R env a (availableRewardTokens c s + s.paidRewards) s bank = .ok (s', bank')) :
    (0 < s.surplus c → a.deployer ∈ env.signers) ∧
      s.surplus c ≤ bank.amount a.poolRewardTokenVault ∧
      s' = { s with totalEarned := s.totalEarned - s.surplus c } ∧
      bank' = bank.moveTokens a.poolRewardTokenVault a.deployerRewardTokenVault (s.surplus c) := by
  unfold refundRemaining at h
  split at h
  · simp only [bind_eq_ok, subU64_eq_ok, cpi_eq_ok, pure_eq_ok, saturating_sub, Prod.mk.injEq] at h
    obtain ⟨_, ⟨-, rfl⟩, bank₁, hTransfer, rfl, rfl⟩ := h
    have hMoved := R.tokenTransfer_ok hTransfer
    exact ⟨fun _ => hMoved.signed, hMoved.funded, rfl, hMoved.moved⟩
  · rename_i hNone
    have hSurplus : s.surplus c = 0 := by
      unfold PoolState.surplus
      omega
    rw [pure_eq_ok, Prod.mk.injEq] at h
    obtain ⟨rfl, rfl⟩ := h
    rw [hSurplus, Bank.moveTokens_zero]
    exact ⟨fun hPos => absurd hPos (Nat.lt_irrefl 0), Nat.zero_le _, rfl, rfl⟩

theorem stopReward_ok {R : Runtime} {env : Env} {a : StopReward} {w w' : World}
    (h : stopReward R env a w = .ok w') : ∃ c s, Stopped env a w w' c s := by
  simp only [stopReward, bind_eq_ok, require_eq_ok, load_eq_ok, addU64_eq_ok, pure_eq_ok,
    Prod.exists] at h
  obtain ⟨c, hConfig, -, -, s, hState, s₁, hUpdate, _, ⟨-, rfl⟩, s₂, bank, hRefund, rfl⟩ := h
  obtain rfl := updatePool_ok hUpdate
  obtain ⟨hSigned, hFunded, rfl, rfl⟩ := refundRemaining_ok hRefund
  exact ⟨c, s, hConfig, hState, hSigned, hFunded, rfl, rfl, rfl, rfl, rfl, rfl, rfl⟩

end StakingOnSolana
