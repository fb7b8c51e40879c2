import StakingOnSolana.Pool
import StakingOnSolana.Program

/-! # The program refines the pool

`World.Holds` reads a pool off the accounts. An instruction that succeeds with the pool's own
accounts does to it one operation of `Pool`; an instruction with other accounts does nothing.
-/
set_option autoImplicit false

namespace StakingOnSolana

structure PoolAddress where
  config : Pubkey
  state : Pubkey
  stakeVault : Pubkey
  rewardVault : Pubkey
  deriving DecidableEq, Repr

def CreatePool.pool (a : CreatePool) : PoolAddress :=
  ⟨a.poolConfigAccount, a.poolStateAccount, a.poolStakeTokenVault, a.poolRewardTokenVault⟩

def PoolConfig.address (c : PoolConfig) (k : Pubkey) : PoolAddress :=
  ⟨k, c.stateAddr, c.poolStakeTokenVault, c.poolRewardTokenVault⟩

structure World.Holds (w : World) (P : PoolAddress) (p : Pool) : Prop where
  config : w.poolConfig P.config = some p.config
  state : w.poolState P.state = some p.state
  user : ∀ u, (w.userInfo (.userInfoPda P.config u)).getD .zero = p.user u
  stateAddr : p.config.stateAddr = P.state
  stakeVault : p.config.poolStakeTokenVault = P.stakeVault
  rewardVault : p.config.poolRewardTokenVault = P.rewardVault

namespace Instruction

inductive Kind where
  | initializePlatform | createPool | startReward | stopReward
  | stake | unstake | claimReward | compoundReward
  deriving DecidableEq, Repr

def kind : Instruction → Kind
  | initializePlatform .. => .initializePlatform
  | createPool .. => .createPool
  | startReward _ => .startReward
  | stopReward _ => .stopReward
  | stake .. => .stake
  | unstake .. => .unstake
  | claimReward _ => .claimReward
  | compoundReward _ => .compoundReward

end Instruction

def PoolOp.kind : PoolOp → Instruction.Kind
  | .start _ => .startReward
  | .stop _ => .stopReward
  | .stake .. => .stake
  | .unstake .. => .unstake
  | .claim .. => .claimReward
  | .compound .. => .compoundReward

namespace Instruction

/-- The accounts passed are the pool's own, and the user account is the signer's. -/
def Matched (P : PoolAddress) : Instruction → Prop
  | initializePlatform .. | createPool .. => False
  | startReward a => a.poolConfigAccount = P.config ∧ a.poolStateAccount = P.state
  | stopReward a => a.poolConfigAccount = P.config ∧ a.poolStateAccount = P.state ∧
      a.poolRewardTokenVault = P.rewardVault
  | stake a _ => a.poolConfigAccount = P.config ∧ a.poolStateAccount = P.state ∧
      a.poolRewardTokenVault = P.rewardVault
  | unstake a _ => a.poolConfigAccount = P.config ∧ a.poolStateAccount = P.state ∧
      a.userInfo = .userInfoPda P.config a.user
  | claimReward a => a.poolConfigAccount = P.config ∧ a.poolStateAccount = P.state ∧
      a.userInfo = .userInfoPda P.config a.claimer
  | compoundReward a => a.poolConfigAccount = P.config ∧ a.poolStateAccount = P.state ∧
      a.userInfo = .userInfoPda P.config a.user

instance (P : PoolAddress) : (ix : Instruction) → Decidable (ix.Matched P)
  | initializePlatform .. | createPool .. => inferInstanceAs (Decidable False)
  | startReward _ => inferInstanceAs (Decidable (_ ∧ _))
  | stopReward _ | stake .. | unstake .. | claimReward _ | compoundReward _ =>
    inferInstanceAs (Decidable (_ ∧ _ ∧ _))

def Foreign (P : PoolAddress) (ix : Instruction) : Prop :=
  ix.poolConfigAccount ≠ some P.config ∧ ix.poolStateAccount ≠ some P.state ∧
    ∀ u, ix.userInfoAccount ≠ some (.userInfoPda P.config u)

def op (c : PoolConfig) (slot : Nat) : Instruction → Option PoolOp
  | initializePlatform .. | createPool .. => none
  | startReward _ => some (.start slot)
  | stopReward _ => some (.stop slot)
  | stake a stakeAmount => some (.stake slot a.staker (stakeAmount - feeOn c.stakeFee stakeAmount))
  | unstake a unstakeAmount => some (.unstake slot a.user unstakeAmount)
  | claimReward a => some (.claim slot a.claimer)
  | compoundReward a => some (.compound slot a.user)

theorem kind_op {ix : Instruction} {c : PoolConfig} {slot : Nat} {op : PoolOp}
    (h : ix.op c slot = some op) : op.kind = ix.kind := by
  cases ix <;> cases h <;> rfl

def caller : Instruction → Option Pubkey
  | stake a _ => some a.staker
  | unstake a _ => some a.user
  | claimReward a => some a.claimer
  | compoundReward a => some a.user
  | initializePlatform .. | createPool .. | startReward _ | stopReward _ => none

theorem caller_op {ix : Instruction} {c : PoolConfig} {slot : Nat} {op : PoolOp}
    (h : ix.op c slot = some op) : op.caller = ix.caller := by
  cases ix <;> cases h <;> rfl

/-- The user to whom the instruction pays his pending reward. -/
def payee : Instruction → Option Pubkey
  | stake a _ => some a.staker
  | unstake a _ => some a.user
  | claimReward a => some a.claimer
  | initializePlatform .. | createPool .. | startReward _ | stopReward _ | compoundReward _ => none

theorem caller_of_payee {ix : Instruction} {u : Pubkey} (h : ix.payee = some u) :
    ix.caller = some u := by
  cases ix <;> cases h <;> rfl

def changesStake : Instruction → Nat
  | stake .. | unstake .. | compoundReward .. => 1
  | initializePlatform .. | createPool .. | startReward .. | stopReward .. | claimReward .. => 0

theorem changesStake_op {ix : Instruction} {c : PoolConfig} {slot : Nat} {op : PoolOp}
    (h : ix.op c slot = some op) : op.changesStake = ix.changesStake := by
  cases ix <;> cases h <;> rfl

theorem slot_op {ix : Instruction} {c : PoolConfig} {slot : Nat} {op : PoolOp}
    (h : ix.op c slot = some op) : op.slot = slot := by
  cases ix <;> cases h <;> rfl

theorem Matched.poolConfigAccount {P : PoolAddress} {ix : Instruction} (h : ix.Matched P) :
    ix.poolConfigAccount = some P.config := by
  cases ix with
  | initializePlatform a d f => exact h.elim
  | createPool a args => exact h.elim
  | _ => exact congrArg some h.1

end Instruction

variable {R : Runtime} {env : Env} {ix : Instruction} {w w' : World} {P : PoolAddress} {p p' : Pool}
  {u : Pubkey}

namespace World.Holds

theorem config_eq (h : w.Holds P p) {k : Pubkey} {c : PoolConfig} (hk : k = P.config)
    (hc : w.poolConfig k = some c) : c = p.config := by
  subst hk
  exact Option.some.inj (hc.symm.trans h.config)

theorem state_eq (h : w.Holds P p) {k : Pubkey} {s : PoolState} (hk : k = P.state)
    (hs : w.poolState k = some s) : s = p.state := by
  subst hk
  exact Option.some.inj (hs.symm.trans h.state)

theorem user_eq (h : w.Holds P p) {k u : Pubkey} {info : UserInfo}
    (hk : k = .userInfoPda P.config u) (hInfo : w.userInfo k = some info) : info = p.user u := by
  subst hk
  have hUser := h.user u
  rwa [hInfo] at hUser

theorem stakeVault_eq (h : w.Holds P p) {v : Pubkey} (hv : p.config.poolStakeTokenVault = v) :
    v = P.stakeVault := hv.symm.trans h.stakeVault

theorem rewardVault_eq (h : w.Holds P p) {v : Pubkey} (hv : p.config.poolRewardTokenVault = v) :
    v = P.rewardVault := hv.symm.trans h.rewardVault

theorem of_reachable {k : Pubkey} {c : PoolConfig} (h : w.Reachable R)
    (hConfig : w.poolConfig k = some c) : ∃ p, w.Holds (c.address k) p ∧ p.config = c := by
  obtain ⟨s, hs⟩ := h.poolsHaveStates k c hConfig
  exact ⟨⟨c, s, fun u => (w.userInfo (.userInfoPda k u)).getD .zero⟩,
    ⟨hConfig, hs, fun _ => rfl, rfl, rfl, rfl⟩, rfl⟩

theorem unique (h : w.Holds P p) (h' : w.Holds P p') : p' = p := by
  have hConfig := h.config_eq rfl h'.config
  have hState := h.state_eq rfl h'.state
  have hUser : p'.user = p.user := funext fun u => (h'.user u).symm.trans (h.user u)
  exact Pool.ext hConfig hState hUser

theorem replace (h : w.Holds P p) {u : Pubkey} {info : UserInfo}
    (hConfig : w'.poolConfig = w.poolConfig) (hSame : p'.config = p.config)
    (hState : w'.poolState = Function.update w.poolState P.state (some p'.state))
    (hInfo : w'.userInfo = Function.update w.userInfo (.userInfoPda P.config u) (some info))
    (hUser : p'.user = Function.update p.user u info) : w'.Holds P p' := by
  refine ⟨?_, ?_, fun v => ?_, hSame ▸ h.stateAddr, hSame ▸ h.stakeVault, hSame ▸ h.rewardVault⟩
  · rw [hConfig, hSame]
    exact h.config
  · rw [hState, Function.update_self]
  · rw [hInfo, hUser]
    by_cases hv : v = u
    · subst hv
      rw [Function.update_self, Function.update_self]
      rfl
    · have hKey : Pubkey.userInfoPda P.config v ≠ .userInfoPda P.config u := by
        intro hEq
        exact hv (Pubkey.userInfoPda.inj hEq).2
      rw [Function.update_of_ne hKey, Function.update_of_ne hv]
      exact h.user v

theorem outside (h : w.Holds P p) (bank : Bank) (mint : Pubkey → Option Mint) :
    (next R w (.outside bank mint)).Holds P p :=
  ⟨h.config, h.state, h.user, h.stateAddr, h.stakeVault, h.rewardVault⟩

end World.Holds

theorem startReward_matched {a : StartReward} (hHolds : w.Holds P p)
    (hMatched : (Instruction.startReward a).Matched P) (h : startReward env a w = .ok w') :
    Started env a w w' p.config p.state := by
  obtain ⟨c, s, hSpec⟩ := startReward_ok h
  obtain ⟨hConfig, hState⟩ := hMatched
  obtain rfl := hHolds.config_eq hConfig hSpec.loadedConfig
  obtain rfl := hHolds.state_eq hState hSpec.loadedState
  exact hSpec

theorem stopReward_matched {a : StopReward} (hHolds : w.Holds P p)
    (hMatched : (Instruction.stopReward a).Matched P) (h : stopReward R env a w = .ok w') :
    Stopped env a w w' p.config p.state := by
  obtain ⟨c, s, hSpec⟩ := stopReward_ok h
  obtain ⟨hConfig, hState, -⟩ := hMatched
  obtain rfl := hHolds.config_eq hConfig hSpec.loadedConfig
  obtain rfl := hHolds.state_eq hState hSpec.loadedState
  exact hSpec

theorem stake_matched {a : Stake} {stakeAmount : Nat} (hHolds : w.Holds P p)
    (hMatched : (Instruction.stake a stakeAmount).Matched P)
    (h : stake R env a stakeAmount w = .ok w') :
    a.userInfo = .userInfoPda P.config a.staker ∧
      ∃ platform, Staked R env a stakeAmount w w' platform p.config p.state (p.user a.staker) := by
  obtain ⟨platform, c, s, info, hSpec⟩ := stake_ok h
  obtain ⟨hConfig, hState, -⟩ := hMatched
  have hKey : a.userInfo = .userInfoPda P.config a.staker := hConfig ▸ hSpec.derived
  obtain rfl := hHolds.config_eq hConfig hSpec.loadedConfig
  obtain rfl := hHolds.state_eq hState hSpec.loadedState
  obtain rfl : p.user a.staker = info := by
    rw [← hHolds.user, ← hKey]
    exact hSpec.loadedUser
  exact ⟨hKey, platform, hSpec⟩

theorem unstake_matched {a : Unstake} {unstakeAmount : Nat} (hHolds : w.Holds P p)
    (hMatched : (Instruction.unstake a unstakeAmount).Matched P)
    (h : unstake R env a unstakeAmount w = .ok w') :
    ∃ platform, Unstaked env a unstakeAmount w w' platform p.config p.state (p.user a.user) := by
  obtain ⟨platform, c, s, info, hSpec⟩ := unstake_ok h
  obtain ⟨hConfig, hState, hKey⟩ := hMatched
  obtain rfl := hHolds.config_eq hConfig hSpec.loadedConfig
  obtain rfl := hHolds.state_eq hState hSpec.loadedState
  obtain rfl := hHolds.user_eq hKey hSpec.loadedUser
  exact ⟨platform, hSpec⟩

theorem claimReward_matched {a : ClaimReward} (hHolds : w.Holds P p)
    (hMatched : (Instruction.claimReward a).Matched P) (h : claimReward R env a w = .ok w') :
    ∃ platform, Claimed env a w w' platform p.config p.state (p.user a.claimer) := by
  obtain ⟨platform, c, s, info, hSpec⟩ := claimReward_ok h
  obtain ⟨hConfig, hState, hKey⟩ := hMatched
  obtain rfl := hHolds.config_eq hConfig hSpec.loadedConfig
  obtain rfl := hHolds.state_eq hState hSpec.loadedState
  obtain rfl := hHolds.user_eq hKey hSpec.loadedUser
  exact ⟨platform, hSpec⟩

theorem compoundReward_matched {a : CompoundReward} (hHolds : w.Holds P p)
    (hMatched : (Instruction.compoundReward a).Matched P) (h : compoundReward R env a w = .ok w') :
    ∃ platform, CompoundedReward env a w w' platform p.config p.state (p.user a.user) := by
  obtain ⟨platform, c, s, info, hSpec⟩ := compoundReward_ok h
  obtain ⟨hConfig, hState, hKey⟩ := hMatched
  obtain rfl := hHolds.config_eq hConfig hSpec.loadedConfig
  obtain rfl := hHolds.state_eq hState hSpec.loadedState
  obtain rfl := hHolds.user_eq hKey hSpec.loadedUser
  exact ⟨platform, hSpec⟩

theorem owed_le_rewardAmount {c : PoolConfig} {s : PoolState} {info : UserInfo}
    (h : 0 < info.owed c s → info.owed c s ≤ availableRewardTokens c s) :
    info.owed c s ≤ s.rewardAmount := by
  rcases Nat.eq_zero_or_pos (info.owed c s) with hZero | hPos
  · exact hZero ▸ Nat.zero_le _
  · exact (h hPos).trans (availableRewardTokens_le c s)

theorem startReward_holds {a : StartReward} (hHolds : w.Holds P p)
    (hMatched : (Instruction.startReward a).Matched P) (h : startReward env a w = .ok w') :
    p.Enabled (.start env.slot) ∧ w'.Holds P (p.step (.start env.slot)) := by
  have hSpec := startReward_matched hHolds hMatched h
  obtain ⟨hConfig, hState⟩ := hMatched
  refine ⟨hSpec.notStarted, ?_, ?_, fun u => ?_, hHolds.stateAddr, hHolds.stakeVault,
    hHolds.rewardVault⟩
  · rw [hSpec.poolConfig_eq, hConfig, Function.update_self]
    rfl
  · rw [hSpec.poolState_eq, hState, Function.update_self]
    rfl
  · rw [hSpec.frame.1]
    exact hHolds.user u

theorem stopReward_holds {a : StopReward} (hHolds : w.Holds P p)
    (hMatched : (Instruction.stopReward a).Matched P) (h : stopReward R env a w = .ok w') :
    p.Enabled (.stop env.slot) ∧ w'.Holds P (p.step (.stop env.slot)) := by
  have hSpec := stopReward_matched hHolds hMatched h
  obtain ⟨-, hState, -⟩ := hMatched
  refine ⟨trivial, ?_, ?_, fun u => ?_, hHolds.stateAddr, hHolds.stakeVault, hHolds.rewardVault⟩
  · rw [hSpec.frame.1]
    exact hHolds.config
  · rw [hSpec.poolState_eq, hState, Function.update_self]
    rfl
  · rw [hSpec.frame.2.1]
    exact hHolds.user u

theorem stake_holds {a : Stake} {stakeAmount : Nat} (hHolds : w.Holds P p)
    (hMatched : (Instruction.stake a stakeAmount).Matched P)
    (h : stake R env a stakeAmount w = .ok w') :
    p.Enabled (.stake env.slot a.staker (stakeAmount - feeOn p.config.stakeFee stakeAmount)) ∧
      w'.Holds P (p.step (.stake env.slot a.staker
        (stakeAmount - feeOn p.config.stakeFee stakeAmount))) := by
  obtain ⟨hKey, platform, hSpec⟩ := stake_matched hHolds hMatched h
  obtain ⟨-, hState, -⟩ := hMatched
  refine ⟨⟨hSpec.started.1, hSpec.started.2, owed_le_rewardAmount hSpec.available, hSpec.debt_le⟩, ?_⟩
  refine hHolds.replace hSpec.frame.1 rfl ?_ (hKey ▸ hSpec.userInfo_eq) rfl
  rw [hSpec.poolState_eq, hState]
  exact congrArg (fun s => Function.update w.poolState P.state (some s))
    (((p.tick env.slot).pay a.staker).reopen_add_state a.staker _).symm

theorem unstake_holds {a : Unstake} {unstakeAmount : Nat} (hHolds : w.Holds P p)
    (hMatched : (Instruction.unstake a unstakeAmount).Matched P)
    (h : unstake R env a unstakeAmount w = .ok w') :
    p.Enabled (.unstake env.slot a.user unstakeAmount) ∧
      w'.Holds P (p.step (.unstake env.slot a.user unstakeAmount)) := by
  obtain ⟨platform, hSpec⟩ := unstake_matched hHolds hMatched h
  obtain ⟨-, hState, hKey⟩ := hMatched
  refine ⟨⟨hSpec.amount_pos, hSpec.amount_lt, hSpec.total_le,
    owed_le_rewardAmount hSpec.available, fun _ => hSpec.debt_le⟩, ?_⟩
  refine hHolds.replace hSpec.frame.1 rfl ?_ (hKey ▸ hSpec.userInfo_eq) rfl
  rw [hSpec.poolState_eq, hState]
  exact congrArg (fun s => Function.update w.poolState P.state (some s))
    (((p.tick env.slot).pay a.user).reopen_sub_state a.user (Nat.le_of_lt hSpec.amount_lt)
      hSpec.total_le).symm

theorem claimReward_holds {a : ClaimReward} (hHolds : w.Holds P p)
    (hMatched : (Instruction.claimReward a).Matched P) (h : claimReward R env a w = .ok w') :
    p.Enabled (.claim env.slot a.claimer) ∧ w'.Holds P (p.step (.claim env.slot a.claimer)) := by
  obtain ⟨platform, hSpec⟩ := claimReward_matched hHolds hMatched h
  obtain ⟨-, hState, hKey⟩ := hMatched
  refine ⟨⟨owed_le_rewardAmount hSpec.available, hSpec.debt_le⟩, ?_⟩
  have hInfo := hKey ▸ hSpec.userInfo_eq
  have hLedger := hState ▸ hSpec.poolState_eq
  by_cases hNone : (p.user a.claimer).stakedAmount = 0
  · rw [if_pos hNone] at hInfo
    rw [UserInfo.owed_of_unstaked _ _ _ hNone, PoolState.pay_zero] at hLedger
    rw [Pool.step_claim_of_unstaked _ hNone]
    exact hHolds.replace hSpec.frame.1 rfl hLedger hInfo (Function.update_eq_self _ _).symm
  · rw [if_neg hNone] at hInfo
    rw [Pool.step_claim_of_staked _ hNone]
    refine hHolds.replace hSpec.frame.1 rfl ?_ hInfo rfl
    rw [hLedger]
    exact congrArg (fun s => Function.update w.poolState P.state (some s))
      (((p.tick env.slot).pay a.claimer).reopen_same_state a.claimer).symm

theorem compoundReward_holds {a : CompoundReward} (hHolds : w.Holds P p)
    (hMatched : (Instruction.compoundReward a).Matched P) (h : compoundReward R env a w = .ok w') :
    p.Enabled (.compound env.slot a.user) ∧ w'.Holds P (p.step (.compound env.slot a.user)) := by
  obtain ⟨platform, hSpec⟩ := compoundReward_matched hHolds hMatched h
  obtain ⟨-, hState, hKey⟩ := hMatched
  refine ⟨⟨owed_le_rewardAmount hSpec.available, hSpec.debt_le⟩, ?_⟩
  have hInfo := hKey ▸ hSpec.userInfo_eq
  have hLedger := hState ▸ hSpec.poolState_eq
  by_cases hNone : (p.user a.user).stakedAmount = 0
  · rw [if_pos hNone] at hInfo
    rw [UserInfo.owed_of_unstaked _ _ _ hNone, PoolConfig.credited_zero,
      PoolState.compound_zero] at hLedger
    rw [Pool.step_compound_of_unstaked _ hNone]
    exact hHolds.replace hSpec.frame.1 rfl hLedger hInfo (Function.update_eq_self _ _).symm
  · rw [if_neg hNone] at hInfo
    rw [Pool.step_compound_of_staked _ hNone]
    refine hHolds.replace hSpec.frame.1 rfl ?_ hInfo rfl
    rw [hLedger]
    exact congrArg (fun s => Function.update w.poolState P.state (some s))
      (((p.tick env.slot).record a.user).reopen_add_state a.user _).symm

/-- An instruction with the pool's own accounts does one enabled operation to the pool. -/
theorem exec_matched (hHolds : w.Holds P p) (hMatched : ix.Matched P)
    (h : ix.exec R env w = .ok w') :
    ∃ op, ix.op p.config env.slot = some op ∧ p.Enabled op ∧ w'.Holds P (p.step op) := by
  cases ix with
  | initializePlatform a d f => exact hMatched.elim
  | createPool a args => exact hMatched.elim
  | startReward a => exact ⟨_, rfl, startReward_holds hHolds hMatched h⟩
  | stopReward a => exact ⟨_, rfl, stopReward_holds hHolds hMatched h⟩
  | stake a n => exact ⟨_, rfl, stake_holds hHolds hMatched h⟩
  | unstake a n => exact ⟨_, rfl, unstake_holds hHolds hMatched h⟩
  | claimReward a => exact ⟨_, rfl, claimReward_holds hHolds hMatched h⟩
  | compoundReward a => exact ⟨_, rfl, compoundReward_holds hHolds hMatched h⟩

theorem exec_foreign (hHolds : w.Holds P p) (hForeign : ix.Foreign P)
    (h : ix.exec R env w = .ok w') : w'.Holds P p := by
  obtain ⟨hConfig, hState, hUser⟩ := hForeign
  refine ⟨?_, Instruction.exec_poolState h hHolds.state hState, fun u => ?_, hHolds.stateAddr,
    hHolds.stakeVault, hHolds.rewardVault⟩
  · rcases Instruction.exec_poolConfig h hHolds.config with hSame | ⟨a, rfl, hNamed, -⟩
    · exact hSame
    · exact absurd (congrArg some hNamed) hConfig
  · rw [Instruction.exec_userInfo h (hUser u)]
    exact hHolds.user u

/-- The token transfers of a call, with what it pays first. -/
def Instruction.transfers (p : Pool) (slot : Nat) : Instruction → List ((Pubkey × Pubkey) × Nat)
  | .stake a n => (Instruction.stake a n).tokenRoutes.zip
      [(p.tick slot).owed a.staker, n, feeOn p.config.stakeFee n]
  | .unstake a n => (Instruction.unstake a n).tokenRoutes.zip [(p.tick slot).owed a.user,
      feeOn p.config.unstakeFee n, n - feeOn p.config.unstakeFee n]
  | .claimReward a => (Instruction.claimReward a).tokenRoutes.zip [(p.tick slot).owed a.claimer]
  | .initializePlatform .. | .createPool .. | .startReward _ | .stopReward _ | .compoundReward _ => []

theorem exec_transfers (hHolds : w.Holds P p) (hMatched : ix.Matched P) (hPayee : ix.payee = some u)
    (h : ix.exec R env w = .ok w') : Balance.Funded w.bank.amount (ix.transfers p env.slot) ∧
      w'.bank.amount = Balance.moveAll w.bank.amount (ix.transfers p env.slot) := by
  cases ix with
  | stake a n =>
    obtain ⟨hKey, platform, hSpec⟩ := stake_matched hHolds hMatched h
    have hFunded := stake_funded hSpec.loadedConfig hSpec.loadedState h rfl
    rw [hSpec.loadedUser] at hFunded
    exact ⟨⟨hSpec.funded, hFunded.1, hFunded.2, trivial⟩, congrArg Bank.amount hSpec.bank_eq⟩
  | unstake a n =>
    obtain ⟨platform, hSpec⟩ := unstake_matched hHolds hMatched h
    exact ⟨⟨hSpec.funded, hSpec.feeFunded, hSpec.returnFunded, trivial⟩,
      congrArg Bank.amount hSpec.bank_eq⟩
  | claimReward a =>
    obtain ⟨platform, hSpec⟩ := claimReward_matched hHolds hMatched h
    exact ⟨⟨hSpec.funded, trivial⟩, congrArg Bank.amount hSpec.bank_eq⟩
  | _ => cases hPayee

theorem exec_flow (hHolds : w.Holds P p) (hMatched : ix.Matched P) (hPayee : ix.payee = some u)
    (h : ix.exec R env w = .ok w') (k : Pubkey) :
    (w'.bank.amount k : Int) = w.bank.amount k + Balance.flow (ix.transfers p env.slot) k := by
  obtain ⟨hFunded, hAmount⟩ := exec_transfers hHolds hMatched hPayee h
  rw [hAmount]
  exact Balance.moveAll_eq_flow _ hFunded k

/-- An action of a run on the pool: one of the listed instructions with the pool's own accounts,
an instruction that passes none of them, or a change outside of the program. -/
def Action.OnPool (P : PoolAddress) (kinds : List Instruction.Kind) : Action → Prop
  | .call tx => (tx.instruction.Matched P ∧ tx.instruction.kind ∈ kinds) ∨ tx.instruction.Foreign P
  | .outside .. => True

theorem onPool_of_matched {kinds : List Instruction.Kind} {txs : List Tx}
    (h : ∀ tx ∈ txs, tx.instruction.Matched P ∧ tx.instruction.kind ∈ kinds) :
    ∀ a ∈ txs.map Action.call, a.OnPool P kinds := by
  intro a ha
  obtain ⟨tx, hTx, rfl⟩ := List.mem_map.mp ha
  exact Or.inl (h tx hTx)

/-- The successful calls on the pool that settle with a user under a new stake. -/
def stakeChanges (R : Runtime) (P : PoolAddress) (w : World) : Action → Nat
  | .call tx =>
    match tx.instruction.exec R tx.env w with
    | .ok _ => if tx.instruction.poolConfigAccount = some P.config then tx.instruction.changesStake else 0
    | .error _ => 0
  | .outside .. => 0

theorem stakeChanges_of_ok {tx : Tx} (h : tx.instruction.exec R tx.env w = .ok w') :
    stakeChanges R P w (.call tx) =
      if tx.instruction.poolConfigAccount = some P.config then tx.instruction.changesStake else 0 := by
  simp only [stakeChanges, h]

theorem stakeChanges_of_not_succeeds {tx : Tx} (h : ¬tx.Succeeds R w) :
    stakeChanges R P w (.call tx) = 0 := by
  simp only [stakeChanges]
  split
  · rename_i w' hOk
    exact absurd ⟨w', hOk⟩ h
  · rfl

def Action.Passes (R : Runtime) (P : PoolAddress) (w : World) : Action → Prop
  | .call tx => ¬tx.Succeeds R w ∨ tx.instruction.Foreign P
  | .outside .. => True

theorem Action.Passes.stakeChanges {a : Action} (h : a.Passes R P w) : stakeChanges R P w a = 0 := by
  cases a with
  | outside bank mint => rfl
  | call tx =>
    by_cases hSucceeds : tx.Succeeds R w
    · obtain ⟨w', hOk⟩ := hSucceeds
      rcases h with hFails | hForeign
      · exact absurd ⟨w', hOk⟩ hFails
      · rw [stakeChanges_of_ok hOk, if_neg hForeign.1]
    · exact stakeChanges_of_not_succeeds hSucceeds

def OnSuccess (R : Runtime) (P : PoolAddress) (F : World → Tx → Prop) (w : World) : Action → Prop
  | .call tx => tx.instruction.Matched P → tx.Succeeds R w → F w tx
  | .outside .. => True

theorem onSuccess_of_passes {F : World → Tx → Prop} {a : Action} (h : a.Passes R P w) :
    OnSuccess R P F w a := by
  cases a with
  | outside bank mint => trivial
  | call tx =>
    intro hMatched hSucceeds
    rcases h with hFails | hForeign
    · exact absurd hSucceeds hFails
    · exact absurd hMatched.poolConfigAccount hForeign.1

theorem onSuccess_call_iff {F : World → Tx → Prop} {tx : Tx} (hMatched : tx.instruction.Matched P)
    (hSucceeds : tx.Succeeds R w) : OnSuccess R P F w (.call tx) ↔ F w tx :=
  ⟨fun h => h hMatched hSucceeds, fun h _ _ => h⟩

/-- The step of a run either leaves the pool as it is or does one operation to it. -/
theorem next_holds {kinds : List Instruction.Kind} {a : Action} (hHolds : w.Holds P p)
    (hOn : a.OnPool P kinds) :
    ((next R w a).Holds P p ∧ a.Passes R P w) ∨
      ∃ tx op, a = .call tx ∧ tx.instruction.Matched P ∧ tx.instruction.kind ∈ kinds ∧
        tx.instruction.exec R tx.env w = .ok (next R w a) ∧
        tx.instruction.op p.config tx.env.slot = some op ∧ p.Enabled op ∧
        (next R w a).Holds P (p.step op) := by
  cases a with
  | outside bank mint =>
    exact Or.inl ⟨hHolds.outside bank mint, trivial⟩
  | call tx =>
    rcases next_call R w tx with ⟨hFails, hSame⟩ | ⟨w', hOk, hNext⟩
    · rw [hSame]
      exact Or.inl ⟨hHolds, Or.inl hFails⟩
    · rw [hNext]
      rcases hOn with ⟨hMatched, hKind⟩ | hForeign
      · obtain ⟨op, hOp, hEnabled, hAfter⟩ := exec_matched hHolds hMatched hOk
        exact Or.inr ⟨tx, op, rfl, hMatched, hKind, hOk, hOp, hEnabled, hAfter⟩
      · exact Or.inl ⟨exec_foreign hHolds hForeign hOk, Or.inr hForeign⟩

theorem run_holds_tally {I : Nat → Pool → Prop} {kinds : List Instruction.Kind} {n : Nat}
    {actions : List Action}
    (hStep : ∀ n p op, op.kind ∈ kinds → I n p → p.Enabled op → I (n + op.changesStake) (p.step op))
    (hHolds : w.Holds P p) (hI : I n p) (hRun : ∀ a ∈ actions, a.OnPool P kinds) :
    ∃ p', (Run.run (next R) w actions).Holds P p' ∧
      I (n + Run.tally (next R) (stakeChanges R P) w actions) p' := by
  refine Run.run_invariant_tally (I := fun n (w : World) => ∃ p, w.Holds P p ∧ I n p)
    (Q := fun _ (a : Action) => a.OnPool P kinds) ?_ ⟨p, hHolds, hI⟩
    (Run.along_of_forall fun a ha _ => hRun a ha)
  rintro n w a ⟨p, hHolds, hI⟩ hOn
  rcases next_holds (R := R) hHolds hOn with
    ⟨hSame, hPasses⟩ | ⟨tx, op, rfl, hMatched, hKind, hOk, hOp, hEnabled, hAfter⟩
  · rw [hPasses.stakeChanges]
    exact ⟨p, hSame, hI⟩
  · rw [stakeChanges_of_ok hOk, if_pos hMatched.poolConfigAccount,
      ← Instruction.changesStake_op hOp]
    exact ⟨p.step op, hAfter, hStep n p op (Instruction.kind_op hOp ▸ hKind) hI hEnabled⟩

theorem run_holds {I : Pool → Prop} {kinds : List Instruction.Kind} {actions : List Action}
    (hStep : ∀ p op, op.kind ∈ kinds → I p → p.Enabled op → I (p.step op))
    (hHolds : w.Holds P p) (hI : I p) (hRun : ∀ a ∈ actions, a.OnPool P kinds) :
    ∃ p', (Run.run (next R) w actions).Holds P p' ∧ I p' :=
  run_holds_tally (I := fun _ p => I p) (fun _ => hStep) (n := 0) hHolds hI hRun

def Pool.fresh (config : PoolConfig) (funding : Nat) : Pool where
  config := config
  state := { PoolState.zero with rewardAmount := funding }
  user _ := .zero

theorem Pool.fresh_sound (c : PoolConfig) (funding : Nat) : (Pool.fresh c funding).Sound 0 := by
  refine ⟨∅, fun i _ => rfl, rfl, fun i => Nat.zero_le _, ?_⟩
  simp [Pool.book, Pool.fresh, PoolState.zero]

theorem Pool.fresh_scheduled {c : PoolConfig} (h : c.startSlot = 0) (funding : Nat) :
    (Pool.fresh c funding).Scheduled := by
  constructor
  · intro _
    exact ⟨rfl, rfl⟩
  all_goals
    intro hRun
    exact absurd h (Nat.ne_of_gt hRun)

theorem Pool.fresh_backed {c : PoolConfig} (h : c.startSlot = 0) (funding : Nat) :
    (Pool.fresh c funding).Backed c funding :=
  ⟨⟨c.startSlot, c.endSlot, rfl⟩, Pool.fresh_scheduled h funding, Nat.le_refl _⟩

/-- No user account of a new pool exists: its address was vacant until then. -/
theorem createPool_holds {a : CreatePool} {args : CreatePoolArgs} (hReach : w.Reachable R)
    (h : createPool R env a args w = .ok w') :
    ∃ stakeMint rewardMint, w.mint a.rewardMint = some rewardMint ∧
      w'.Holds a.pool (.fresh (a.poolConfig args stakeMint rewardMint) args.initialFunding) := by
  obtain ⟨stakeMint, rewardMint, hSpec⟩ := createPool_ok h
  refine ⟨stakeMint, rewardMint, hSpec.loadedMints.2, ?_, ?_, fun u => ?_, rfl, rfl, rfl⟩
  · rw [hSpec.poolConfig_eq]
    exact Function.update_self _ _ _
  · rw [hSpec.poolState_eq]
    exact Function.update_self _ _ _
  · rw [hSpec.frame.1]
    cases hInfo : w.userInfo (.userInfoPda a.pool.config u) with
    | none => rfl
    | some info =>
      obtain ⟨poolConfig, staker, c, hKey, hc⟩ := hReach.usersHavePools _ _ hInfo
      have hPool : a.poolConfigAccount = poolConfig := (Pubkey.userInfoPda.inj hKey).1
      rw [← hPool, hSpec.vacantConfig.1] at hc
      cases hc

end StakingOnSolana
