import Mathlib.Data.List.Induction
import StakingOnSolana.Granularity

/-! # Where the fees go

The accounts that receive the fees are passed by the caller, and so is the platform account that
the performance fee is read from. Nothing ties the first to `pool_config.owner`, the treasury to
the platform, or the platform to the one that its treasury set up.
-/
set_option autoImplicit false

namespace StakingOnSolana

open Checked

variable {R : Runtime} {env : Env} {ix : Instruction} {w w' g : World} {c : PoolConfig}

/-- The caller, and the two accounts that his performance fee depends on. -/
structure FeeAccounts where
  caller : Pubkey
  treasury : Pubkey
  platform : Pubkey
  deriving DecidableEq, Repr

namespace Instruction

def feeAccounts : Instruction → Option FeeAccounts
  | stake a _ => some ⟨a.staker, a.treasury, a.platform⟩
  | unstake a _ => some ⟨a.user, a.treasury, a.platform⟩
  | claimReward a => some ⟨a.claimer, a.treasury, a.platform⟩
  | compoundReward a => some ⟨a.user, a.treasury, a.platform⟩
  | initializePlatform .. | createPool .. | startReward _ | stopReward _ => none

def rented (R : Runtime) (w : World) : Instruction → Pubkey → Nat
  | stake a _ => (w.bank.moveLamports a.staker a.userInfo (a.rentDue R w)).lamports
  | _ => w.bank.lamports

end Instruction

/-- The swap as a program that does nothing, so that what is left is what the call moves itself. -/
def Env.withoutSwap (env : Env) : Env := { env with ammProgram := fun _ bank => some bank }

theorem CompoundReward.swapPending_withoutSwap {a : CompoundReward} {loaded pending credited : Nat}
    {bank bank' : Bank} (h : a.swapPending env c loaded pending bank = .ok (credited, bank')) :
    a.swapPending env.withoutSwap c loaded pending bank = .ok (credited, bank) := by
  unfold swapPending at h ⊢
  split at h
  · rename_i hMints
    rw [if_pos hMints]
    simp only [bind_eq_ok, load_eq_ok, pure_eq_ok, Prod.mk.injEq] at h ⊢
    obtain ⟨-, -, diff, hDiff, rfl, -⟩ := h
    exact ⟨bank, rfl, diff, hDiff, rfl, rfl⟩
  · rename_i hMints
    rw [if_neg hMints]
    rw [pure_eq_ok, Prod.mk.injEq] at h
    rw [pure_eq_ok, h.1]

theorem CompoundReward.compoundPending_withoutSwap {a : CompoundReward} {info : UserInfo}
    {loaded pending : Nat} {s : PoolState} {bank : Bank} {out : Compounded}
    (h : a.compoundPending env c info loaded pending s bank = .ok out) :
    a.compoundPending env.withoutSwap c info loaded pending s bank = .ok { out with bank } := by
  unfold compoundPending at h ⊢
  split at h
  · rename_i hPos
    rw [if_pos hPos]
    simp only [bind_eq_ok, pure_eq_ok, Prod.exists] at h ⊢
    obtain ⟨_, hAvailable, paidRewards, hPaid, credited, bank', hSwap, totalStaked, hTotal, stakedAmount,
      hStaked, rfl⟩ := h
    exact ⟨_, hAvailable, paidRewards, hPaid, credited, bank, swapPending_withoutSwap hSwap,
      totalStaked, hTotal, stakedAmount, hStaked, rfl⟩
  · rename_i hZero
    rw [if_neg hZero]
    rw [pure_eq_ok] at h ⊢
    rw [← h]

theorem compoundReward_withoutSwap {a : CompoundReward} (h : compoundReward R env a w = .ok w') :
    ∃ w'', compoundReward R env.withoutSwap a w = .ok w'' := by
  obtain ⟨slot, signers, ammProgram⟩ := env
  simp only [compoundReward, bind_eq_ok] at h
  obtain ⟨_, hUser, _, hAdmin, c, hConfig, _, hStakeVault, _, hRewardVault, s, hState, info, hInfo,
    platform, hPlatform, _, hAccounts, bank, hFee, s', hUpdate, h⟩ := h
  rw [require_eq_ok] at hUser hAdmin
  simp only [compoundReward, Env.withoutSwap, require, hUser, hAdmin, if_true, hConfig, hState, hInfo,
    hPlatform, hFee, hUpdate, bind, Except.bind]
  simp only [require] at hStakeVault hRewardVault hAccounts
  simp only [hStakeVault, hRewardVault, hAccounts]
  split at h
  · rename_i hNone
    rw [if_pos hNone]
    exact ⟨_, rfl⟩
  · rename_i hStaked
    rw [if_neg hStaked]
    simp only [bind_eq_ok] at h
    obtain ⟨pf, hPrecision, scaled, hScaled, pending, hPending, out, hOut, rescaled, hRescaled, -⟩ := h
    have hOut' := CompoundReward.compoundPending_withoutSwap hOut
    simp only [Env.withoutSwap] at hOut'
    simp only [hPrecision, hScaled, hPending, hOut', hRescaled]
    exact ⟨_, rfl⟩

theorem exec_withoutSwap {f : FeeAccounts} (h : ix.exec R env w = .ok w')
    (hAccounts : ix.feeAccounts = some f) :
    ∃ platform w'', w.platform f.platform = some platform ∧ ix.exec R env.withoutSwap w = .ok w'' ∧
      platform.performanceFee ≤ ix.rented R w f.caller ∧
      w''.bank.lamports = Balance.move (ix.rented R w) f.caller f.treasury platform.performanceFee := by
  cases ix with
  | stake a n =>
    cases hAccounts
    obtain ⟨platform, c, s, info, hSpec⟩ := stake_ok h
    exact ⟨platform, w', hSpec.loadedPlatform, h, Nat.le_of_lt hSpec.feeBalance,
      congrArg Bank.lamports hSpec.bank_eq⟩
  | unstake a n =>
    cases hAccounts
    obtain ⟨platform, c, s, info, hSpec⟩ := unstake_ok h
    exact ⟨platform, w', hSpec.loadedPlatform, h, Nat.le_of_lt hSpec.feeBalance,
      congrArg Bank.lamports hSpec.bank_eq⟩
  | claimReward a =>
    cases hAccounts
    obtain ⟨platform, c, s, info, hSpec⟩ := claimReward_ok h
    exact ⟨platform, w', hSpec.loadedPlatform, h, Nat.le_of_lt hSpec.feeBalance,
      congrArg Bank.lamports hSpec.bank_eq⟩
  | compoundReward a =>
    cases hAccounts
    obtain ⟨w'', hIdle⟩ := compoundReward_withoutSwap h
    obtain ⟨platform, c, s, info, hSpec⟩ := compoundReward_ok hIdle
    refine ⟨platform, w'', hSpec.loadedPlatform, hIdle, Nat.le_of_lt hSpec.feeBalance, ?_⟩
    have hSwapped := hSpec.bank_eq
    unfold CompoundReward.Swapped at hSwapped
    split at hSwapped
    · exact congrArg Bank.lamports (Option.some.inj hSwapped).symm
    · exact congrArg Bank.lamports hSwapped
  | _ => cases hAccounts

def Bank.ownerOf (bank : Bank) (k : Pubkey) : Option Pubkey :=
  (bank.tokenAccount k).map TokenAccount.owner

namespace Instruction

def fee (c : PoolConfig) : Instruction → Option (Nat × Pubkey)
  | stake a n => some (feeOn c.stakeFee n, a.creatorStakeTokenVault)
  | unstake a n => some (feeOn c.unstakeFee n, a.creatorStakeTokenVault)
  | _ => none

def withFeeTo (o : Pubkey) : Instruction → Instruction
  | stake a n => stake { a with creatorStakeTokenVault := o } n
  | unstake a n => unstake { a with creatorStakeTokenVault := o } n
  | ix => ix

def feeTransfers (c : PoolConfig) (paid : Nat) : Instruction → List ((Pubkey × Pubkey) × Nat)
  | stake a n => (stake a n).tokenRoutes.zip [paid, n, feeOn c.stakeFee n]
  | unstake a n => (unstake a n).tokenRoutes.zip
      [paid, feeOn c.unstakeFee n, n - feeOn c.unstakeFee n]
  | _ => []

def paid (ix : Instruction) (w w' : World) : Nat :=
  match ix.caller with
  | some u => rewardsPaid u w'.events - rewardsPaid u w.events
  | none => 0

theorem paid_eq {u : Pubkey} {pending : Nat} {others : List Event} (hCaller : ix.caller = some u)
    (hEvents : w'.events = w.events ++ claimEvents u pending ++ others)
    (hOthers : rewardsPaid u others = 0) : ix.paid w w' = pending := by
  unfold paid
  rw [hCaller, hEvents]
  simp only [rewardsPaid_append, rewardsPaid_claimEvents, hOthers, if_true]
  omega

theorem exec_feeTransfers {amount : Nat} {o : Pubkey} (h : ix.exec R env w = .ok w')
    (hConfig : ix.poolConfigAccount.bind w.poolConfig = some c) (hFee : ix.fee c = some (amount, o)) :
    Balance.Funded w.bank.amount (ix.feeTransfers c (ix.paid w w')) ∧
      w'.bank.amount = Balance.moveAll w.bank.amount (ix.feeTransfers c (ix.paid w w')) := by
  cases ix with
  | stake a n =>
    obtain ⟨platform, c', s, info, hSpec⟩ := stake_ok h
    cases hConfig.symm.trans hSpec.loadedConfig
    have hFunded := stake_funded hSpec.loadedConfig hSpec.loadedState h rfl
    rw [hSpec.loadedUser] at hFunded
    have hPaid : (stake a n).paid w w' = info.owed c (s.accrue c env.slot) :=
      paid_eq rfl hSpec.events_eq rfl
    rw [hPaid]
    exact ⟨⟨hSpec.funded, hFunded.1, hFunded.2, trivial⟩, congrArg Bank.amount hSpec.bank_eq⟩
  | unstake a n =>
    obtain ⟨platform, c', s, info, hSpec⟩ := unstake_ok h
    cases hConfig.symm.trans hSpec.loadedConfig
    have hEvents := hSpec.events_eq.trans (List.append_nil _).symm
    have hPaid : (unstake a n).paid w w' = info.owed c (s.accrue c env.slot) := paid_eq rfl hEvents rfl
    rw [hPaid]
    exact ⟨⟨hSpec.funded, hSpec.feeFunded, hSpec.returnFunded, trivial⟩,
      congrArg Bank.amount hSpec.bank_eq⟩
  | _ => cases hFee

/-- Of the stake tokens that a call moves, the fee goes to some token account of the pool's owner,
whatever account was passed for it. -/
def FeeReachesOwner (c : PoolConfig) (w w' : World) (ix : Instruction) : Prop :=
  ∀ amount passed, ix.fee c = some (amount, passed) →
    ∃ o, (0 < amount → w.bank.ownerOf o = some c.owner) ∧
      ∀ k, (w'.bank.amount k : Int) = w.bank.amount k +
        Balance.flow ((ix.withFeeTo o).feeTransfers c (ix.paid w w')) k

def NamesOwner (c : PoolConfig) (w : World) (ix : Instruction) : Prop :=
  ∀ amount passed, ix.fee c = some (amount, passed) → 0 < amount →
    w.bank.ownerOf passed = some c.owner

theorem flow_feeTransfers_iff {amount : Nat} {passed : Pubkey} (hFee : ix.fee c = some (amount, passed))
    (o : Pubkey) (pending : Nat) : (∀ k, Balance.flow (ix.feeTransfers c pending) k =
      Balance.flow ((ix.withFeeTo o).feeTransfers c pending) k) ↔ amount = 0 ∨ passed = o := by
  cases ix with
  | stake a n =>
    cases hFee
    rw [← Balance.flow_redirect_iff a.poolStakeTokenVault]
    simp only [feeTransfers, withFeeTo, tokenRoutes, List.zip_cons_cons, List.zip_nil_left,
      Balance.flow_cons, Balance.flow_nil, Int.add_zero, Int.add_right_inj]
  | unstake a n =>
    cases hFee
    rw [← Balance.flow_redirect_iff a.poolStakeTokenVault]
    simp only [feeTransfers, withFeeTo, tokenRoutes, List.zip_cons_cons, List.zip_nil_left,
      Balance.flow_cons, Balance.flow_nil, Int.add_zero, Int.add_right_inj, Int.add_left_inj]
  | _ => cases hFee

theorem feeReachesOwner_iff (h : ix.exec R env w = .ok w')
    (hConfig : ix.poolConfigAccount.bind w.poolConfig = some c) :
    ix.FeeReachesOwner c w w' ↔ ix.NamesOwner c w := by
  unfold FeeReachesOwner NamesOwner
  constructor
  · intro hReaches amount passed hFee hPos
    obtain ⟨hFunded, hAmount⟩ := exec_feeTransfers h hConfig hFee
    obtain ⟨o, hOwner, hMoved⟩ := hReaches amount passed hFee
    have hSame : passed = o := by
      refine ((flow_feeTransfers_iff hFee o (ix.paid w w')).mp fun k => ?_).resolve_left (Nat.ne_of_gt hPos)
      have hFlow := Balance.moveAll_eq_flow _ hFunded k
      rw [← hAmount, hMoved k] at hFlow
      exact (Int.add_left_cancel hFlow).symm
    rw [hSame]
    exact hOwner hPos
  · intro hNames amount passed hFee
    obtain ⟨hFunded, hAmount⟩ := exec_feeTransfers h hConfig hFee
    refine ⟨passed, hNames amount passed hFee, fun k => ?_⟩
    rw [← (flow_feeTransfers_iff hFee passed (ix.paid w w')).mpr (Or.inr rfl) k, hAmount]
    exact Balance.moveAll_eq_flow _ hFunded k

/-- The fee is at most a fifth of the amount. What is left of a stake is added to the position;
what is left of an unstake is the last of its transfers. -/
def FeeSplit (c : PoolConfig) (w w' : World) : Instruction → Prop
  | stake a n => feeOn c.stakeFee n ≤ n / 5 ∧ ∃ info, w'.userInfo a.userInfo = some info ∧
      info.stakedAmount + feeOn c.stakeFee n = ((w.userInfo a.userInfo).getD .zero).stakedAmount + n
  | unstake a n => feeOn c.unstakeFee n ≤ n / 5 ∧ ∃ info info', w.userInfo a.userInfo = some info ∧
      w'.userInfo a.userInfo = some info' ∧ info'.stakedAmount + n = info.stakedAmount
  | _ => True

end Instruction

def World.FeesChecked (w : World) : Prop :=
  ∀ k c, w.poolConfig k = some c → c.stakeFee ≤ maxFee ∧ c.unstakeFee ≤ maxFee

theorem World.FeesChecked.exec (h : w.FeesChecked) (hOk : ix.exec R env w = .ok w') : w'.FeesChecked := by
  intro k c hConfig
  rcases Instruction.exec_poolConfig_eq hOk with hSame | ⟨a, args, _, _, -, hSpec⟩ | ⟨a, c', s, -, hSpec⟩
  · exact h k c (hSame ▸ hConfig)
  · rw [hSpec.poolConfig_eq] at hConfig
    rcases update_eq_some hConfig with ⟨-, rfl⟩ | hOld
    · exact hSpec.fees
    · exact h k c hOld
  · rw [hSpec.poolConfig_eq] at hConfig
    rcases update_eq_some hConfig with ⟨-, rfl⟩ | hOld
    · exact h _ c' hSpec.loadedConfig
    · exact h k c hOld

theorem World.Reachable.feesChecked (h : w.Reachable R) : w.FeesChecked := by
  apply h.induction
  · intro g hStart k c hConfig
    cases (hStart.poolConfig k).symm.trans hConfig
  · intro w a hChecked
    exact next_of_exec (I := World.FeesChecked) hChecked (fun _ _ => hChecked) hChecked.exec a

theorem feeSplit_of_exec (hReach : w.Reachable R) (h : ix.exec R env w = .ok w')
    (hConfig : ix.poolConfigAccount.bind w.poolConfig = some c) : ix.FeeSplit c w w' := by
  cases ix with
  | stake a n =>
    obtain ⟨platform, c', s, info, hSpec⟩ := stake_ok h
    cases hConfig.symm.trans hSpec.loadedConfig
    have hFee := hSpec.fee_le
    refine ⟨feeOn_le_fifth (hReach.feesChecked _ _ hConfig).1 n, _,
      hSpec.userInfo_eq ▸ Function.update_self _ _ _, ?_⟩
    rw [hSpec.loadedUser]
    change info.stakedAmount + (n - feeOn c.stakeFee n) + feeOn c.stakeFee n = info.stakedAmount + n
    omega
  | unstake a n =>
    obtain ⟨platform, c', s, info, hSpec⟩ := unstake_ok h
    cases hConfig.symm.trans hSpec.loadedConfig
    refine ⟨feeOn_le_fifth (hReach.feesChecked _ _ hConfig).2 n, info, _, hSpec.loadedUser,
      hSpec.userInfo_eq ▸ Function.update_self _ _ _, ?_⟩
    exact Nat.sub_add_cancel (Nat.le_of_lt hSpec.amount_lt)
  | _ => trivial

/-- What the call itself does with lamports is to pay the fee of `official` to its treasury. -/
def PaysPlatform (R : Runtime) (env : Env) (w : World) (ix : Instruction) (caller : Pubkey)
    (official : PlatformInfo) : Prop :=
  ∃ w', ix.exec R env.withoutSwap w = .ok w' ∧
    ∀ k, (w'.bank.lamports k : Int) = ix.rented R w k +
      Balance.flow [((caller, official.treasury), official.performanceFee)] k

/-- The platform and the treasury that were passed take the same from the caller as `official`
would, or neither takes anything from him. -/
def FeeAccounts.SamePayment (f : FeeAccounts) (w : World) (official : PlatformInfo) : Prop :=
  ∀ platform, w.platform f.platform = some platform →
    platform.performanceFee = official.performanceFee ∧ f.treasury = official.treasury ∨
      (platform.performanceFee = 0 ∨ f.treasury = f.caller) ∧
        (official.performanceFee = 0 ∨ official.treasury = f.caller)

theorem paysPlatform_iff {f : FeeAccounts} (h : ix.exec R env w = .ok w')
    (hAccounts : ix.feeAccounts = some f) (official : PlatformInfo) :
    PaysPlatform R env w ix f.caller official ↔ f.SamePayment w official := by
  obtain ⟨platform, w'', hPlatform, hIdle, hFunded, hLamports⟩ := exec_withoutSwap h hAccounts
  have hPaid := Balance.move_eq_of_funded (d := f.treasury) (ix.rented R w) _ hFunded
  have hSame := Balance.flow_eq_iff f.caller f.treasury official.treasury platform.performanceFee
    official.performanceFee
  unfold PaysPlatform FeeAccounts.SamePayment
  simp only [hPlatform, Option.some.injEq, forall_eq', ← hSame, hIdle, Except.ok.injEq, exists_eq_left',
    hLamports, hPaid, Balance.flow_cons, Balance.flow_nil, Int.add_zero, Int.add_right_inj]

/-- The platform account `k` was set by its treasury and an admin, who both signed. -/
def SetByTreasury (R : Runtime) (g : World) (actions : List Action) (k : Pubkey) (info : PlatformInfo) :
    Prop :=
  ∃ before tx after admin, actions = before ++ .call tx :: after ∧
    tx.instruction = .initializePlatform ⟨k, admin, info.treasury⟩ info.deployFee info.performanceFee ∧
    tx.Succeeds R (Run.run (next R) g before) ∧ admin ∈ tx.env.signers ∧ info.treasury ∈ tx.env.signers

theorem setByTreasury_of_run {actions : List Action} {k : Pubkey} {info : PlatformInfo}
    (hStart : g.Genesis) (h : (Run.run (next R) g actions).platform k = some info) :
    SetByTreasury R g actions k info := by
  induction actions using List.reverseRecOn with
  | nil => cases (hStart.platform k).symm.trans h
  | append_singleton before a ih =>
    -- Either the last action wrote the account, or it was so before.
    have hBefore : (Run.run (next R) g before).platform k = some info →
        SetByTreasury R g (before ++ [a]) k info := by
      intro hOld
      obtain ⟨first, tx, last, admin, rfl, hSet⟩ := ih hOld
      exact ⟨first, tx, last ++ [a], admin, by simp, hSet⟩
    rw [Run.run_append] at h
    cases a with
    | outside bank mint => exact hBefore h
    | call tx =>
      rcases next_call R (Run.run (next R) g before) tx with ⟨-, hSame⟩ | ⟨w', hOk, hNext⟩
      · exact hBefore (hSame ▸ h)
      · change (next R (Run.run (next R) g before) (.call tx)).platform k = some info at h
        rw [hNext] at h
        rcases Instruction.exec_platform hOk with hSame | ⟨a, d, f, hInit, hAdmin, hTreasury, -, hUpdate⟩
        · exact hBefore (hSame ▸ h)
        · rw [hUpdate] at h
          rcases update_eq_some h with ⟨rfl, rfl⟩ | hOld
          · exact ⟨before, tx, [], a.admin, rfl, hInit, ⟨w', hOk⟩, hAdmin, hTreasury⟩
          · exact hBefore hOld

/-- The fees of a call after a run reach their owners, where `official` is what the platform account
`k` says. -/
structure FeesReach (R : Runtime) (env : Env) (g : World) (actions : List Action) (ix : Instruction)
    (w' : World) (c : PoolConfig) (caller k : Pubkey) (official : PlatformInfo) : Prop where
  split : ix.FeeSplit c (Run.run (next R) g actions) w'
  owner : ix.FeeReachesOwner c (Run.run (next R) g actions) w'
  platform : SetByTreasury R g actions k official
  payment : PaysPlatform R env (Run.run (next R) g actions) ix caller official

/-- Whether the fees reach their owners is left to the accounts that the caller passes. -/
theorem feesReach_iff_namesOwner {actions : List Action} {f : FeeAccounts} {k : Pubkey}
    {official : PlatformInfo} (hStart : g.Genesis)
    (hPlatform : (Run.run (next R) g actions).platform k = some official)
    (hAccounts : ix.feeAccounts = some f)
    (hConfig : ix.poolConfigAccount.bind (Run.run (next R) g actions).poolConfig = some c)
    (hOk : ix.exec R env (Run.run (next R) g actions) = .ok w') :
    FeesReach R env g actions ix w' c f.caller k official ↔
      ix.NamesOwner c (Run.run (next R) g actions) ∧ f.SamePayment (Run.run (next R) g actions) official := by
  have hOwner := Instruction.feeReachesOwner_iff hOk hConfig
  have hPayment := paysPlatform_iff hOk hAccounts official
  constructor
  · intro hReach
    exact ⟨hOwner.mp hReach.owner, hPayment.mp hReach.payment⟩
  · rintro ⟨hNames, hSame⟩
    constructor
    · exact feeSplit_of_exec ⟨g, actions, hStart, rfl⟩ hOk hConfig
    · exact hOwner.mpr hNames
    · exact setByTreasury_of_run hStart hPlatform
    · exact hPayment.mpr hSame

namespace Localnet

def feeArgs : CreatePoolArgs := ⟨2000, 0, 216000, 1, 1⟩

def feePool : World := run (genesis coin 9) [open_, create coin 0 feeArgs, start 0 0]

def feeConfig : PoolConfig :=
  { (createAccounts coin 0).poolConfig feeArgs ⟨9⟩ ⟨9⟩ with startSlot := 10, endSlot := 216010 }

def selfPaid : Tx := ⟨Localnet.env 11 [admin, user 0], .stake ⟨userInfo 0 0, user 0, admin, treasury,
  platform, config 0, state 0, userStake 0, userReward 0, stakeVault 0, rewardVault 0, userStake 0,
  creatorStake 0⟩ 10⟩

theorem selfPaid_config :
    selfPaid.instruction.poolConfigAccount.bind feePool.poolConfig = some feeConfig := rfl

theorem selfPaid_exec : selfPaid.instruction.exec .reference selfPaid.env feePool =
    .ok (next .reference feePool (.call selfPaid)) :=
  exec_of_isOk rfl

end Localnet

open Localnet in
theorem feesReach_iff_namesOwner_selfPaid :
    FeesReach .reference selfPaid.env (genesis coin 9)
        ([open_, create coin 0 feeArgs, start 0 0].map .call) selfPaid.instruction
        (next .reference feePool (.call selfPaid)) feeConfig (user 0) platform ⟨0, 0, treasury⟩ ↔
      selfPaid.instruction.NamesOwner feeConfig feePool ∧
        (FeeAccounts.mk (user 0) treasury platform).SamePayment feePool ⟨0, 0, treasury⟩ :=
  have hPlatform : feePool.platform platform = some ⟨0, 0, treasury⟩ := rfl
  have hAccounts : selfPaid.instruction.feeAccounts = some ⟨user 0, treasury, platform⟩ := rfl
  feesReach_iff_namesOwner (genesis_genesis coin 9) hPlatform hAccounts selfPaid_config selfPaid_exec

open Localnet in
theorem not_feesReach_selfPaid : ¬ ∀ (R : Runtime) (env : Env) (g : World) (actions : List Action)
    (ix : Instruction) (w' : World) (c : PoolConfig) (f : FeeAccounts) (k : Pubkey)
    (official : PlatformInfo), g.Genesis → (Run.run (next R) g actions).platform k = some official →
    ix.feeAccounts = some f →
    ix.poolConfigAccount.bind (Run.run (next R) g actions).poolConfig = some c →
    ix.exec R env (Run.run (next R) g actions) = .ok w' →
    FeesReach R env g actions ix w' c f.caller k official := by
  intro hAll
  have hPlatform : feePool.platform platform = some ⟨0, 0, treasury⟩ := rfl
  have hAccounts : selfPaid.instruction.feeAccounts = some ⟨user 0, treasury, platform⟩ := rfl
  have hReach := hAll _ _ _ _ _ _ _ _ _ _ (genesis_genesis coin 9) hPlatform hAccounts selfPaid_config
    selfPaid_exec
  have hNames := (Instruction.feeReachesOwner_iff selfPaid_exec selfPaid_config).mp hReach.owner _ _ rfl
  revert hNames
  decide

end StakingOnSolana
