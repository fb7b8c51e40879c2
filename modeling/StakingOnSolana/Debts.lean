import StakingOnSolana.UserRewards

/-! # The debts of the users

The debt of a user account stays within what its stake has earned, whoever updates the pool in
between: the accumulator only grows, and the debt is written together with the stake that it
belongs to. So the subtraction of the debt is defined wherever the handlers and the view make it.
-/
set_option autoImplicit false

namespace StakingOnSolana

open RewardShare

variable {R : Runtime} {env : Env} {w w₀ w₁ : World} {P : PoolAddress} {p : Pool} {op : PoolOp}

structure PoolState.Grows (s s' : PoolState) : Prop where
  accTokenPerShare : s.accTokenPerShare ≤ s'.accTokenPerShare
  shouldTotalPaid : s.shouldTotalPaid ≤ s'.shouldTotalPaid
  paidRewards : s.paidRewards ≤ s'.paidRewards
  lastRewardSlot : s.lastRewardSlot ≤ s'.lastRewardSlot

theorem PoolState.Grows.refl (s : PoolState) : s.Grows s :=
  ⟨Nat.le_refl _, Nat.le_refl _, Nat.le_refl _, Nat.le_refl _⟩

theorem PoolState.Grows.trans {s s' s'' : PoolState} (h : s.Grows s') (h' : s'.Grows s'') :
    s.Grows s'' :=
  ⟨h.accTokenPerShare.trans h'.accTokenPerShare, h.shouldTotalPaid.trans h'.shouldTotalPaid,
    h.paidRewards.trans h'.paidRewards, h.lastRewardSlot.trans h'.lastRewardSlot⟩

theorem PoolState.grows_accrue (c : PoolConfig) (slot : Nat) (s : PoolState) :
    s.Grows (s.accrue c slot) := by
  refine ⟨acc_le_accrue c slot s, Nat.le_add_right _ _, Nat.le_refl _, ?_⟩
  change s.lastRewardSlot ≤ if s.lastRewardSlot = 0 then 0 else max s.lastRewardSlot slot
  split
  · rename_i hNone
    exact Nat.le_of_eq hNone
  · exact Nat.le_max_left _ _

namespace Pool

theorem paidRewards_le_step (p : Pool) (op : PoolOp) :
    p.state.paidRewards ≤ (p.step op).state.paidRewards := by
  cases op with
  | start slot => exact Nat.le_refl _
  | stop slot => exact Nat.le_refl _
  | stake slot u amount => exact Nat.le_add_right _ _
  | unstake slot u amount => exact Nat.le_add_right _ _
  | claim slot u =>
    simp only [Pool.step]
    split
    · exact Nat.le_refl _
    · exact Nat.le_add_right _ _
  | compound slot u =>
    simp only [Pool.step]
    split
    · exact Nat.le_refl _
    · exact Nat.le_add_right _ _

theorem grows_step (hScheduled : p.Scheduled) (hOp : p.Enabled op) :
    p.state.Grows (p.step op).state := by
  rcases op.start_or with ⟨slot, rfl⟩ | hNot
  · obtain ⟨hNone, -⟩ := hScheduled.idle hOp
    refine ⟨Nat.le_refl _, Nat.le_refl _, Nat.le_refl _, ?_⟩
    rw [hNone]
    exact Nat.zero_le _
  · have hTick := PoolState.grows_accrue p.config op.slot p.state
    obtain ⟨hAcc, hShould⟩ := p.step_accrual hNot
    refine ⟨?_, ?_, p.paidRewards_le_step op, ?_⟩
    · rw [hAcc]
      exact hTick.accTokenPerShare
    · rw [hShould]
      exact hTick.shouldTotalPaid
    · rw [(p.step_schedule hNot).2]
      exact hTick.lastRewardSlot

theorem run_grows {kinds : List Instruction.Kind} {actions : List Action} (hHolds : w.Holds P p)
    (hScheduled : p.Scheduled) (hRun : ∀ x ∈ actions, x.OnPool P kinds) :
    ∃ q, (Run.run (next R) w actions).Holds P q ∧ p.state.Grows q.state := by
  have hKept := run_holds (R := R) (I := fun q => q.Scheduled ∧ p.state.Grows q.state)
    (fun q op _ hI hOp => ⟨hI.1.step hOp, hI.2.trans (grows_step hI.1 hOp)⟩) hHolds
    ⟨hScheduled, PoolState.Grows.refl _⟩ hRun
  obtain ⟨q, hView, -, hGrows⟩ := hKept
  exact ⟨q, hView, hGrows⟩

end Pool

/-- The debt can be subtracted: from what the stake has earned, from what the handlers compute
after an update at any slot, and from what the view computes there. -/
structure UserInfo.DebtWithin (c : PoolConfig) (s : PoolState) (info : UserInfo) : Prop where
  within : info.rewardDebt ≤ info.stakedAmount * s.accTokenPerShare / c.precisionFactor
  unstaked : info.stakedAmount = 0 → info.rewardDebt = 0
  handlers : ∀ slot s' precisionFactor scaled, updatePool c slot s = .ok s' →
    getPrecisionFactor c = .ok precisionFactor →
    mulU64 info.stakedAmount s'.accTokenPerShare = .ok scaled →
    ∃ pending, subU64 (scaled / precisionFactor) info.rewardDebt = .ok pending
  view : ∀ slot precisionFactor acc scaled, getPrecisionFactor c = .ok precisionFactor →
    adjustedTokenPerShare c slot precisionFactor s = .ok acc →
    mulU64 info.stakedAmount acc = .ok scaled →
    ∃ pending, subU64 (scaled / precisionFactor) info.rewardDebt = .ok pending

theorem Pool.Sound.debtWithin {changes : Nat} (h : p.Sound changes) (u : Pubkey) :
    (p.user u).DebtWithin p.config p.state := by
  have hWithin : (p.user u).rewardDebt ≤ UserInfo.earned p.config p.state (p.user u).stakedAmount :=
    Book.Sound.debt_le h u
  constructor
  · exact hWithin
  · intro hNone
    rw [UserInfo.earned, hNone, Nat.zero_mul, Nat.zero_div] at hWithin
    exact Nat.eq_zero_of_le_zero hWithin
  · intro slot s' precisionFactor scaled hUpdate hPrecision hScaled
    obtain ⟨-, rfl⟩ := (getPrecisionFactor_eq_ok _ _).mp hPrecision
    obtain ⟨-, rfl⟩ := mulU64_eq_ok.mp hScaled
    obtain rfl := updatePool_ok hUpdate
    exact ⟨_, subU64_eq_ok.mpr ⟨h.debt_le slot u, rfl⟩⟩
  · intro slot precisionFactor acc scaled hPrecision hAcc hScaled
    obtain ⟨-, rfl⟩ := (getPrecisionFactor_eq_ok _ _).mp hPrecision
    obtain ⟨-, rfl⟩ := mulU64_eq_ok.mp hScaled
    obtain rfl := adjustedTokenPerShare_ok hAcc
    exact ⟨_, subU64_eq_ok.mpr ⟨h.debt_le slot u, rfl⟩⟩

def DebtsWithin (P : PoolAddress) (w : World) : Prop :=
  ∀ u c s info, w.poolConfig P.config = some c → w.poolState P.state = some s →
    w.userInfo (.userInfoPda P.config u) = some info → info.DebtWithin c s

def StateGrows (P : PoolAddress) (w w' : World) : Prop :=
  ∀ s s', w.poolState P.state = some s → w'.poolState P.state = some s' → s.Grows s'

/-- In every state that a run reaches every debt can be subtracted, and from there on the counters
of the pool never decrease. -/
theorem debtsWithin_and_stateGrows {a : CreatePool} {args : CreatePoolArgs}
    {before after : List Action} (hReach : w₀.Reachable R)
    (hCreate : createPool R env a args w₀ = .ok w₁)
    (hRun : ∀ x ∈ before ++ after, x.OnPool a.pool [.startReward, .stake, .unstake, .claimReward,
      .compoundReward, .stopReward]) :
    DebtsWithin a.pool (Run.run (next R) w₁ before) ∧
      StateGrows a.pool (Run.run (next R) w₁ before) (Run.run (next R) w₁ (before ++ after)) := by
  have hBefore := fun x hx => hRun x (List.mem_append_left after hx)
  have hAfter := fun x hx => hRun x (List.mem_append_right before hx)
  obtain ⟨stakeMint, rewardMint, -, hFresh⟩ := createPool_holds hReach hCreate
  obtain ⟨p, hHolds, hSound⟩ := run_sound hReach hCreate hBefore
  obtain ⟨p', hHolds', hScheduled⟩ := run_holds (R := R) (fun p op _ hI hOp => Pool.Scheduled.step hI hOp)
    hFresh (Pool.fresh_scheduled rfl _) hBefore
  obtain rfl := hHolds.unique hHolds'
  obtain ⟨q, hLater, hGrows⟩ := Pool.run_grows (R := R) hHolds hScheduled hAfter
  constructor
  · intro u c s info hConfig hState hInfo
    obtain rfl := hHolds.config_eq rfl hConfig
    obtain rfl := hHolds.state_eq rfl hState
    obtain rfl := hHolds.user_eq rfl hInfo
    exact hSound.debtWithin u
  · intro s s' hState hState'
    rw [Run.run_append] at hState'
    obtain rfl := hHolds.state_eq rfl hState
    obtain rfl := hLater.state_eq rfl hState'
    exact hGrows

namespace Localnet

def mixedRun : List Tx := [start 0 0, stake 0 11 0 3, stake 0 12 1 4, compound 0 41 0, unstake 0 50 1 2]

/-- The first of these claims comes with an earlier slot than the unstake before it. -/
def mixedEnd : List Tx := [claim 0 45 0, claim 0 60 1, stop 0 70]

end Localnet

open Localnet in
theorem debtsWithin_and_stateGrows_mixedRun :
    DebtsWithin (createAccounts coin 0).pool (run (dayPoolCreated coin 9 216000) mixedRun) ∧
      StateGrows (createAccounts coin 0).pool (run (dayPoolCreated coin 9 216000) mixedRun)
        (Run.run (next .reference) (dayPoolCreated coin 9 216000)
          (mixedRun.map .call ++ mixedEnd.map .call)) :=
  debtsWithin_and_stateGrows (reachable_run coin 9 [open_]) (dayPool_created coin 9 216000 rfl)
    (List.forall_mem_append.mpr
      ⟨onPool_of_matched (by decide), onPool_of_matched (by decide)⟩)

end StakingOnSolana
