import Mathlib.Algebra.Ring.Nat
import StakingOnSolana.Conservation
import StakingOnSolana.Lib.Table

/-! # All pools together, and the log

A call may name accounts of different pools, and then the ledger of neither adds up any more. All
pools together still do: what one side of a call records as stake the other side records as well,
and the log names what is staked, claimed and compounded.
-/
set_option autoImplicit false

namespace StakingOnSolana

open Table

def Event.staked : Event → Nat
  | .deposit _ amount => amount
  | .newStartAndEndSlots .. | .rewardsStop _ | .rewardClaim .. | .compound .. => 0

def Event.paid : Event → Nat
  | .rewardClaim _ amount | .compound _ amount => amount
  | .newStartAndEndSlots .. | .rewardsStop _ | .deposit .. => 0

def stakedBy (log : List Event) : Nat := (log.map Event.staked).sum
def paidBy (log : List Event) : Nat := (log.map Event.paid).sum

variable {R : Runtime} {env : Env} {ix : Instruction} {g w w' : World}

theorem stakedBy_append (log log' : List Event) : stakedBy (log ++ log') = stakedBy log + stakedBy log' := by
  rw [stakedBy, List.map_append, List.sum_append]
  rfl

theorem paidBy_append (log log' : List Event) : paidBy (log ++ log') = paidBy log + paidBy log' := by
  rw [paidBy, List.map_append, List.sum_append]
  rfl

theorem claimEvents_totals (claimer : Pubkey) (pending : Nat) :
    stakedBy (claimEvents claimer pending) = 0 ∧ paidBy (claimEvents claimer pending) = pending := by
  unfold claimEvents
  split
  · exact ⟨rfl, Nat.add_zero _⟩
  · rename_i hNone
    exact ⟨rfl, (Nat.eq_zero_of_not_pos hNone).symm⟩

theorem compoundEvents_totals (user : Pubkey) (c : PoolConfig) (pending : Nat) :
    stakedBy (compoundEvents user pending (c.credited pending)) = c.credited pending ∧
      paidBy (compoundEvents user pending (c.credited pending)) = pending := by
  unfold compoundEvents
  split
  · simp [stakedBy, paidBy, Event.staked, Event.paid]
  · rename_i hNone
    rw [Nat.eq_zero_of_not_pos hNone, PoolConfig.credited_zero]
    exact ⟨rfl, rfl⟩

/-- Over all pools and all users the stakes add up to the same, and the rewards recorded as paid to
`paid`. -/
structure World.Totals (w : World) (staked paid : Nat) : Prop where
  pools : SumsTo w.poolState PoolState.totalStaked staked
  users : SumsTo w.userInfo UserInfo.stakedAmount staked
  paid : SumsTo w.poolState PoolState.paidRewards paid

variable {staked paid : Nat}

namespace World.Totals

theorem book {k j : Pubkey} {s s' : PoolState} {info info' : UserInfo} {staked' paid' : Nat}
    (h : w.Totals staked paid) (hPool : w'.poolState = Function.update w.poolState k (some s'))
    (hUser : w'.userInfo = Function.update w.userInfo j (some info')) (hState : w.poolState k = some s)
    (hInfo : (w.userInfo j).getD .zero = info)
    (hPools : staked' + s.totalStaked = staked + s'.totalStaked)
    (hUsers : staked' + info.stakedAmount = staked + info'.stakedAmount)
    (hPaid : paid' + s.paidRewards = paid + s'.paidRewards) : w'.Totals staked' paid' := by
  have hOld : (w.userInfo j).elim 0 UserInfo.stakedAmount = info.stakedAmount := by
    rw [← hInfo]
    cases w.userInfo j <;> rfl
  constructor
  · rw [hPool]
    refine h.pools.update ?_
    rwa [hState]
  · rw [hUser]
    refine h.users.update ?_
    rwa [hOld]
  · rw [hPool]
    refine h.paid.update ?_
    rwa [hState]

theorem keep {k : Pubkey} {s' : PoolState} (h : w.Totals staked paid)
    (hPool : w'.poolState = Function.update w.poolState k (some s')) (hUser : w'.userInfo = w.userInfo)
    (hStaked : (w.poolState k).elim 0 PoolState.totalStaked = s'.totalStaked)
    (hPaid : (w.poolState k).elim 0 PoolState.paidRewards = s'.paidRewards) : w'.Totals staked paid := by
  constructor
  · rw [hPool]
    refine h.pools.update ?_
    rw [hStaked]
  · rw [hUser]
    exact h.users
  · rw [hPool]
    refine h.paid.update ?_
    rw [hPaid]

theorem of_genesis (h : g.Genesis) : g.Totals 0 0 :=
  ⟨.of_empty h.poolState _, .of_empty h.userInfo _, .of_empty h.poolState _⟩

end World.Totals

def Instruction.withdrawn : Instruction → Nat
  | .unstake _ unstakeAmount => unstakeAmount
  | .initializePlatform .. | .createPool .. | .startReward _ | .stopReward _ | .stake ..
  | .claimReward _ | .compoundReward _ => 0

/-- The new entries of the log account for what happens to the totals. -/
def Entered (withdrawn staked paid : Nat) (w w' : World) : Prop :=
  ∃ new staked', w'.events = w.events ++ new ∧ staked' + withdrawn = staked + stakedBy new ∧
    w'.Totals staked' (paid + paidBy new)

theorem getD_of_loaded {info : UserInfo} {k : Pubkey} (h : w.userInfo k = some info) :
    (w.userInfo k).getD .zero = info := by
  rw [h]
  rfl

namespace World.Totals

theorem stake {a : Stake} {n : Nat} (h : w.Totals staked paid)
    (hOk : StakingOnSolana.stake R env a n w = .ok w') : Entered 0 staked paid w w' := by
  obtain ⟨platform, c, s, info, hSpec⟩ := stake_ok hOk
  obtain ⟨hNone, hClaimed⟩ := claimEvents_totals a.staker (info.owed c (s.accrue c env.slot))
  refine ⟨_, staked + (n - feeOn c.stakeFee n), hSpec.events_eq.trans (List.append_assoc _ _ _), ?_, ?_⟩
  · rw [stakedBy_append, hNone]
    simp [stakedBy, Event.staked]
  · refine h.book hSpec.poolState_eq hSpec.userInfo_eq hSpec.loadedState hSpec.loadedUser ?_ ?_ ?_
    · simp only
      omega
    · simp only
      omega
    · rw [paidBy_append, hClaimed]
      simp only [paidBy, Event.paid, List.map_cons, List.map_nil, List.sum_cons, List.sum_nil,
        PoolState.pay, PoolState.accrue]
      omega

theorem unstake {a : Unstake} {n : Nat} (h : w.Totals staked paid)
    (hOk : StakingOnSolana.unstake R env a n w = .ok w') : Entered n staked paid w w' := by
  obtain ⟨platform, c, s, info, hSpec⟩ := unstake_ok hOk
  obtain ⟨hNone, hClaimed⟩ := claimEvents_totals a.user (info.owed c (s.accrue c env.slot))
  have hTotal := h.pools.le hSpec.loadedState
  have hWithin := hSpec.total_le
  have hLess := hSpec.amount_lt
  refine ⟨_, staked - n, hSpec.events_eq, ?_, ?_⟩
  · rw [hNone]
    omega
  · refine h.book hSpec.poolState_eq hSpec.userInfo_eq hSpec.loadedState
      (getD_of_loaded hSpec.loadedUser) ?_ ?_ ?_
    · simp only
      omega
    · simp only
      omega
    · rw [hClaimed]
      simp only [PoolState.pay, PoolState.accrue]
      omega

theorem claimReward {a : ClaimReward} (h : w.Totals staked paid)
    (hOk : StakingOnSolana.claimReward R env a w = .ok w') : Entered 0 staked paid w w' := by
  obtain ⟨platform, c, s, info, hSpec⟩ := claimReward_ok hOk
  obtain ⟨hNone, hClaimed⟩ := claimEvents_totals a.claimer (info.owed c (s.accrue c env.slot))
  refine ⟨_, staked, hSpec.events_eq, ?_, ?_⟩
  · rw [hNone]
  · refine h.book hSpec.poolState_eq hSpec.userInfo_eq hSpec.loadedState
      (getD_of_loaded hSpec.loadedUser) rfl ?_ ?_
    · split <;> rfl
    · rw [hClaimed]
      simp only [PoolState.pay, PoolState.accrue]
      omega

theorem compoundReward {a : CompoundReward} (h : w.Totals staked paid)
    (hOk : StakingOnSolana.compoundReward R env a w = .ok w') : Entered 0 staked paid w w' := by
  obtain ⟨platform, c, s, info, hSpec⟩ := compoundReward_ok hOk
  obtain ⟨hStaked, hPaid⟩ := compoundEvents_totals a.user c (info.owed c (s.accrue c env.slot))
  refine ⟨_, staked + c.credited (info.owed c (s.accrue c env.slot)), hSpec.events_eq, ?_, ?_⟩
  · rw [hStaked]
    rfl
  · refine h.book hSpec.poolState_eq hSpec.userInfo_eq hSpec.loadedState
      (getD_of_loaded hSpec.loadedUser) ?_ ?_ ?_
    · simp only [PoolState.compound, PoolState.accrue]
      omega
    · split
      · rename_i hUnstaked
        rw [UserInfo.owed_of_unstaked c _ _ hUnstaked, PoolConfig.credited_zero]
        rfl
      · simp only
        omega
    · rw [hPaid]
      simp only [PoolState.compound, PoolState.accrue]
      omega

theorem exec (h : w.Totals staked paid) (hOk : ix.exec R env w = .ok w') :
    Entered ix.withdrawn staked paid w w' := by
  cases ix with
  | initializePlatform a d f =>
    obtain ⟨_, rfl⟩ := initializePlatform_ok hOk
    exact ⟨[], staked, (List.append_nil _).symm, rfl, h.pools, h.users, h.paid⟩
  | createPool a args =>
    obtain ⟨_, _, hSpec⟩ := createPool_ok hOk
    obtain ⟨hUser, -, -, hEvents⟩ := hSpec.frame
    refine ⟨[], staked, hEvents.trans (List.append_nil _).symm, rfl, ?_⟩
    refine h.keep hSpec.poolState_eq hUser ?_ ?_ <;> rw [hSpec.vacantState.2.1] <;> rfl
  | startReward a =>
    obtain ⟨_, s, hSpec⟩ := startReward_ok hOk
    refine ⟨_, staked, hSpec.events_eq, rfl, ?_⟩
    refine h.keep hSpec.poolState_eq hSpec.frame.1 ?_ ?_ <;> rw [hSpec.loadedState] <;> rfl
  | stopReward a =>
    obtain ⟨_, s, hSpec⟩ := stopReward_ok hOk
    refine ⟨_, staked, hSpec.events_eq, rfl, ?_⟩
    refine h.keep hSpec.poolState_eq hSpec.frame.2.1 ?_ ?_ <;> rw [hSpec.loadedState] <;> rfl
  | stake a n => exact h.stake hOk
  | unstake a n => exact h.unstake hOk
  | claimReward a => exact h.claimReward hOk
  | compoundReward a => exact h.compoundReward hOk

end World.Totals

/-- What a successful call takes out of a stake. -/
def withdrawn (R : Runtime) (w : World) : Action → Nat
  | .call tx =>
    match tx.instruction.exec R tx.env w with
    | .ok _ => tx.instruction.withdrawn
    | .error _ => 0
  | .outside .. => 0

/-- The entries that the log has gained since `g` account for the stakes and the rewards paid. -/
def Audited (g : World) (withdrawn : Nat) (w : World) : Prop :=
  ∃ log staked paid, w.events = g.events ++ log ∧ w.Totals staked paid ∧
    staked + withdrawn = stakedBy log ∧ paid = paidBy log

theorem Audited.next {total : Nat} (h : Audited g total w) (x : Action) :
    Audited g (total + withdrawn R w x) (next R w x) := by
  obtain ⟨log, staked, paid, hEvents, hTotals, hStaked, rfl⟩ := h
  cases x with
  | outside bank mint =>
    exact ⟨log, staked, _, hEvents, ⟨hTotals.pools, hTotals.users, hTotals.paid⟩, hStaked, rfl⟩
  | call tx =>
    cases hExec : tx.instruction.exec R tx.env w with
    | error e =>
      have hFails : ¬tx.Succeeds R w := fun ⟨w', hOk⟩ => by cases hExec.symm.trans hOk
      rw [next_of_not_succeeds hFails]
      simp only [withdrawn, hExec]
      exact ⟨log, staked, _, hEvents, hTotals, hStaked, rfl⟩
    | ok w' =>
      rw [next_of_ok hExec]
      simp only [withdrawn, hExec]
      obtain ⟨new, staked', hNew, hMoved, hAfter⟩ := hTotals.exec hExec
      refine ⟨log ++ new, staked', _, ?_, hAfter, ?_, (paidBy_append log new).symm⟩
      · rw [hNew, hEvents, List.append_assoc]
      · rw [stakedBy_append]
        omega

end StakingOnSolana
