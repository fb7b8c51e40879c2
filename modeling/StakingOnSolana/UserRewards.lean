import StakingOnSolana.View

/-! # The rewards of one user

What a user was paid and is still owed depends on the accumulator and on his own stakes only: it
is the sum, over the intervals in which his stake stayed the same, of what the stake earned at
the end less what it had earned at the beginning. Neither his claims nor other users' calls count.
-/
set_option autoImplicit false

namespace StakingOnSolana

open RewardShare

variable {R : Runtime} {env viewer : Env} {w w' w₀ w₁ : World} {P : PoolAddress} {p : Pool}
  {op : PoolOp} {u : Pubkey}

theorem PoolState.acc_le_accrue (c : PoolConfig) (slot : Nat) (s : PoolState) :
    s.accTokenPerShare ≤ (s.accrue c slot).accTokenPerShare := Nat.le_add_right _ _

namespace Pool

theorem acc_le_step (p : Pool) (op : PoolOp) :
    p.state.accTokenPerShare ≤ (p.step op).state.accTokenPerShare := by
  rcases op.start_or with ⟨slot, rfl⟩ | hNot
  · exact Nat.le_refl _
  · rw [(p.step_accrual hNot).1]
    exact PoolState.acc_le_accrue _ _ _

theorem step_precisionFactor (p : Pool) (op : PoolOp) :
    (p.step op).config.precisionFactor = p.config.precisionFactor := by
  rcases op.start_or with ⟨slot, rfl⟩ | hNot
  · rfl
  · rw [(p.step_schedule hNot).1]

/-- The user is paid what he is owed, and his new debt is what his new stake has earned. -/
structure Settles (p q : Pool) (u : Pubkey) (paid : Nat) : Prop where
  paid_eq : paid + (p.user u).rewardDebt =
    earned p.config.precisionFactor q.state.accTokenPerShare (p.staked u)
  debt_eq : (q.user u).rewardDebt =
    earned p.config.precisionFactor q.state.accTokenPerShare (q.staked u)

theorem Settles.reopen (slot staked : Nat) (hDebt : (p.user u).rewardDebt ≤
    UserInfo.earned p.config (p.tick slot).state (p.staked u)) :
    p.Settles (((p.tick slot).pay u).reopen u staked) u ((p.tick slot).owed u) := by
  refine ⟨Nat.sub_add_cancel hDebt, ?_⟩
  simp only [Pool.reopen, Pool.staked, Function.update_self]
  rfl

/-- An operation leaves a user's account alone or settles with him, unless he compounds. -/
theorem step_user (hDebt : (p.user u).rewardDebt ≤
    UserInfo.earned p.config (p.tick op.slot).state (p.staked u)) (hNot : ∀ slot, op ≠ .compound slot u) :
    ((p.step op).user u = p.user u ∧ p.payout u op = 0) ∨ p.Settles (p.step op) u (p.payout u op) := by
  by_cases hCaller : op.caller = some u
  · cases op with
    | start slot => cases hCaller
    | stop slot => cases hCaller
    | stake slot v amount =>
      cases hCaller
      simp only [Pool.payout, if_true]
      exact Or.inr (Settles.reopen slot _ hDebt)
    | unstake slot v amount =>
      cases hCaller
      simp only [Pool.payout, if_true]
      exact Or.inr (Settles.reopen slot _ hDebt)
    | claim slot v =>
      cases hCaller
      by_cases hNone : p.staked u = 0
      · rw [step_claim_of_unstaked slot hNone]
        exact Or.inl ⟨rfl, (if_pos rfl).trans (owed_of_unstaked hNone slot)⟩
      · rw [step_claim_of_staked slot hNone]
        simp only [Pool.payout, if_true]
        exact Or.inr (Settles.reopen slot _ hDebt)
    | compound slot v =>
      cases hCaller
      exact absurd rfl (hNot slot)
  · exact Or.inl ⟨p.step_user_of_ne hCaller, payout_of_ne hCaller⟩

end Pool

/-- What a call that names the pool pays to the user, by the events that it appends. -/
def payouts (R : Runtime) (P : PoolAddress) (u : Pubkey) (w : World) : Action → Nat
  | .call tx =>
    if tx.instruction.poolConfigAccount = some P.config then
      rewardsPaid u ((next R w (.call tx)).events.drop w.events.length)
    else 0
  | .outside .. => 0

theorem payouts_of_passes {a : Action} (h : a.Passes R P w) : payouts R P u w a = 0 := by
  cases a with
  | outside bank mint => rfl
  | call tx =>
    rcases h with hFails | hForeign
    · simp only [payouts, next_of_not_succeeds hFails, List.drop_length]
      exact ite_self _
    · exact if_neg hForeign.1

theorem payouts_of_ok {tx : Tx} (hHolds : w.Holds P p) (hMatched : tx.instruction.Matched P)
    (hOp : tx.instruction.op p.config tx.env.slot = some op)
    (hOk : tx.instruction.exec R tx.env w = .ok w') : payouts R P u w (.call tx) = p.payout u op := by
  obtain ⟨new, hEvents, hPaid⟩ := exec_events hHolds hMatched hOp hOk
  simp only [payouts, if_pos hMatched.poolConfigAccount, next_of_ok hOk, hEvents, List.drop_left]
  exact hPaid u

/-- The payout of a call is what its first token transfer moves. -/
theorem payouts_transferred {tx : Tx} (hHolds : w.Holds P p) (hMatched : tx.instruction.Matched P)
    (hPayee : tx.instruction.payee = some u) (hOk : tx.instruction.exec R tx.env w = .ok w') :
    ∃ others, w'.bank.amount = Balance.moveAll w.bank.amount
      (tx.instruction.tokenRoutes.zip (payouts R P u w (.call tx) :: others)) := by
  obtain ⟨op, hOp, -, -⟩ := exec_matched hHolds hMatched hOk
  rw [payouts_of_ok hHolds hMatched hOp hOk, op_payee hPayee hOp]
  exact exec_payout hHolds hMatched hPayee hOk

def World.stakedAmount (P : PoolAddress) (u : Pubkey) (w : World) : Nat :=
  ((w.userInfo (.userInfoPda P.config u)).getD .zero).stakedAmount

def World.accTokenPerShare (P : PoolAddress) (w : World) : Nat :=
  ((w.poolState P.state).getD .zero).accTokenPerShare

def World.accAt (P : PoolAddress) (slot : Nat) (w : World) : Nat :=
  match w.poolConfig P.config with
  | some c => (((w.poolState P.state).getD .zero).accrue c slot).accTokenPerShare
  | none => 0

/-- The maximal intervals of a run over which the user's stake stays the same, up to a slot after
it. A call that changes the stake has brought the accumulator up to date before. -/
def stakeIntervals (R : Runtime) (P : PoolAddress) (u : Pubkey) (slot : Nat) :
    World → Nat → List Action → List Interval
  | w, first, [] => [⟨w.stakedAmount P u, first, w.accAt P slot⟩]
  | w, first, a :: rest =>
    if (next R w a).stakedAmount P u = w.stakedAmount P u then
      stakeIntervals R P u slot (next R w a) first rest
    else
      ⟨w.stakedAmount P u, first, (next R w a).accTokenPerShare P⟩ ::
        stakeIntervals R P u slot (next R w a) ((next R w a).accTokenPerShare P) rest

theorem World.Holds.stakedAmount_eq (h : w.Holds P p) (u : Pubkey) : w.stakedAmount P u = p.staked u :=
  congrArg UserInfo.stakedAmount (h.user u)

theorem World.Holds.accTokenPerShare_eq (h : w.Holds P p) :
    w.accTokenPerShare P = p.state.accTokenPerShare := by
  rw [World.accTokenPerShare, h.state]
  rfl

theorem World.Holds.accAt_eq (h : w.Holds P p) (slot : Nat) :
    w.accAt P slot = (p.tick slot).state.accTokenPerShare := by
  rw [World.accAt, h.config, h.state]
  rfl

def Instruction.compounder : Instruction → Option Pubkey
  | .compoundReward a => some a.user
  | .initializePlatform .. | .createPool .. | .startReward _ | .stopReward _ | .stake .. | .unstake ..
  | .claimReward _ => none

def Action.SparesCompound (P : PoolAddress) (u : Pubkey) : Action → Prop
  | .call tx => tx.instruction.Matched P → tx.instruction.compounder ≠ some u
  | .outside .. => True

theorem op_ne_compound {ix : Instruction} {c : PoolConfig} {slot : Nat}
    (hOp : ix.op c slot = some op) (hNot : ix.compounder ≠ some u) (slot' : Nat) :
    op ≠ .compound slot' u := by
  rintro rfl
  cases ix <;> cases hOp
  exact hNot rfl

/-- By induction on the run: from any state on, what the user gets and his present debt are the
rewards of the intervals and what the open interval had earned at its beginning. -/
theorem run_stakeIntervals (slot : Nat) {kinds : List Instruction.Kind} {actions : List Action}
    {changes first : Nat} (hHolds : w.Holds P p) (hSound : p.Sound changes)
    (hFirst : first ≤ p.state.accTokenPerShare)
    (hRun : ∀ x ∈ actions, x.OnPool P kinds ∧ x.SparesCompound P u) :
    ∃ q, (Run.run (next R) w actions).Holds P q ∧
      Run.tally (next R) (payouts R P u) w actions + (q.tick slot).owed u + (p.user u).rewardDebt =
        rewards p.config.precisionFactor (stakeIntervals R P u slot w first actions) +
          earned p.config.precisionFactor first (p.staked u) := by
  induction actions generalizing w p changes first with
  | nil =>
    refine ⟨p, hHolds, ?_⟩
    have hReward := Interval.reward_add p.config.precisionFactor
      (i := ⟨p.staked u, first, (p.tick slot).state.accTokenPerShare⟩)
      (hFirst.trans (PoolState.acc_le_accrue _ _ _))
    simp only [stakeIntervals, hHolds.stakedAmount_eq, hHolds.accAt_eq, rewards, List.map_cons, List.map_nil,
      List.sum_cons, List.sum_nil, Nat.add_zero, Run.tally, Nat.zero_add]
    rw [hReward]
    exact Nat.sub_add_cancel (hSound.debt_le slot u)
  | cons a rest ih =>
    obtain ⟨hOn, hSpares⟩ := hRun a List.mem_cons_self
    have hRest : ∀ x ∈ rest, x.OnPool P kinds ∧ x.SparesCompound P u :=
      fun x hx => hRun x (List.mem_cons_of_mem a hx)
    rcases next_holds (R := R) hHolds hOn with
      ⟨hSame, hPasses⟩ | ⟨tx, op, rfl, hMatched, -, hOk, hOp, hEnabled, hAfter⟩
    · obtain ⟨q, hQ, hTotal⟩ := ih hSame hSound hFirst hRest
      refine ⟨q, hQ, ?_⟩
      have hStake : (next R w a).stakedAmount P u = w.stakedAmount P u :=
        (hSame.stakedAmount_eq u).trans (hHolds.stakedAmount_eq u).symm
      rw [Run.tally, payouts_of_passes hPasses, Nat.zero_add, stakeIntervals, if_pos hStake]
      exact hTotal
    · have hNot := op_ne_compound hOp (hSpares hMatched)
      have hAcc := p.acc_le_step op
      have hPrecision := p.step_precisionFactor op
      have hStaked := hAfter.stakedAmount_eq u
      rw [Run.tally, payouts_of_ok hHolds hMatched hOp hOk, stakeIntervals]
      rcases Pool.step_user (hSound.debt_le _ u) hNot with ⟨hUser, hZero⟩ | hSettles
      · -- Nothing happens to the account of the user.
        obtain ⟨q, hQ, hTotal⟩ := ih hAfter (hSound.step op) (hFirst.trans hAcc) hRest
        refine ⟨q, hQ, ?_⟩
        have hKept : (p.step op).staked u = p.staked u := congrArg UserInfo.stakedAmount hUser
        rw [hPrecision, hUser, hKept] at hTotal
        rw [hZero, Nat.zero_add, hStaked, hHolds.stakedAmount_eq, if_pos hKept]
        exact hTotal
      · have hPaid := hSettles.paid_eq
        have hDebt := hSettles.debt_eq
        rw [hStaked, hHolds.stakedAmount_eq, hAfter.accTokenPerShare_eq]
        split
        · -- A claim inside the interval: the debt grows by what is paid.
          rename_i hKept
          obtain ⟨q, hQ, hTotal⟩ := ih hAfter (hSound.step op) (hFirst.trans hAcc) hRest
          refine ⟨q, hQ, ?_⟩
          rw [hPrecision, hKept] at hTotal
          rw [hKept] at hDebt
          omega
        · -- The interval ends here, and the next one begins without anything owed.
          obtain ⟨q, hQ, hTotal⟩ := ih hAfter (hSound.step op) (Nat.le_refl _) hRest
          refine ⟨q, hQ, ?_⟩
          have hReward := Interval.reward_add p.config.precisionFactor
            (i := ⟨p.staked u, first, (p.step op).state.accTokenPerShare⟩) (hFirst.trans hAcc)
          rw [hPrecision] at hTotal
          rw [rewards_cons]
          simp only at hReward
          omega

/-- In every state that a run reaches, and at every slot, what the user was paid and the view add
up to the rewards of his intervals. What he was paid is read off the events; by `payouts_transferred`
it is what the first token transfer of each call moves. -/
theorem payouts_add_view {a : CreatePool} {args : CreatePoolArgs} {actions : List Action}
    {c : PoolConfig} {pending : Nat} (hReach : w₀.Reachable R)
    (hCreate : createPool R env a args w₀ = .ok w₁) (hConfig : w₁.poolConfig a.pool.config = some c)
    (hRun : ∀ x ∈ actions, x.OnPool a.pool [.startReward, .stake, .unstake, .claimReward,
      .compoundReward, .stopReward] ∧ x.SparesCompound a.pool u)
    (hView : pendingReward viewer (a.pool.view u) (Run.run (next R) w₁ actions) = .ok pending) :
    Run.tally (next R) (payouts R a.pool u) w₁ actions + pending =
      rewards c.precisionFactor (stakeIntervals R a.pool u viewer.slot w₁ 0 actions) := by
  obtain ⟨stakeMint, rewardMint, -, hHolds⟩ := createPool_holds hReach hCreate
  obtain rfl := hHolds.config_eq rfl hConfig
  obtain ⟨q, hQ, hTotal⟩ := run_stakeIntervals (R := R) viewer.slot hHolds
    (Pool.fresh_sound _ _) (Nat.zero_le 0) hRun
  have hFirst : earned (Pool.fresh (a.poolConfig args stakeMint rewardMint)
      args.initialFunding).config.precisionFactor 0 0 = 0 := Nat.zero_div _
  obtain ⟨-, rfl⟩ := pendingReward_holds hQ hView
  exact (hTotal.trans (congrArg (_ + ·) hFirst))

theorem sparesCompound_of_compounder {txs : List Tx}
    (h : ∀ tx ∈ txs, tx.instruction.compounder ≠ some u) :
    ∀ x ∈ txs.map Action.call, x.SparesCompound P u := by
  intro x hx
  obtain ⟨tx, hTx, rfl⟩ := List.mem_map.mp hx
  exact fun _ => h tx hTx

namespace Localnet

def restakedRun : List Tx := [start 0 0, stake 0 11 0 3, stake 0 12 1 4, claim 0 40 1, compound 0 41 0,
  unstake 0 50 1 2, claim 0 77 1, claim 0 80 0]

end Localnet

open Localnet in
theorem payouts_add_view_restakedRun :
    Run.tally (next .reference) (payouts .reference (createAccounts coin 0).pool (user 1))
        (dayPoolCreated coin 9 216000) (restakedRun.map .call) + 8 =
      rewards ((createAccounts coin 0).poolConfig (dayPool 216000) ⟨9⟩ ⟨9⟩).precisionFactor
        (stakeIntervals .reference (createAccounts coin 0).pool (user 1) (Localnet.env 100 []).slot
          (dayPoolCreated coin 9 216000) 0 (restakedRun.map .call)) :=
  have hConfig : (dayPoolCreated coin 9 216000).poolConfig (config 0) =
      some ((createAccounts coin 0).poolConfig (dayPool 216000) ⟨9⟩ ⟨9⟩) := rfl
  have hView : pendingReward (Localnet.env 100 []) ((createAccounts coin 0).pool.view (user 1))
      (run (dayPoolCreated coin 9 216000) restakedRun) = .ok 8 := rfl
  payouts_add_view (reachable_run coin 9 [open_]) (dayPool_created coin 9 216000 rfl) hConfig
    (fun x hx => ⟨onPool_of_matched (by decide) x hx, sparesCompound_of_compounder (by decide) x hx⟩)
    hView

end StakingOnSolana
