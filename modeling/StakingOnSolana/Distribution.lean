import StakingOnSolana.Lib.RewardLoss
import StakingOnSolana.RewardAccounting

/-! # Where the accrued rewards are

The users are owed what the pool accrues, less what the roundings keep back: the remainder of
each update, which no accumulator step divides among the stakes, and less than one unit for each
change of a stake. Nothing else of an accrued reward is lost, whatever the instructions are, as long
as they pass the accounts that belong to the pool and to their callers.
-/
set_option autoImplicit false

namespace StakingOnSolana

open RewardShare

variable {R : Runtime} {env : Env} {w w' w₀ w₁ : World} {P : PoolAddress} {p : Pool} {loss : Nat}

def PoolState.remainder (c : PoolConfig) (slot : Nat) (s : PoolState) : Nat :=
  s.accruing c slot * c.precisionFactor % s.totalStaked

namespace Pool

def Distributed (loss : Nat) (p : Pool) : Prop := p.book.Complete p.config.precisionFactor loss

theorem Distributed.mono {loss' : Nat} (h : p.Distributed loss) (hLoss : loss ≤ loss') :
    p.Distributed loss' :=
  Book.Complete.mono h hLoss

theorem Distributed.tick (h : p.Distributed loss) (slot : Nat) :
    (p.tick slot).Distributed (loss + p.state.remainder p.config slot) := by
  unfold Distributed
  rw [book_tick]
  exact Book.Complete.accrue h _

def roundingLoss (p : Pool) (op : PoolOp) : Nat :=
  p.state.remainder p.config op.slot + op.changesStake * (p.config.precisionFactor - 1)

theorem Distributed.step (h : p.Distributed loss) (op : PoolOp) :
    (p.step op).Distributed (loss + p.roundingLoss op) := by
  have hTick := h.tick op.slot
  have hSame : loss + p.state.remainder p.config op.slot ≤ loss + p.roundingLoss op :=
    Nat.add_le_add_left (Nat.le_add_right _ _) loss
  have hSettle : ∀ u staked, op.changesStake = 1 →
      ((p.tick op.slot).book.settle p.config.precisionFactor u staked).Complete p.config.precisionFactor
        (loss + p.roundingLoss op) := by
    intro u staked hChange
    rw [roundingLoss, hChange, Nat.one_mul, ← Nat.add_assoc]
    exact Book.Complete.settle hTick p.config.precisionFactor_pos u staked
  cases op with
  | start slot => exact h.mono (Nat.le_add_right _ _)
  | stop slot => exact hTick.mono hSame
  | stake slot u amount =>
    unfold Distributed
    rw [Pool.step, book_pay_reopen]
    exact hSettle u _ rfl
  | unstake slot u amount =>
    unfold Distributed
    rw [Pool.step, book_pay_reopen]
    exact hSettle u _ rfl
  | claim slot u =>
    simp only [Pool.step]
    split
    · exact hTick.mono hSame
    · unfold Distributed
      rw [book_pay_reopen]
      exact (Book.Complete.settle_same hTick u).mono hSame
  | compound slot u =>
    simp only [Pool.step]
    split
    · exact hTick.mono hSame
    · unfold Distributed
      rw [book_record_reopen]
      exact hSettle u _ rfl

theorem fresh_distributed (c : PoolConfig) (funding : Nat) : (Pool.fresh c funding).Distributed 0 := by
  refine ⟨0, ∅, ⟨fun _ _ => rfl, rfl, fun _ => Nat.zero_le _, ?_⟩, ?_⟩ <;>
    simp [Pool.fresh, Pool.book, PoolState.zero]

end Pool

/-- What a successful call on the pool may lose to roundings, in parts of one unit cut into the
precision of the pool. -/
def roundingLoss (R : Runtime) (P : PoolAddress) (w : World) : Action → Nat
  | .call tx =>
    match tx.instruction.exec R tx.env w, w.poolConfig P.config, w.poolState P.state with
    | .ok _, some c, some s =>
      if tx.instruction.poolConfigAccount = some P.config then
        s.remainder c tx.env.slot + tx.instruction.changesStake * (c.precisionFactor - 1)
      else 0
    | _, _, _ => 0
  | .outside .. => 0

theorem roundingLoss_of_ok {tx : Tx} {op : PoolOp} (hHolds : w.Holds P p)
    (hMatched : tx.instruction.Matched P) (hOp : tx.instruction.op p.config tx.env.slot = some op)
    (h : tx.instruction.exec R tx.env w = .ok w') :
    roundingLoss R P w (.call tx) = p.roundingLoss op := by
  simp only [roundingLoss, h, hHolds.config, hHolds.state]
  rw [if_pos hMatched.poolConfigAccount, Pool.roundingLoss, Instruction.slot_op hOp,
    Instruction.changesStake_op hOp]

/-- Of the reward accrued up to any slot, what is neither paid nor returned by the views is lost to
the last update at that slot and to the roundings before it. -/
def SharedOut (P : PoolAddress) (loss : Nat) (w : World) : Prop :=
  ∀ (env : Env) (people : Finset Pubkey) (pending : Pubkey → Nat),
    (∀ u info, w.userInfo (.userInfoPda P.config u) = some info → 0 < info.stakedAmount → u ∈ people) →
    (∀ u ∈ people, pendingReward env (P.view u) w = .ok (pending u)) →
    ∀ c s, w.poolConfig P.config = some c → w.poolState P.state = some s →
      c.precisionFactor * (s.accrue c env.slot).shouldTotalPaid ≤
        c.precisionFactor * (s.paidRewards + ∑ u ∈ people, pending u) +
          (loss + s.remainder c env.slot)

theorem Pool.Distributed.sharedOut (h : p.Distributed loss) (hHolds : w.Holds P p) :
    SharedOut P loss w := by
  intro env people pending hAll hPending c s hConfig hState
  obtain rfl := hHolds.config_eq rfl hConfig
  obtain rfl := hHolds.state_eq rfl hState
  have hViews : ∑ u ∈ people, pending u = ∑ u ∈ people, (p.tick env.slot).owed u :=
    Finset.sum_congr rfl fun u hu => (pendingReward_holds hHolds (hPending u hu)).2
  rw [hViews]
  refine Book.Complete.accrued_le (h.tick env.slot) p.config.precisionFactor_pos people fun u hStaked => ?_
  have hUser := hHolds.user u
  cases hInfo : w.userInfo (.userInfoPda P.config u) with
  | some info =>
    rw [hInfo] at hUser
    change 0 < (p.user u).stakedAmount at hStaked
    rw [← hUser] at hStaked
    exact hAll u info hInfo hStaked
  | none =>
    rw [hInfo] at hUser
    change 0 < (p.user u).stakedAmount at hStaked
    rw [← hUser] at hStaked
    exact absurd hStaked (Nat.lt_irrefl 0)

/-- Over every run of calls that pass the pool's and their callers' own accounts, the accrued rewards
are shared out up to the roundings of the calls. -/
theorem sharedOut_roundingLoss {a : CreatePool} {args : CreatePoolArgs} {actions : List Action}
    (hReach : w₀.Reachable R) (hCreate : createPool R env a args w₀ = .ok w₁)
    (hRun : ∀ x ∈ actions, x.OnPool a.pool [.startReward, .stopReward, .stake, .unstake, .claimReward,
      .compoundReward]) :
    SharedOut a.pool (Run.tally (next R) (roundingLoss R a.pool) w₁ actions)
      (Run.run (next R) w₁ actions) := by
  obtain ⟨stakeMint, rewardMint, -, hHolds⟩ := createPool_holds hReach hCreate
  have hLast : ∃ p, (Run.run (next R) w₁ actions).Holds a.pool p ∧
      p.Distributed (0 + Run.tally (next R) (roundingLoss R a.pool) w₁ actions) := by
    refine Run.run_invariant_tally (I := fun n (w : World) => ∃ p, w.Holds a.pool p ∧ p.Distributed n)
      ?_ ⟨_, hHolds, Pool.fresh_distributed _ _⟩ (Run.along_of_forall fun x hx _ => hRun x hx)
    rintro n w x ⟨p, hHolds, hDistributed⟩ hOn
    rcases next_holds (R := R) hHolds hOn with
      ⟨hSame, -⟩ | ⟨tx, op, rfl, hMatched, -, hOk, hOp, -, hAfter⟩
    · exact ⟨p, hSame, hDistributed.mono (Nat.le_add_right _ _)⟩
    · rw [roundingLoss_of_ok hHolds hMatched hOp hOk]
      exact ⟨p.step op, hAfter, hDistributed.step op⟩
  obtain ⟨p, hAfter, hDistributed⟩ := hLast
  rw [Nat.zero_add] at hDistributed
  exact hDistributed.sharedOut hAfter

open Localnet in
theorem sharedOut_roundingLoss_halfToken :
    SharedOut (createAccounts coin 0).pool 27 (run (dayPoolCreated coin 8 216000) halfToken) := by
  have hLoss : Run.tally (next .reference) (roundingLoss .reference (createAccounts coin 0).pool)
      (dayPoolCreated coin 8 216000) (halfToken.map .call) = 27 := by
    decide
  rw [← hLoss]
  exact sharedOut_roundingLoss (reachable_run coin 8 [open_]) (dayPool_created coin 8 216000 rfl)
    (onPool_of_matched (by decide))

end StakingOnSolana
