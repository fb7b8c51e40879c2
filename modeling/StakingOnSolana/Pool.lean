import StakingOnSolana.Instructions.CompoundReward
import StakingOnSolana.Instructions.Schedule
import StakingOnSolana.Lib.RewardShare

/-! # One pool and its users

The ledger of one pool, apart from the accounts, signatures and token transfers around it:
a configuration, a state, and the position of every user. Its operations are what the
instructions do to that ledger when they succeed with the pool's own accounts.
-/
set_option autoImplicit false

namespace StakingOnSolana

open RewardShare

def PoolConfig.budget (c : PoolConfig) : Nat := c.rewardPerSlot * (c.duration * slotsPerDay)

@[ext]
structure Pool where
  config : PoolConfig
  state : PoolState
  user : Pubkey → UserInfo

inductive PoolOp where
  | start (slot : Nat)
  | stop (slot : Nat)
  | stake (slot : Nat) (user : Pubkey) (amount : Nat)
  | unstake (slot : Nat) (user : Pubkey) (amount : Nat)
  | claim (slot : Nat) (user : Pubkey)
  | compound (slot : Nat) (user : Pubkey)

namespace Pool

def tick (slot : Nat) (p : Pool) : Pool := { p with state := p.state.accrue p.config slot }

def owed (p : Pool) (u : Pubkey) : Nat := (p.user u).owed p.config p.state

/-- Pay the user, which only moves amounts between the fields of the state. -/
def pay (u : Pubkey) (p : Pool) : Pool := { p with state := p.state.pay (p.owed u) }

/-- The part of a compound that is not yet stake. -/
def record (u : Pubkey) (p : Pool) : Pool := { p with state := p.state.compound (p.owed u) 0 }

/-- Give the user a new stake, with the debt that belongs to it. -/
def reopen (u : Pubkey) (staked : Nat) (p : Pool) : Pool :=
  { p with
    state := { p.state with totalStaked := p.state.totalStaked + staked - (p.user u).stakedAmount }
    user := Function.update p.user u { p.user u with
      stakedAmount := staked, rewardDebt := UserInfo.earned p.config p.state staked } }

def refund (p : Pool) : Pool :=
  { p with state := { p.state with totalEarned := p.state.totalEarned - p.state.surplus p.config } }

def schedule (slot : Nat) (p : Pool) : Pool :=
  { p with
    config := { p.config with startSlot := slot, endSlot := slot + p.config.duration * slotsPerDay }
    state := { p.state with lastRewardSlot := slot } }

def staked (p : Pool) (u : Pubkey) : Nat := (p.user u).stakedAmount

def step (p : Pool) : PoolOp → Pool
  | .start slot => p.schedule (slot + 10)
  | .stop slot => (p.tick slot).refund
  | .stake slot u amount => ((p.tick slot).pay u).reopen u (p.staked u + amount)
  | .unstake slot u amount => ((p.tick slot).pay u).reopen u (p.staked u - amount)
  | .claim slot u =>
    if p.staked u = 0 then p.tick slot else ((p.tick slot).pay u).reopen u (p.staked u)
  | .compound slot u =>
    if p.staked u = 0 then p.tick slot
    else ((p.tick slot).record u).reopen u
      (p.staked u + p.config.credited ((p.tick slot).owed u))

structure Payable (slot : Nat) (u : Pubkey) (p : Pool) : Prop where
  recorded : (p.tick slot).owed u ≤ p.state.rewardAmount
  debt_le : 0 < p.staked u →
    (p.user u).rewardDebt ≤ UserInfo.earned p.config (p.tick slot).state (p.staked u)

/-- The conditions that the instructions check before they change the ledger. -/
def Enabled (p : Pool) : PoolOp → Prop
  | .start _ => p.config.startSlot = 0
  | .stop _ => True
  | .stake slot u _ => 0 < p.config.startSlot ∧ p.config.startSlot < slot ∧ p.Payable slot u
  | .unstake slot u amount =>
    0 < amount ∧ amount < p.staked u ∧ amount ≤ p.state.totalStaked ∧ p.Payable slot u
  | .claim slot u => p.Payable slot u
  | .compound slot u => p.Payable slot u

def book (p : Pool) : Book Pubkey where
  total := p.state.totalStaked
  acc := p.state.accTokenPerShare
  accrued := p.state.shouldTotalPaid
  paid := p.state.paidRewards
  position u := ⟨(p.user u).stakedAmount, (p.user u).rewardDebt⟩

variable (p : Pool) (u : Pubkey) (slot staked : Nat)

theorem reopen_add_state (amount : Nat) : (p.reopen u (p.staked u + amount)).state =
    { p.state with totalStaked := p.state.totalStaked + amount } := by
  have hTotal : p.state.totalStaked + (p.staked u + amount) - p.staked u =
      p.state.totalStaked + amount := by
    omega
  exact congrArg (fun n => { p.state with totalStaked := n }) hTotal

theorem reopen_sub_state {amount : Nat} (hStaked : amount ≤ p.staked u)
    (hTotal : amount ≤ p.state.totalStaked) : (p.reopen u (p.staked u - amount)).state =
    { p.state with totalStaked := p.state.totalStaked - amount } := by
  have hNew : p.state.totalStaked + (p.staked u - amount) - p.staked u =
      p.state.totalStaked - amount := by
    omega
  exact congrArg (fun n => { p.state with totalStaked := n }) hNew

theorem reopen_user_of_ne {v : Pubkey} (h : v ≠ u) : (p.reopen u staked).user v = p.user v :=
  Function.update_of_ne h _ _

theorem reopen_same_state : (p.reopen u (p.staked u)).state = p.state :=
  (p.reopen_add_state u 0)

variable {p u} in
theorem step_claim_of_unstaked (h : p.staked u = 0) : p.step (.claim slot u) = p.tick slot := if_pos h

variable {p u} in
theorem step_claim_of_staked (h : p.staked u ≠ 0) :
    p.step (.claim slot u) = ((p.tick slot).pay u).reopen u (p.staked u) := if_neg h

variable {p u} in
theorem step_compound_of_unstaked (h : p.staked u = 0) :
    p.step (.compound slot u) = p.tick slot := if_pos h

variable {p u} in
theorem step_compound_of_staked (h : p.staked u ≠ 0) :
    p.step (.compound slot u) = ((p.tick slot).record u).reopen u
      (p.staked u + p.config.credited ((p.tick slot).owed u)) := if_neg h

theorem book_tick :
    (p.tick slot).book = p.book.accrue p.config.precisionFactor (p.state.accruing p.config slot) := rfl

theorem book_position_reopen :
    (p.reopen u staked).book.position = Function.update p.book.position u
      ⟨staked, earned p.config.precisionFactor p.book.acc staked⟩ := by
  funext v
  by_cases hv : v = u
  · subst hv
    simp only [book, reopen, Function.update_self]
    rfl
  · simp only [book, reopen, Function.update_of_ne hv]

theorem book_pay_reopen :
    ((p.pay u).reopen u staked).book = p.book.settle p.config.precisionFactor u staked :=
  Book.ext rfl rfl rfl rfl (book_position_reopen (p.pay u) u staked)

theorem book_record_reopen :
    ((p.record u).reopen u staked).book = p.book.settle p.config.precisionFactor u staked :=
  Book.ext rfl rfl rfl rfl (book_position_reopen (p.record u) u staked)

end Pool

def PoolOp.slot : PoolOp → Nat
  | .start slot | .stop slot | .stake slot .. | .unstake slot .. | .claim slot _ | .compound slot _ => slot

/-- The user whose account the operation is about. -/
def PoolOp.caller : PoolOp → Option Pubkey
  | .stake _ u _ | .unstake _ u _ | .claim _ u | .compound _ u => some u
  | .start _ | .stop _ => none

theorem PoolOp.start_or (op : PoolOp) : (∃ slot, op = .start slot) ∨ ∀ slot, op ≠ .start slot := by
  cases op with
  | start slot => exact Or.inl ⟨slot, rfl⟩
  | _ => exact Or.inr nofun

def PoolOp.deposited : PoolOp → Nat
  | .stake _ _ amount => amount
  | .start _ | .stop _ | .unstake .. | .claim .. | .compound .. => 0

def PoolOp.withdrawn : PoolOp → Nat
  | .unstake _ _ amount => amount
  | .start _ | .stop _ | .stake .. | .claim .. | .compound .. => 0

def PoolOp.changesStake : PoolOp → Nat
  | .stake .. | .unstake .. | .compound .. => 1
  | .start .. | .stop .. | .claim .. => 0

namespace Pool

/-- The rewards paid and owed are covered by those accrued, up to the rounding of the debts at
`changes` changes of a stake. -/
def Sound (changes : Nat) (p : Pool) : Prop :=
  p.book.Sound p.config.precisionFactor (changes * (p.config.precisionFactor - 1))

variable {p : Pool} {changes : Nat}

theorem Sound.tick (h : p.Sound changes) (slot : Nat) : (p.tick slot).Sound changes := by
  unfold Sound
  rw [book_tick]
  exact Book.Sound.accrue h _

theorem Sound.settle (h : p.Sound changes) (u : Pubkey) (staked : Nat) :
    (p.book.settle p.config.precisionFactor u staked).Sound p.config.precisionFactor
      ((changes + 1) * (p.config.precisionFactor - 1)) := by
  have hMod := Nat.mod_lt (staked * p.book.acc) p.config.precisionFactor_pos
  refine (Book.Sound.settle h u staked).mono ?_
  rw [Nat.add_mul, Nat.one_mul]
  omega

theorem Sound.step (h : p.Sound changes) (op : PoolOp) :
    (p.step op).Sound (changes + op.changesStake) := by
  cases op with
  | start slot => exact h
  | stop slot => exact h.tick slot
  | stake slot u amount =>
    unfold Sound
    rw [Pool.step, book_pay_reopen]
    exact (h.tick slot).settle u _
  | unstake slot u amount =>
    unfold Sound
    rw [Pool.step, book_pay_reopen]
    exact (h.tick slot).settle u _
  | claim slot u =>
    simp only [Pool.step, PoolOp.changesStake, Nat.add_zero]
    split
    · exact h.tick slot
    · unfold Sound
      rw [book_pay_reopen]
      exact Book.Sound.settle_same (h.tick slot) u
  | compound slot u =>
    simp only [Pool.step]
    split
    · exact (h.tick slot).mono (Nat.mul_le_mul_right _ (Nat.le_add_right _ _))
    · unfold Sound
      rw [book_record_reopen]
      exact (h.tick slot).settle u _

/-- At any slot, what was paid and what the users are owed stays within the reward accrued,
up to less than one unit for each change of a stake. -/
theorem Sound.owed_le (h : p.Sound changes) (slot : Nat) (people : Finset Pubkey) :
    p.state.paidRewards + ∑ u ∈ people, (p.tick slot).owed u ≤
      (p.tick slot).state.shouldTotalPaid +
        changes * (p.config.precisionFactor - 1) / p.config.precisionFactor :=
  Book.Sound.owed_le (h.tick slot) p.config.precisionFactor_pos people

structure Scheduled (p : Pool) : Prop where
  idle : p.config.startSlot = 0 → p.state.lastRewardSlot = 0 ∧ p.state.shouldTotalPaid = 0
  ends : 0 < p.config.startSlot →
    p.config.endSlot = p.config.startSlot + p.config.duration * slotsPerDay
  begun : 0 < p.config.startSlot → p.config.startSlot ≤ p.state.lastRewardSlot
  within : 0 < p.config.startSlot → p.state.shouldTotalPaid ≤
    p.config.rewardPerSlot * (min p.state.lastRewardSlot p.config.endSlot - p.config.startSlot)

theorem Scheduled.last_tick (h : p.Scheduled) (slot : Nat) :
    (p.config.startSlot = 0 ∧ (p.tick slot).state.lastRewardSlot = 0 ∧ p.state.lastRewardSlot = 0) ∨
      (0 < p.config.startSlot ∧ p.config.startSlot ≤ p.state.lastRewardSlot ∧
        (p.tick slot).state.lastRewardSlot = max p.state.lastRewardSlot slot) := by
  have hTick : (p.tick slot).state.lastRewardSlot =
      if p.state.lastRewardSlot = 0 then 0 else max p.state.lastRewardSlot slot := rfl
  rcases Nat.eq_zero_or_pos p.config.startSlot with hIdle | hRun
  · have hZero := (h.idle hIdle).1
    rw [if_pos hZero] at hTick
    exact Or.inl ⟨hIdle, hTick, hZero⟩
  · have hBegun := h.begun hRun
    rw [if_neg (by omega)] at hTick
    exact Or.inr ⟨hRun, hBegun, hTick⟩

theorem accruing_le (p : Pool) (slot : Nat) : p.state.accruing p.config slot ≤ p.config.rewardPerSlot *
    (min (max p.state.lastRewardSlot slot) p.config.endSlot -
      min p.state.lastRewardSlot p.config.endSlot) := by
  unfold PoolState.accruing
  split
  · exact Nat.zero_le _
  · rw [Nat.mul_comm]
    refine Nat.mul_le_mul_left _ ?_
    unfold PoolConfig.emittingSlots
    omega

theorem Scheduled.tick (h : p.Scheduled) (slot : Nat) : (p.tick slot).Scheduled := by
  constructor
  · intro hIdle
    obtain ⟨hNone, hZero⟩ := h.idle hIdle
    have hSame : p.state.accrue p.config slot = p.state := PoolState.accrue_eq _ _ _ (Or.inr hNone)
    simp only [Pool.tick, hSame]
    exact ⟨hNone, hZero⟩
  · exact h.ends
  · intro hRun
    rcases h.last_tick slot with ⟨hIdle, -⟩ | ⟨-, hBegun, hLast⟩
    · exact absurd hIdle (Nat.ne_of_gt hRun)
    · exact hBegun.trans ((Nat.le_max_left _ slot).trans (Nat.le_of_eq hLast.symm))
  · intro hRun
    have hEnds := h.ends hRun
    rcases h.last_tick slot with ⟨hIdle, -⟩ | ⟨-, hBegun, hLast⟩
    · exact absurd hIdle (Nat.ne_of_gt hRun)
    have hSplit : min (max p.state.lastRewardSlot slot) p.config.endSlot - p.config.startSlot =
        (min p.state.lastRewardSlot p.config.endSlot - p.config.startSlot) +
          (min (max p.state.lastRewardSlot slot) p.config.endSlot -
            min p.state.lastRewardSlot p.config.endSlot) := by
      omega
    change p.state.shouldTotalPaid + p.state.accruing p.config slot ≤ p.config.rewardPerSlot *
      (min (p.tick slot).state.lastRewardSlot p.config.endSlot - p.config.startSlot)
    rw [hLast, hSplit, Nat.mul_add]
    exact Nat.add_le_add (h.within hRun) (p.accruing_le slot)

theorem Scheduled.congr {q : Pool} (h : p.Scheduled) (hConfig : q.config = p.config)
    (hLast : q.state.lastRewardSlot = p.state.lastRewardSlot)
    (hShould : q.state.shouldTotalPaid = p.state.shouldTotalPaid) : q.Scheduled := by
  constructor <;> rw [hConfig]
  · rw [hLast, hShould]
    exact h.idle
  · exact h.ends
  · rw [hLast]
    exact h.begun
  · rw [hLast, hShould]
    exact h.within

theorem Scheduled.start (h : p.Scheduled) (hIdle : p.config.startSlot = 0) (slot : Nat) :
    (p.schedule (slot + 10)).Scheduled := by
  obtain ⟨-, hZero⟩ := h.idle hIdle
  constructor
  · intro hNone
    exact absurd hNone (Nat.succ_ne_zero _)
  · intro _
    rfl
  · intro _
    exact Nat.le_refl _
  · intro _
    exact hZero ▸ Nat.zero_le _

theorem Scheduled.step (h : p.Scheduled) {op : PoolOp} (hOp : p.Enabled op) :
    (p.step op).Scheduled := by
  cases op with
  | start slot => exact h.start hOp slot
  | stop slot => exact (h.tick slot).congr rfl rfl rfl
  | stake slot u amount => exact (h.tick slot).congr rfl rfl rfl
  | unstake slot u amount => exact (h.tick slot).congr rfl rfl rfl
  | claim slot u =>
    simp only [Pool.step]
    split
    · exact h.tick slot
    · exact (h.tick slot).congr rfl rfl rfl
  | compound slot u =>
    simp only [Pool.step]
    split
    · exact h.tick slot
    · exact (h.tick slot).congr rfl rfl rfl

theorem Scheduled.should_le (h : p.Scheduled) : p.state.shouldTotalPaid ≤ p.config.budget := by
  rcases Nat.eq_zero_or_pos p.config.startSlot with hIdle | hRun
  · exact (h.idle hIdle).2 ▸ Nat.zero_le _
  · refine (h.within hRun).trans (Nat.mul_le_mul_left _ ?_)
    have hEnds := h.ends hRun
    omega

/-- A pool keeps the terms of its creation: only its schedule is set later. -/
def HasTerms (c : PoolConfig) (p : Pool) : Prop :=
  ∃ startSlot endSlot, p.config = { c with startSlot, endSlot }

theorem HasTerms.step {c : PoolConfig} (h : p.HasTerms c) (op : PoolOp) : (p.step op).HasTerms c := by
  obtain ⟨startSlot, endSlot, hConfig⟩ := h
  have hKept : ∀ q : Pool, q.config = p.config → q.HasTerms c := fun q hq =>
    ⟨startSlot, endSlot, hq.trans hConfig⟩
  cases op with
  | start slot =>
    refine ⟨slot + 10, slot + 10 + p.config.duration * slotsPerDay, ?_⟩
    simp only [Pool.step, schedule, hConfig]
  | stop slot => exact hKept _ rfl
  | stake slot u amount => exact hKept _ rfl
  | unstake slot u amount => exact hKept _ rfl
  | claim slot u =>
    simp only [Pool.step]
    split
    · exact hKept _ rfl
    · exact hKept _ rfl
  | compound slot u =>
    simp only [Pool.step]
    split
    · exact hKept _ rfl
    · exact hKept _ rfl

theorem step_accrual (p : Pool) {op : PoolOp} (hOp : ∀ slot, op ≠ .start slot) :
    (p.step op).state.accTokenPerShare = (p.tick op.slot).state.accTokenPerShare ∧
      (p.step op).state.shouldTotalPaid = (p.tick op.slot).state.shouldTotalPaid := by
  cases op with
  | start slot => exact absurd rfl (hOp slot)
  | stop slot => exact ⟨rfl, rfl⟩
  | stake slot u amount => exact ⟨rfl, rfl⟩
  | unstake slot u amount => exact ⟨rfl, rfl⟩
  | claim slot u =>
    simp only [Pool.step]
    split <;> exact ⟨rfl, rfl⟩
  | compound slot u =>
    simp only [Pool.step]
    split <;> exact ⟨rfl, rfl⟩

theorem step_schedule (p : Pool) {op : PoolOp} (hOp : ∀ slot, op ≠ .start slot) :
    (p.step op).config = p.config ∧
      (p.step op).state.lastRewardSlot = (p.tick op.slot).state.lastRewardSlot := by
  cases op with
  | start slot => exact absurd rfl (hOp slot)
  | stop slot => exact ⟨rfl, rfl⟩
  | stake slot u amount => exact ⟨rfl, rfl⟩
  | unstake slot u amount => exact ⟨rfl, rfl⟩
  | claim slot u =>
    simp only [Pool.step]
    split <;> exact ⟨rfl, rfl⟩
  | compound slot u =>
    simp only [Pool.step]
    split <;> exact ⟨rfl, rfl⟩

theorem step_user_of_ne (p : Pool) {op : PoolOp} {u : Pubkey} (h : op.caller ≠ some u) :
    (p.step op).user u = p.user u := by
  have hNe : ∀ v, op.caller = some v → u ≠ v := by
    rintro v hv rfl
    exact h hv
  cases op with
  | start slot => rfl
  | stop slot => rfl
  | stake slot v amount => exact reopen_user_of_ne _ _ _ (hNe v rfl)
  | unstake slot v amount => exact reopen_user_of_ne _ _ _ (hNe v rfl)
  | claim slot v =>
    simp only [Pool.step]
    split
    · rfl
    · exact reopen_user_of_ne _ _ _ (hNe v rfl)
  | compound slot v =>
    simp only [Pool.step]
    split
    · rfl
    · exact reopen_user_of_ne _ _ _ (hNe v rfl)

theorem tick_eq_self {slot : Nat} (h : slot ≤ p.state.lastRewardSlot ∨ p.state.lastRewardSlot = 0) :
    p.tick slot = p := by
  rw [tick, PoolState.accrue_eq _ _ _ h]

/-- A pool whose last update is that of an update at `slot` has nothing to accrue there. -/
theorem tick_of_last_eq {q : Pool} {slot : Nat}
    (h : q.state.lastRewardSlot = (p.tick slot).state.lastRewardSlot) : q.tick slot = q := by
  apply tick_eq_self
  rw [h]
  change slot ≤ (if p.state.lastRewardSlot = 0 then 0 else max p.state.lastRewardSlot slot) ∨
    (if p.state.lastRewardSlot = 0 then 0 else max p.state.lastRewardSlot slot) = 0
  split
  · exact Or.inr rfl
  · exact Or.inl (Nat.le_max_right _ _)

theorem tick_step (p : Pool) {op : PoolOp} (hOp : ∀ slot, op ≠ .start slot) :
    (p.step op).tick op.slot = p.step op := tick_of_last_eq (p.step_schedule hOp).2

/-- What leaves the reward vault. -/
def rewardOut (p : Pool) : PoolOp → Nat
  | .start _ => 0
  | .stop slot => (p.tick slot).state.surplus p.config
  | .stake slot u _ => (p.tick slot).owed u
  | .unstake slot u _ => (p.tick slot).owed u
  | .claim slot u => (p.tick slot).owed u
  | .compound slot u => if p.config.stakeMint = p.config.rewardMint then 0 else (p.tick slot).owed u

/-- The part of it that `rewardAmount` keeps counting. -/
def unrecorded (p : Pool) : PoolOp → Nat
  | .stop slot => (p.tick slot).state.surplus p.config
  | .compound slot u => if p.config.stakeMint = p.config.rewardMint then 0 else (p.tick slot).owed u
  | .start _ | .stake .. | .unstake .. | .claim .. => 0

theorem owed_of_unstaked {p : Pool} {u : Pubkey} (h : p.staked u = 0) (slot : Nat) :
    (p.tick slot).owed u = 0 := UserInfo.owed_of_unstaked _ _ _ h

theorem staked_of_owed {p : Pool} {u : Pubkey} {slot : Nat} (h : 0 < (p.tick slot).owed u) :
    p.staked u ≠ 0 := by
  intro hNone
  rw [owed_of_unstaked hNone] at h
  exact absurd h (Nat.lt_irrefl 0)

theorem step_rewardAmount {op : PoolOp} (hOp : p.Enabled op) :
    (p.step op).state.rewardAmount + p.rewardOut op = p.state.rewardAmount + p.unrecorded op := by
  cases op with
  | start slot => rfl
  | stop slot => rfl
  | stake slot u amount => exact Nat.sub_add_cancel hOp.2.2.recorded
  | unstake slot u amount => exact Nat.sub_add_cancel hOp.2.2.2.recorded
  | claim slot u =>
    simp only [Pool.step, rewardOut]
    split
    · rename_i hNone
      rw [owed_of_unstaked hNone]
      rfl
    · exact Nat.sub_add_cancel hOp.recorded
  | compound slot u =>
    simp only [Pool.step]
    split <;> rfl

/-- The reward that a compound records as paid and leaves in the pool. -/
def restaked (p : Pool) : PoolOp → Nat
  | .compound slot u => (p.tick slot).owed u
  | .start _ | .stop _ | .stake .. | .unstake .. | .claim .. => 0

theorem step_funding {op : PoolOp} (hOp : p.Enabled op) :
    (p.step op).state.rewardAmount + (p.step op).state.paidRewards =
      p.state.rewardAmount + p.state.paidRewards + p.restaked op := by
  have hPay : ∀ owed, owed ≤ p.state.rewardAmount →
      p.state.rewardAmount - owed + (p.state.paidRewards + owed) =
        p.state.rewardAmount + p.state.paidRewards := by
    intro owed hOwed
    omega
  cases op with
  | start slot => rfl
  | stop slot => rfl
  | stake slot u amount => exact hPay _ hOp.2.2.recorded
  | unstake slot u amount => exact hPay _ hOp.2.2.2.recorded
  | claim slot u =>
    simp only [Pool.step]
    split
    · rfl
    · exact hPay _ hOp.recorded
  | compound slot u =>
    simp only [Pool.step, restaked]
    split
    · rename_i hNone
      rw [owed_of_unstaked hNone]
      rfl
    · exact (Nat.add_assoc _ _ _).symm

structure Backed (c : PoolConfig) (funding : Nat) (p : Pool) : Prop where
  terms : p.HasTerms c
  scheduled : p.Scheduled
  funded : funding ≤ p.state.rewardAmount + p.state.paidRewards

theorem Backed.step {c : PoolConfig} {funding : Nat} {op : PoolOp} (h : p.Backed c funding)
    (hOp : p.Enabled op) : (p.step op).Backed c funding := by
  refine ⟨h.terms.step op, h.scheduled.step hOp, h.funded.trans ?_⟩
  rw [step_funding hOp]
  exact Nat.le_add_right _ _

theorem Backed.budget_eq {c : PoolConfig} {funding : Nat} (h : p.Backed c funding) :
    p.config.budget = c.budget := by
  obtain ⟨startSlot, endSlot, hConfig⟩ := h.terms
  rw [hConfig]
  rfl

theorem Backed.availableRewardTokens_eq {c : PoolConfig} {funding : Nat} (h : p.Backed c funding)
    (hMints : c.stakeMint ≠ c.rewardMint) (s : PoolState) :
    availableRewardTokens p.config s = s.rewardAmount := by
  obtain ⟨startSlot, endSlot, hConfig⟩ := h.terms
  refine if_neg ?_
  rw [hConfig]
  exact fun hSame => hMints hSame.symm

theorem step_totalStaked (p : Pool) (op : PoolOp) (hOp : p.Enabled op) :
    (p.step op).state.totalStaked = match op with
      | .stake _ _ amount => p.state.totalStaked + amount
      | .unstake _ _ amount => p.state.totalStaked - amount
      | .compound slot u => p.state.totalStaked + p.config.credited ((p.tick slot).owed u)
      | _ => p.state.totalStaked := by
  cases op with
  | start slot => rfl
  | stop slot => rfl
  | stake slot u amount =>
    exact congrArg PoolState.totalStaked (((p.tick slot).pay u).reopen_add_state u amount)
  | unstake slot u amount =>
    obtain ⟨-, hLt, hLe, -⟩ := hOp
    exact congrArg PoolState.totalStaked
      (((p.tick slot).pay u).reopen_sub_state u (Nat.le_of_lt hLt) hLe)
  | claim slot u =>
    simp only [Pool.step]
    split
    · rfl
    · have hSame := congrArg PoolState.totalStaked (((p.tick slot).pay u).reopen_same_state u)
      exact hSame
  | compound slot u =>
    simp only [Pool.step]
    split
    · rename_i hNone
      rw [owed_of_unstaked hNone, PoolConfig.credited_zero]
      rfl
    · exact congrArg PoolState.totalStaked (((p.tick slot).record u).reopen_add_state u _)

end Pool

end StakingOnSolana
