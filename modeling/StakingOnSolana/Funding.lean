import StakingOnSolana.Refinement

/-! # The funding of a started pool

The check that `start_reward` should make stands there as a comment, so a pool starts whatever it
was funded with. Without compounds nothing but payouts changes the funds of a pool with different
mints. They cover its rewards to the end if they reach for all slots of the schedule but the first:
a stake comes after the start, and an empty pool accrues nothing. The check asks for all of them.
-/
set_option autoImplicit false

namespace StakingOnSolana

variable {R : Runtime} {env : Env} {w w₀ w₁ : World} {P : PoolAddress} {p : Pool} {op : PoolOp}

/-- What a started pool has accrued is covered by what is left of its funds and what it paid. -/
def RewardsCovered (P : PoolAddress) (w : World) : Prop :=
  ∀ c s, w.poolConfig P.config = some c → w.poolState P.state = some s → c.startSlot ≠ 0 →
    s.shouldTotalPaid ≤ availableRewardTokens c s + s.paidRewards

/-- A start finds the reward of every slot of the schedule but one. -/
def StartFunded (P : PoolAddress) (w : World) (tx : Tx) : Prop :=
  match tx.instruction with
  | .startReward _ => ∀ c s, w.poolConfig P.config = some c → w.poolState P.state = some s →
      c.budget ≤ availableRewardTokens c s + s.paidRewards + c.rewardPerSlot
  | _ => True

theorem budget_le_of_insufficientRewards {c : PoolConfig} {s : PoolState} (hIdle : c.startSlot = 0)
    (h : insufficientRewards c s = .ok 0) :
    s.shouldTotalPaid + c.budget ≤ availableRewardTokens c s + s.paidRewards := by
  have hBudget : c.rewardPerSlot * c.duration * slotsPerDay = c.budget := Nat.mul_assoc _ _ _
  simp only [insufficientRewards, remainingEmission, Checked.bind_eq_ok, addU64_eq_ok, if_pos hIdle,
    mulU64_eq_ok] at h
  obtain ⟨_, ⟨-, rfl⟩, _, ⟨_, ⟨-, rfl⟩, -, rfl⟩, _, ⟨-, rfl⟩, h⟩ := h
  rw [hBudget] at h
  split at h
  · rename_i hCovered
    exact hCovered
  · rw [subU64_eq_ok] at h
    omega

/-- The check that `start_reward` leaves out is enough. -/
theorem startFunded_of_insufficientRewards {tx : Tx} {c : PoolConfig} {s : PoolState}
    (hConfig : w.poolConfig P.config = some c) (hState : w.poolState P.state = some s)
    (hIdle : c.startSlot = 0) (h : insufficientRewards c s = .ok 0) : StartFunded P w tx := by
  unfold StartFunded
  split
  · intro c' s' hConfig' hState'
    obtain rfl := Option.some.inj (hConfig.symm.trans hConfig')
    obtain rfl := Option.some.inj (hState.symm.trans hState')
    have hEnough := budget_le_of_insufficientRewards hIdle h
    omega
  · trivial

namespace Pool

structure Funded (funding : Nat) (p : Pool) : Prop where
  scheduled : p.Scheduled
  mints : p.config.stakeMint ≠ p.config.rewardMint
  funds : p.state.rewardAmount + p.state.paidRewards = funding

theorem Funded.available_eq {funding : Nat} (h : p.Funded funding) :
    availableRewardTokens p.config p.state + p.state.paidRewards = funding := by
  have hAvailable : availableRewardTokens p.config p.state = p.state.rewardAmount :=
    if_neg fun hSame => h.mints hSame.symm
  rw [hAvailable]
  exact h.funds

theorem Funded.step {funding : Nat} (h : p.Funded funding) (hOp : p.Enabled op)
    (hRestaked : p.restaked op = 0) : (p.step op).Funded funding := by
  refine ⟨h.scheduled.step hOp, ?_, ?_⟩
  · rcases op.start_or with ⟨slot, rfl⟩ | hNot
    · exact h.mints
    · rw [(p.step_schedule hNot).1]
      exact h.mints
  · rw [step_funding hOp, hRestaked]
    exact h.funds

theorem step_totalStaked_le (hOp : p.Enabled op) (hRestaked : p.restaked op = 0) :
    (p.step op).state.totalStaked ≤ p.state.totalStaked ∨
      0 < p.config.startSlot ∧ p.config.startSlot < op.slot := by
  rw [step_totalStaked p op hOp]
  cases op with
  | stake slot u amount => exact Or.inr ⟨hOp.1, hOp.2.1⟩
  | unstake slot u amount => exact Or.inl (Nat.sub_le _ _)
  | compound slot u =>
    have hNone : (p.tick slot).owed u = 0 := hRestaked
    have hSame : p.config.credited ((p.tick slot).owed u) = 0 := by rw [hNone, PoolConfig.credited_zero]
    exact Or.inl (Nat.le_of_eq (congrArg (p.state.totalStaked + ·) hSame))
  | _ => exact Or.inl (Nat.le_refl _)

/-- Nobody is staked in the first slot of the schedule, so it emits nothing. -/
structure Delayed (p : Pool) : Prop where
  idle : p.config.startSlot = 0 → p.state.totalStaked = 0
  late : 0 < p.state.totalStaked → p.config.startSlot < p.state.lastRewardSlot
  should_le : 0 < p.config.startSlot → p.state.shouldTotalPaid ≤ p.config.rewardPerSlot *
    (min p.state.lastRewardSlot p.config.endSlot - (p.config.startSlot + 1))

theorem Delayed.tick (h : p.Delayed) (hScheduled : p.Scheduled) (slot : Nat) :
    (p.tick slot).Delayed := by
  refine ⟨h.idle, fun hTotal => ?_, fun hRun => ?_⟩
  · rcases hScheduled.last_tick slot with ⟨hIdle, -⟩ | ⟨-, -, hLast⟩
    · exact absurd (h.idle hIdle) (Nat.ne_of_gt hTotal)
    · rw [hLast]
      exact Nat.lt_of_lt_of_le (h.late hTotal) (Nat.le_max_left _ _)
  · have hEnds := hScheduled.ends hRun
    rcases hScheduled.last_tick slot with ⟨hIdle, -⟩ | ⟨-, -, hLast⟩
    · exact absurd hIdle (Nat.ne_of_gt hRun)
    change p.state.shouldTotalPaid + p.state.accruing p.config slot ≤ p.config.rewardPerSlot *
      (min (p.tick slot).state.lastRewardSlot p.config.endSlot - (p.config.startSlot + 1))
    rw [hLast]
    rcases Nat.eq_zero_or_pos p.state.totalStaked with hEmpty | hTotal
    · have hNone : p.state.accruing p.config slot = 0 := if_pos (Or.inr (Or.inr hEmpty))
      rw [hNone]
      exact (h.should_le hRun).trans (Nat.mul_le_mul_left _ (by omega))
    · have hLate := h.late hTotal
      have hSplit : min (max p.state.lastRewardSlot slot) p.config.endSlot - (p.config.startSlot + 1) =
          (min p.state.lastRewardSlot p.config.endSlot - (p.config.startSlot + 1)) +
            (min (max p.state.lastRewardSlot slot) p.config.endSlot -
              min p.state.lastRewardSlot p.config.endSlot) := by
        omega
      rw [hSplit, Nat.mul_add]
      exact Nat.add_le_add (h.should_le hRun) (p.accruing_le slot)

theorem Delayed.start (hScheduled : p.Scheduled) (h : p.Delayed) (hIdle : p.config.startSlot = 0)
    (slot : Nat) : (p.step (.start slot)).Delayed := by
  have hEmpty : (p.step (.start slot)).state.totalStaked = 0 := h.idle hIdle
  have hZero : (p.step (.start slot)).state.shouldTotalPaid = 0 := (hScheduled.idle hIdle).2
  refine ⟨fun _ => hEmpty, fun hTotal => ?_, fun _ => ?_⟩
  · exact absurd hEmpty (Nat.ne_of_gt hTotal)
  · rw [hZero]
    exact Nat.zero_le _

theorem Delayed.step (h : p.Delayed) (hScheduled : p.Scheduled) (hOp : p.Enabled op)
    (hRestaked : p.restaked op = 0) : (p.step op).Delayed := by
  rcases op.start_or with ⟨slot, rfl⟩ | hNot
  · exact h.start hScheduled hOp slot
  · have hTick := h.tick hScheduled op.slot
    obtain ⟨hConfig, hLast⟩ := p.step_schedule hNot
    have hGrowth := step_totalStaked_le hOp hRestaked
    constructor <;> rw [hConfig]
    · intro hIdle
      have hEmpty := h.idle hIdle
      omega
    · rw [hLast]
      intro hTotal
      rcases hGrowth with hLe | ⟨hRun, hAfter⟩
      · exact hTick.late (Nat.lt_of_lt_of_le hTotal hLe)
      · rcases hScheduled.last_tick op.slot with ⟨hIdle, -⟩ | ⟨-, -, hMax⟩
        · exact absurd hIdle (Nat.ne_of_gt hRun)
        · rw [hMax]
          exact Nat.lt_of_lt_of_le hAfter (Nat.le_max_right _ _)
    · rw [hLast, (p.step_accrual hNot).2]
      exact hTick.should_le

theorem Delayed.should_add_le (h : p.Delayed) (hScheduled : p.Scheduled)
    (hRun : 0 < p.config.startSlot) {funding : Nat}
    (hBudget : p.config.budget ≤ funding + p.config.rewardPerSlot) :
    p.state.shouldTotalPaid ≤ funding := by
  have hEnds := hScheduled.ends hRun
  calc
    p.state.shouldTotalPaid ≤ p.config.rewardPerSlot *
        (min p.state.lastRewardSlot p.config.endSlot - (p.config.startSlot + 1)) := h.should_le hRun
    _ ≤ p.config.rewardPerSlot * (p.config.duration * slotsPerDay - 1) :=
      Nat.mul_le_mul_left _ (by omega)
    _ = p.config.budget - p.config.rewardPerSlot := Nat.mul_sub_one _ _
    _ ≤ funding := Nat.sub_le_of_le_add hBudget

structure Covered (funding : Nat) (p : Pool) : Prop extends p.Funded funding where
  delayed : p.Delayed
  budget : p.config.startSlot ≠ 0 → p.config.budget ≤ funding + p.config.rewardPerSlot

theorem Covered.step {funding : Nat} (h : p.Covered funding) (hOp : p.Enabled op)
    (hRestaked : p.restaked op = 0) (hStart : ∀ slot, op = .start slot → p.config.budget ≤
      availableRewardTokens p.config p.state + p.state.paidRewards + p.config.rewardPerSlot) :
    (p.step op).Covered funding := by
  refine ⟨h.toFunded.step hOp hRestaked, h.delayed.step h.scheduled hOp hRestaked, ?_⟩
  rcases op.start_or with ⟨slot, rfl⟩ | hNot
  · intro _
    have hEnough := hStart slot rfl
    rw [h.available_eq] at hEnough
    exact hEnough
  · rw [(p.step_schedule hNot).1]
    exact h.budget

theorem Covered.rewardsCovered {funding : Nat} (h : p.Covered funding) (hHolds : w.Holds P p) :
    RewardsCovered P w := by
  intro c s hConfig hState hStarted
  obtain rfl := hHolds.config_eq rfl hConfig
  obtain rfl := hHolds.state_eq rfl hState
  rw [h.available_eq]
  exact h.delayed.should_add_le h.scheduled (Nat.pos_of_ne_zero hStarted) (h.budget hStarted)

theorem restaked_of_kind (p : Pool) (h : op.kind ≠ .compoundReward) : p.restaked op = 0 := by
  cases op with
  | compound slot u => exact absurd rfl h
  | _ => rfl

end Pool

/-- In every run whose start is funded but for one slot, the pool is funded in every state after it. -/
theorem rewardsCovered_of_startFunded {a : CreatePool} {args : CreatePoolArgs} {actions : List Action}
    {c : PoolConfig} (hReach : w₀.Reachable R) (hCreate : createPool R env a args w₀ = .ok w₁)
    (hConfig : w₁.poolConfig a.pool.config = some c) (hMints : c.stakeMint ≠ c.rewardMint)
    (hRun : ∀ x ∈ actions, x.OnPool a.pool [.startReward, .stake, .unstake, .claimReward])
    (hFunded : Run.Along (next R) (OnSuccess R a.pool (StartFunded a.pool)) w₁ actions) :
    RewardsCovered a.pool (Run.run (next R) w₁ actions) := by
  obtain ⟨stakeMint, rewardMint, -, hHolds⟩ := createPool_holds hReach hCreate
  obtain rfl := hHolds.config_eq rfl hConfig
  suffices hCovered : ∃ p, (Run.run (next R) w₁ actions).Holds a.pool p ∧
      p.Covered args.initialFunding by
    obtain ⟨p, hAfter, hCovered⟩ := hCovered
    exact hCovered.rewardsCovered hAfter
  refine Run.run_invariant
    (I := fun w => ∃ p, w.Holds a.pool p ∧ p.Covered args.initialFunding)
    (Q := fun w x => x.OnPool a.pool [.startReward, .stake, .unstake, .claimReward] ∧
      OnSuccess R a.pool (StartFunded a.pool) w x) ?_
    ⟨_, hHolds, ⟨⟨Pool.fresh_scheduled rfl _, hMints, Nat.add_zero _⟩,
      ⟨fun _ => rfl, fun hTotal => absurd hTotal (Nat.lt_irrefl 0), fun _ => Nat.zero_le _⟩,
      fun hStarted => absurd rfl hStarted⟩⟩
    ((Run.along_of_forall fun x hx _ => hRun x hx).and hFunded)
  rintro w x ⟨p, hView, hCovered⟩ ⟨hOn, hStarts⟩
  rcases next_holds (R := R) hView hOn with
    ⟨hSame, -⟩ | ⟨tx, op, rfl, hMatched, hKind, hOk, hOp, hEnabled, hAfter⟩
  · exact ⟨p, hSame, hCovered⟩
  · refine ⟨p.step op, hAfter, hCovered.step hEnabled (p.restaked_of_kind ?_) fun slot hStart => ?_⟩
    · rw [Instruction.kind_op hOp]
      intro hCompound
      rw [hCompound] at hKind
      simp at hKind
    · have hFinds := hStarts hMatched ⟨_, hOk⟩
      obtain ⟨env', ix⟩ := tx
      subst hStart
      cases ix <;> cases hOp
      exact hFinds _ _ hView.config hView.state

namespace Localnet

def twoStakes : List Tx := [start 0 0, stake 0 11 0 10, stake 0 21 1 10]

theorem twoStakes_startFunded : Run.Along (next .reference)
    (OnSuccess .reference (createAccounts coin 0).pool (StartFunded (createAccounts coin 0).pool))
    (dayPoolCreated coin 9 215999) (twoStakes.map .call) := by
  refine ⟨fun _ _ => ?_, fun _ _ => trivial, fun _ _ => trivial, trivial⟩
  rintro c s ⟨⟩ ⟨⟩
  decide

end Localnet

open Localnet in
theorem rewardsCovered_of_startFunded_twoStakes :
    RewardsCovered (createAccounts coin 0).pool (run (dayPoolCreated coin 9 215999) twoStakes) :=
  have hConfig : (dayPoolCreated coin 9 215999).poolConfig (config 0) =
      some ((createAccounts coin 0).poolConfig (dayPool 215999) ⟨9⟩ ⟨9⟩) := rfl
  rewardsCovered_of_startFunded (reachable_run coin 9 [open_]) (dayPool_created coin 9 215999 rfl)
    hConfig (by decide) (onPool_of_matched (by decide)) twoStakes_startFunded

open Localnet in
theorem not_rewardsCovered_twoStakes : ¬ ∀ (R : Runtime) (w₀ w₁ : World) (env : Env) (a : CreatePool)
    (args : CreatePoolArgs) (actions : List Action) (c : PoolConfig), w₀.Reachable R →
    createPool R env a args w₀ = .ok w₁ → w₁.poolConfig a.pool.config = some c →
    c.stakeMint ≠ c.rewardMint →
    (∀ x ∈ actions, x.OnPool a.pool [.startReward, .stake, .unstake, .claimReward]) →
    RewardsCovered a.pool (Run.run (next R) w₁ actions) := by
  intro hAll
  have hCovered := hAll .reference (dayPoolOpen coin 9) (dayPoolCreated coin 9 5)
    (Localnet.env 0 [creator, config 0, state 0]) (createAccounts coin 0) (dayPool 5)
    (twoStakes.map .call) _ (reachable_run coin 9 [open_]) (dayPool_created coin 9 5 rfl) rfl
    (by decide) (onPool_of_matched (by decide)) _ _ rfl rfl (by decide)
  revert hCovered
  decide

end StakingOnSolana
