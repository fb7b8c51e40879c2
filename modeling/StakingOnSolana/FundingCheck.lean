import StakingOnSolana.Funding
import StakingOnSolana.RewardAccounting

/-! # The helper `insufficient_rewards`

Only commented-out code calls the helper. It compares the funds of a pool with what the pool has
accrued and has still to emit, and its projection is right along every continuation of a run. But
`get_multiplier` looks at its second slot first, and here that slot is the end of the pool: once an
update was made after the end, the subtraction of the two slots underflows.
-/
set_option autoImplicit false

namespace StakingOnSolana

variable {R : Runtime} {env : Env} {w w₀ w₁ : World} {P : PoolAddress} {p : Pool} {op : PoolOp}

namespace PoolState

def slotsLeft (c : PoolConfig) (s : PoolState) : Nat :=
  if c.startSlot = 0 then c.duration * slotsPerDay else c.endSlot - s.lastRewardSlot

def committed (c : PoolConfig) (s : PoolState) : Nat :=
  s.shouldTotalPaid + c.rewardPerSlot * s.slotsLeft c

/-- Not started yet, or not updated after the end. -/
def InSchedule (c : PoolConfig) (s : PoolState) : Prop :=
  c.startSlot = 0 ∨ s.lastRewardSlot ≤ c.endSlot

end PoolState

theorem remainingEmission_eq {c : PoolConfig} {s : PoolState} (hInside : s.InSchedule c)
    (hFits : c.rewardPerSlot * s.slotsLeft c < 2 ^ 64) :
    remainingEmission c s = .ok (c.rewardPerSlot * s.slotsLeft c) := by
  unfold remainingEmission
  unfold PoolState.slotsLeft at hFits ⊢
  split at hFits
  · rename_i hIdle
    rw [if_pos hIdle, if_pos hIdle]
    have hDay : c.rewardPerSlot * c.duration * slotsPerDay = c.rewardPerSlot * (c.duration * slotsPerDay) :=
      Nat.mul_assoc _ _ _
    have hDuration : c.rewardPerSlot * c.duration ≤ c.rewardPerSlot * c.duration * slotsPerDay :=
      Nat.le_mul_of_pos_right _ (by decide)
    simp only [Checked.bind_eq_ok, mulU64_eq_ok]
    exact ⟨_, ⟨by omega, rfl⟩, by omega, hDay⟩
  · rename_i hRun
    rw [if_neg hRun, if_neg hRun]
    have hLast := hInside.resolve_left hRun
    have hSlots : getMultiplier s.lastRewardSlot c.endSlot c.endSlot =
        .ok (c.endSlot - s.lastRewardSlot) := by
      unfold getMultiplier
      rw [if_pos (Nat.le_refl _)]
      exact subU64_eq_ok.mpr ⟨hLast, rfl⟩
    simp only [Checked.bind_eq_ok, mulU64_eq_ok]
    exact ⟨_, hSlots, hFits, rfl⟩

theorem insufficientRewards_eq {c : PoolConfig} {s : PoolState} (hInside : s.InSchedule c)
    (hFunds : availableRewardTokens c s + s.paidRewards < 2 ^ 64) (hFits : s.committed c < 2 ^ 64) :
    insufficientRewards c s = .ok (s.committed c - (availableRewardTokens c s + s.paidRewards)) := by
  have hEmission := remainingEmission_eq hInside (Nat.lt_of_le_of_lt (Nat.le_add_left _ _) hFits)
  simp only [insufficientRewards, Checked.bind_eq_ok, addU64_eq_ok]
  refine ⟨_, ⟨hFunds, rfl⟩, _, hEmission, _, ⟨hFits, rfl⟩, ?_⟩
  change (if _ ≥ s.committed c then _ else _) = _
  split
  · rename_i hCovered
    rw [Nat.sub_eq_zero_of_le hCovered]
    rfl
  · rename_i hShort
    exact subU64_eq_ok.mpr ⟨Nat.le_of_not_le hShort, rfl⟩

/-- After the end the projection underflows: the case of an earlier `to` is taken first. -/
theorem insufficientRewards_ne_ok {c : PoolConfig} {s : PoolState} (hOutside : ¬s.InSchedule c) (d : Nat) :
    insufficientRewards c s ≠ .ok d := by
  obtain ⟨hRun, hLate⟩ := not_or.mp hOutside
  intro h
  simp only [insufficientRewards, remainingEmission, if_neg hRun, getMultiplier, Nat.le_refl, if_true,
    Checked.bind_eq_ok, subU64_eq_ok] at h
  obtain ⟨-, -, -, ⟨-, ⟨hLast, -⟩, -⟩, -⟩ := h
  exact hLate hLast

namespace Pool

theorem Scheduled.committed_le (h : p.Scheduled) : p.state.committed p.config ≤ p.config.budget := by
  unfold PoolState.committed PoolState.slotsLeft
  split
  · rename_i hIdle
    rw [(h.idle hIdle).2, Nat.zero_add]
    exact Nat.le_refl _
  · rename_i hRun
    have hStarted := Nat.pos_of_ne_zero hRun
    have hEnds := h.ends hStarted
    have hBegun := h.begun hStarted
    calc
      p.state.shouldTotalPaid + p.config.rewardPerSlot * (p.config.endSlot - p.state.lastRewardSlot)
        ≤ p.config.rewardPerSlot * (min p.state.lastRewardSlot p.config.endSlot - p.config.startSlot) +
            p.config.rewardPerSlot * (p.config.endSlot - p.state.lastRewardSlot) :=
          Nat.add_le_add_right (h.within hStarted) _
      _ = p.config.rewardPerSlot * (min p.state.lastRewardSlot p.config.endSlot - p.config.startSlot +
            (p.config.endSlot - p.state.lastRewardSlot)) := (Nat.mul_add _ _ _).symm
      _ ≤ p.config.budget := Nat.mul_le_mul_left _ (by omega)

theorem committed_tick (h : p.Scheduled) (slot : Nat) :
    (p.tick slot).state.committed p.config ≤ p.state.committed p.config := by
  by_cases hSame : slot ≤ p.state.lastRewardSlot ∨ p.state.lastRewardSlot = 0
  · rw [tick_eq_self hSame]
  · obtain ⟨hLate, hLast⟩ := not_or.mp hSame
    have hRun : p.config.startSlot ≠ 0 := fun hIdle => hLast (h.idle hIdle).1
    have hNew : (p.tick slot).state.lastRewardSlot = slot := by
      change (if p.state.lastRewardSlot = 0 then 0 else max p.state.lastRewardSlot slot) = slot
      rw [if_neg hLast]
      omega
    have hAccruing : p.state.accruing p.config slot ≤
        p.config.rewardPerSlot * p.config.emittingSlots p.state.lastRewardSlot slot := by
      unfold PoolState.accruing
      split
      · exact Nat.zero_le _
      · exact Nat.le_of_eq (Nat.mul_comm _ _)
    unfold PoolState.committed PoolState.slotsLeft
    rw [if_neg hRun, if_neg hRun, hNew]
    calc
      (p.tick slot).state.shouldTotalPaid + p.config.rewardPerSlot * (p.config.endSlot - slot)
        ≤ p.state.shouldTotalPaid +
            p.config.rewardPerSlot * p.config.emittingSlots p.state.lastRewardSlot slot +
              p.config.rewardPerSlot * (p.config.endSlot - slot) :=
          Nat.add_le_add_right (Nat.add_le_add_left hAccruing _) _
      _ = p.state.shouldTotalPaid + p.config.rewardPerSlot *
            (p.config.emittingSlots p.state.lastRewardSlot slot + (p.config.endSlot - slot)) := by
          rw [Nat.add_assoc, Nat.mul_add]
      _ ≤ p.state.shouldTotalPaid +
            p.config.rewardPerSlot * (p.config.endSlot - p.state.lastRewardSlot) := by
          refine Nat.add_le_add_left (Nat.mul_le_mul_left _ ?_) _
          unfold PoolConfig.emittingSlots
          omega

theorem committed_step (h : p.Scheduled) (hOp : p.Enabled op) :
    (p.step op).state.committed (p.step op).config ≤ p.state.committed p.config := by
  rcases op.start_or with ⟨slot, rfl⟩ | hNot
  · -- A start turns the whole duration into the slots between the new start and the new end.
    have hIdle : p.config.startSlot = 0 := hOp
    have hSlots : (p.schedule (slot + 10)).state.slotsLeft (p.schedule (slot + 10)).config =
        p.state.slotsLeft p.config := by
      unfold PoolState.slotsLeft
      rw [if_pos hIdle]
      simp [schedule]
    change p.state.shouldTotalPaid + p.config.rewardPerSlot *
      (p.schedule (slot + 10)).state.slotsLeft (p.schedule (slot + 10)).config ≤ _
    rw [hSlots]
    exact Nat.le_refl _
  · obtain ⟨hConfig, hLast⟩ := p.step_schedule hNot
    refine Nat.le_trans (Nat.le_of_eq ?_) (committed_tick h op.slot)
    unfold PoolState.committed PoolState.slotsLeft
    rw [hConfig, hLast, (p.step_accrual hNot).2]

end Pool

def fundingKinds : List Instruction.Kind := [.startReward, .stake, .unstake, .claimReward]

/-- What the helper is for, in the state of `w`: it returns, its deficit completes the funds for
every continuation, and there is none where the funds cover every slot left. -/
def ChecksFunding (R : Runtime) (P : PoolAddress) (w : World) : Prop :=
  ∀ c s, w.poolConfig P.config = some c → w.poolState P.state = some s →
    ∃ d, insufficientRewards c s = .ok d ∧
      (∀ actions : List Action, (∀ x ∈ actions, x.OnPool P fundingKinds) →
        ∀ c' s', (Run.run (next R) w actions).poolConfig P.config = some c' →
          (Run.run (next R) w actions).poolState P.state = some s' →
          s'.shouldTotalPaid ≤ availableRewardTokens c' s' + s'.paidRewards + d) ∧
      (s.shouldTotalPaid + c.rewardPerSlot * s.slotsLeft c ≤
        availableRewardTokens c s + s.paidRewards → d = 0)

def InSchedule (P : PoolAddress) (w : World) : Prop :=
  ∀ c s, w.poolConfig P.config = some c → w.poolState P.state = some s → s.InSchedule c

theorem run_funded {funding owing : Nat} {actions : List Action} (hHolds : w.Holds P p)
    (hFunded : p.Funded funding) (hOwing : p.state.committed p.config ≤ owing)
    (hRun : ∀ x ∈ actions, x.OnPool P fundingKinds) :
    ∃ q, (Run.run (next R) w actions).Holds P q ∧ q.Funded funding ∧
      q.state.committed q.config ≤ owing := by
  refine run_holds (R := R) (fun q op hKind hI hOp => ?_) hHolds ⟨hFunded, hOwing⟩ hRun
  have hRestaked : q.restaked op = 0 := by
    apply q.restaked_of_kind
    intro hCompound
    rw [hCompound] at hKind
    revert hKind
    decide
  exact ⟨hI.1.step hOp hRestaked, (Pool.committed_step hI.1.scheduled hOp).trans hI.2⟩

theorem Pool.Funded.checksFunding_iff {funding : Nat} (h : p.Funded funding) (hHolds : w.Holds P p)
    (hFunding : funding < 2 ^ 64) (hBudget : p.config.budget < 2 ^ 64) :
    ChecksFunding R P w ↔ p.state.InSchedule p.config := by
  constructor
  · intro hChecks
    obtain ⟨d, hReturns, -⟩ := hChecks _ _ hHolds.config hHolds.state
    by_contra hOutside
    exact insufficientRewards_ne_ok hOutside d hReturns
  · intro hInside c s hConfig hState
    obtain rfl := hHolds.config_eq rfl hConfig
    obtain rfl := hHolds.state_eq rfl hState
    have hFits : p.state.committed p.config < 2 ^ 64 :=
      Nat.lt_of_le_of_lt h.scheduled.committed_le hBudget
    refine ⟨_, insufficientRewards_eq hInside (h.available_eq ▸ hFunding) hFits, ?_, ?_⟩
    · intro actions hRun c' s' hConfig' hState'
      obtain ⟨q, hLater, hKept, hOwing⟩ := run_funded (R := R) hHolds h (Nat.le_refl _) hRun
      obtain rfl := hLater.config_eq rfl hConfig'
      obtain rfl := hLater.state_eq rfl hState'
      have hAccrued : q.state.shouldTotalPaid ≤ q.state.committed q.config := Nat.le_add_right _ _
      rw [hKept.available_eq, h.available_eq]
      omega
    · exact fun hCovered => Nat.sub_eq_zero_of_le hCovered

/-- In every state of every run the helper checks the funding exactly if the pool has not started
or was not updated after its end. -/
theorem checksFunding_iff_inSchedule {a : CreatePool} {args : CreatePoolArgs} {actions : List Action}
    {c : PoolConfig} (hReach : w₀.Reachable R) (hCreate : createPool R env a args w₀ = .ok w₁)
    (hConfig : w₁.poolConfig a.pool.config = some c) (hMints : c.stakeMint ≠ c.rewardMint)
    (hBudget : c.rewardPerSlot * (c.duration * slotsPerDay) < 2 ^ 63)
    (hFunding : args.initialFunding < 2 ^ 63)
    (hRun : ∀ x ∈ actions, x.OnPool a.pool fundingKinds) :
    ChecksFunding R a.pool (Run.run (next R) w₁ actions) ↔
      InSchedule a.pool (Run.run (next R) w₁ actions) := by
  obtain ⟨stakeMint, rewardMint, -, hFresh⟩ := createPool_holds hReach hCreate
  obtain rfl := hFresh.config_eq rfl hConfig
  obtain ⟨p, hHolds, hFunded, -⟩ := run_funded (R := R) hFresh
    ⟨Pool.fresh_scheduled rfl _, hMints, Nat.add_zero _⟩ (Nat.le_refl _) hRun
  obtain ⟨p', hHolds', hBacked⟩ := run_backed hReach hCreate hConfig hRun
  obtain rfl := hHolds.unique hHolds'
  have hSmall : p'.config.budget < 2 ^ 64 := by
    rw [hBacked.budget_eq]
    exact Nat.lt_trans hBudget (by decide)
  rw [hFunded.checksFunding_iff hHolds (Nat.lt_trans hFunding (by decide)) hSmall]
  constructor
  · intro hInside c' s' hConfig' hState'
    obtain rfl := hHolds.config_eq rfl hConfig'
    obtain rfl := hHolds.state_eq rfl hState'
    exact hInside
  · intro hInside
    exact hInside _ _ hHolds.config hHolds.state

namespace Localnet

def claimedAfterEnd : List Tx := [start 0 0, stake 0 11 0 10, claim 0 216011 0]

end Localnet

open Localnet in
theorem checksFunding_iff_inSchedule_claimedAfterEnd :
    ChecksFunding .reference (createAccounts coin 0).pool
        (run (dayPoolCreated coin 9 216000) claimedAfterEnd) ↔
      InSchedule (createAccounts coin 0).pool (run (dayPoolCreated coin 9 216000) claimedAfterEnd) :=
  have hConfig : (dayPoolCreated coin 9 216000).poolConfig (config 0) =
      some ((createAccounts coin 0).poolConfig (dayPool 216000) ⟨9⟩ ⟨9⟩) := rfl
  checksFunding_iff_inSchedule (reachable_run coin 9 [open_]) (dayPool_created coin 9 216000 rfl) hConfig
    (by decide) (by decide) (by decide) (onPool_of_matched (by decide))

open Localnet in
theorem not_checksFunding_claimedAfterEnd : ¬ ∀ (R : Runtime) (w₀ w₁ : World) (env : Env)
    (a : CreatePool) (args : CreatePoolArgs) (actions : List Action) (c : PoolConfig),
    w₀.Reachable R → createPool R env a args w₀ = .ok w₁ → w₁.poolConfig a.pool.config = some c →
    c.stakeMint ≠ c.rewardMint → c.rewardPerSlot * (c.duration * slotsPerDay) < 2 ^ 63 →
    args.initialFunding < 2 ^ 63 → (∀ x ∈ actions, x.OnPool a.pool fundingKinds) →
    ChecksFunding R a.pool (Run.run (next R) w₁ actions) := by
  intro hAll
  have hChecks := hAll .reference (dayPoolOpen coin 9) (dayPoolCreated coin 9 216000)
    (Localnet.env 0 [creator, config 0, state 0]) (createAccounts coin 0) (dayPool 216000)
    (claimedAfterEnd.map .call) _ (reachable_run coin 9 [open_]) (dayPool_created coin 9 216000 rfl) rfl
    (by decide) (by decide) (by decide) (onPool_of_matched (by decide))
  have hConfig : (run (dayPoolCreated coin 9 216000) claimedAfterEnd).poolConfig (config 0) =
      some { (createAccounts coin 0).poolConfig (dayPool 216000) ⟨9⟩ ⟨9⟩ with
        startSlot := 10, endSlot := 216010 } := by decide
  have hState : (run (dayPoolCreated coin 9 216000) claimedAfterEnd).poolState (state 0) =
      some ⟨10, 216011, 21599, 10, 215999, 215990, 0⟩ := by decide +kernel
  obtain ⟨d, hReturns, -⟩ := hChecks _ _ hConfig hState
  exact insufficientRewards_ne_ok (by unfold PoolState.InSchedule; decide) d hReturns

end StakingOnSolana
