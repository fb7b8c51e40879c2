import StakingOnSolana.Custody

/-! # What `stop_reward` settles

A stop should end the emission and take out the surplus only. It does not write the end slot
back and does not take the refund off the ledger. The theorems say when the accrual
nevertheless stays as it is, and when a refund nevertheless leaves enough behind.
-/
set_option autoImplicit false

namespace StakingOnSolana

variable {R : Runtime} {env : Env} {w w' w₀ w₁ : World} {P : PoolAddress} {p : Pool} {op : PoolOp}

def AccruedAs (P : PoolAddress) (s : PoolState) (w : World) : Prop :=
  ∀ s', w.poolState P.state = some s' →
    s'.accTokenPerShare = s.accTokenPerShare ∧ s'.shouldTotalPaid = s.shouldTotalPaid

/-- The call finds nothing to emit: no slot since the last update, no schedule, no stake, no slot
left in the schedule, or no rate. -/
def EmitsNothing (P : PoolAddress) (w : World) (tx : Tx) : Prop :=
  ∀ c s, w.poolConfig P.config = some c → w.poolState P.state = some s →
    tx.env.slot ≤ s.lastRewardSlot ∨ s.lastRewardSlot = 0 ∨ s.totalStaked = 0 ∨
      c.endSlot ≤ s.lastRewardSlot ∨ c.rewardPerSlot = 0

theorem World.Holds.accruedAs_iff (h : w.Holds P p) (s : PoolState) :
    AccruedAs P s w ↔ p.state.accTokenPerShare = s.accTokenPerShare ∧
      p.state.shouldTotalPaid = s.shouldTotalPaid := by
  constructor
  · exact fun hAccrued => hAccrued _ h.state
  · intro hEq s' hs'
    rw [h.state_eq rfl hs']
    exact hEq

theorem World.Holds.emitsNothing_iff (h : w.Holds P p) (tx : Tx) :
    EmitsNothing P w tx ↔ p.state.accruing p.config tx.env.slot = 0 := by
  rw [PoolState.accruing_eq_zero_iff]
  constructor
  · exact fun hNothing => hNothing _ _ h.config h.state
  · intro hIdle c s hc hs
    rw [h.config_eq rfl hc, h.state_eq rfl hs]
    exact hIdle

def afterStop : List Instruction.Kind :=
  [.stake, .unstake, .claimReward, .compoundReward, .stopReward]

theorem accruedAs_next_iff {a : Action} {s : PoolState} (hHolds : w.Holds P p)
    (hOn : a.OnPool P afterStop) (hAccrued : AccruedAs P s w) :
    AccruedAs P s (next R w a) ↔ OnSuccess R P (EmitsNothing P) w a := by
  obtain ⟨hAcc, hShould⟩ := (hHolds.accruedAs_iff s).mp hAccrued
  rcases next_holds (R := R) hHolds hOn with
    ⟨hSame, hPasses⟩ | ⟨tx, op, rfl, hMatched, hKind, hOk, hOp, -, hAfter⟩
  · exact iff_of_true ((hSame.accruedAs_iff s).mpr ⟨hAcc, hShould⟩) (onSuccess_of_passes hPasses)
  · have hNotStart : ∀ slot, op ≠ .start slot := by
      rintro slot rfl
      cases hix : tx.instruction <;> rw [hix] at hOp hKind <;> cases hOp
      simp [Instruction.kind, afterStop] at hKind
    have hStep := p.step_accrual hNotStart
    rw [Instruction.slot_op hOp] at hStep
    rw [hAfter.accruedAs_iff, hStep.1, hStep.2, onSuccess_call_iff hMatched ⟨_, hOk⟩,
      hHolds.emitsNothing_iff, ← hAcc, ← hShould]
    -- The reward is zero exactly if `should_total_paid` stays; then the accumulator stays too.
    change p.state.accTokenPerShare + _ = _ ∧ p.state.shouldTotalPaid + _ = _ ↔ _
    constructor
    · rintro ⟨-, hSame⟩
      omega
    · intro hNone
      rw [hNone, Nat.zero_mul, Nat.zero_div]
      exact ⟨rfl, rfl⟩

/-- After a stop, the accrual stays as it is in every continuation exactly if no call on the pool
finds anything to emit. -/
theorem accruedAs_iff_emitsNothing {a : StopReward} {k : Pubkey} {c : PoolConfig} {s : PoolState}
    {actions : List Action} (hReach : w₀.Reachable R) (hConfig : w₀.poolConfig k = some c)
    (hMatched : (Instruction.stopReward a).Matched (c.address k))
    (hStop : stopReward R env a w₀ = .ok w₁) (hState : w₁.poolState c.stateAddr = some s)
    (hRun : ∀ x ∈ actions, x.OnPool (c.address k) afterStop) :
    Run.Along (next R) (fun w x => AccruedAs (c.address k) s (next R w x)) w₁ actions ↔
      Run.Along (next R) (OnSuccess R (c.address k) (EmitsNothing (c.address k))) w₁ actions := by
  obtain ⟨p, hHolds, rfl⟩ := World.Holds.of_reachable hReach hConfig
  obtain ⟨-, hAfter⟩ := stopReward_holds hHolds hMatched hStop
  have hStart : AccruedAs (p.config.address k) s w₁ := by
    intro s' hs'
    cases hState.symm.trans hs'
    exact ⟨rfl, rfl⟩
  refine Run.along_iff_of_step (I := fun w => ∃ p', w.Holds (p.config.address k) p') ?_ ?_
    ⟨_, hAfter⟩ hStart (Run.along_of_forall fun x hx _ => hRun x hx)
  · rintro w x ⟨p', hView⟩ hOn
    rcases next_holds (R := R) hView hOn with ⟨hSame, -⟩ | ⟨_, op, -, -, -, -, -, -, hNext⟩
    · exact ⟨p', hSame⟩
    · exact ⟨_, hNext⟩
  · rintro w x ⟨p', hView⟩ hOn hAccrued
    exact accruedAs_next_iff hView hOn hAccrued

namespace Localnet

def stopAccounts : StopReward := ⟨admin, config 0, rewardVault 0, creatorReward 0, state 0⟩

def stoppedPool : World := next .reference stakedPool (.call (stop 0 111))

def startedConfig : PoolConfig :=
  { (createAccounts coin 0).poolConfig (dayPool 216000) ⟨9⟩ ⟨9⟩ with
    startSlot := 10, endSlot := 216010 }

def stoppedState : PoolState :=
  { PoolState.zero with
    totalStaked := 10, lastRewardSlot := 111, accTokenPerShare := 10, rewardAmount := 216000,
    shouldTotalPaid := 100 }

def joined : List Tx := [stake 0 211 1 10]

theorem stakedPool_stopped : stopReward .reference (Localnet.env 111 [admin]) stopAccounts
    stakedPool = .ok stoppedPool := by
  have hOk : ((stop 0 111).instruction.exec .reference (stop 0 111).env stakedPool).isOk = true := rfl
  exact exec_of_isOk hOk

end Localnet

open Localnet in
theorem accruedAs_iff_emitsNothing_stopped :
    Run.Along (next .reference) (fun w x => AccruedAs (startedConfig.address (config 0))
        stoppedState (next .reference w x)) stoppedPool (joined.map .call) ↔
      Run.Along (next .reference) (OnSuccess .reference (startedConfig.address (config 0))
        (EmitsNothing (startedConfig.address (config 0)))) stoppedPool (joined.map .call) :=
  accruedAs_iff_emitsNothing (reachable_run coin 9 _) (k := config 0) (c := startedConfig) rfl (by decide)
    stakedPool_stopped rfl (onPool_of_matched (by decide))

open Localnet in
/-- The stake finds the hundred slots since the stop to emit. -/
theorem not_accruedAs_stopped : ¬ ∀ (R : Runtime) (w₀ w₁ : World) (env : Env) (a : StopReward)
    (k : Pubkey) (c : PoolConfig) (s : PoolState) (actions : List Action), w₀.Reachable R →
    w₀.poolConfig k = some c → 0 < c.startSlot → (Instruction.stopReward a).Matched (c.address k) →
    stopReward R env a w₀ = .ok w₁ → w₁.poolState c.stateAddr = some s →
    (∀ x ∈ actions, x.OnPool (c.address k) afterStop) →
    Run.Along (next R) (fun w x => AccruedAs (c.address k) s (next R w x)) w₁ actions := by
  intro hAll
  obtain ⟨hJoined, -⟩ := hAll .reference stakedPool stoppedPool _ stopAccounts (config 0) startedConfig
    stoppedState (joined.map .call) (reachable_run coin 9 _) rfl (by decide) (by decide)
    stakedPool_stopped rfl (onPool_of_matched (by decide))
  have hEq := hJoined _ rfl
  revert hEq
  decide

def StopCovers (R : Runtime) (P : PoolAddress) (w : World) (tx : Tx) : Prop :=
  tx.instruction.kind = .stopReward → ∀ s, (next R w (.call tx)).poolState P.state = some s →
    s.shouldTotalPaid ≤ (next R w (.call tx)).bank.amount P.rewardVault + s.paidRewards

def StopFunded (P : PoolAddress) (w : World) (tx : Tx) : Prop :=
  tx.instruction.kind = .stopReward → ∀ s, w.poolState P.state = some s →
    s.rewardAmount ≤ w.bank.amount P.rewardVault

theorem World.Holds.stopFunded_iff (h : w.Holds P p) {tx : Tx}
    (hKind : tx.instruction.kind = .stopReward) :
    StopFunded P w tx ↔ p.state.rewardAmount ≤ w.bank.amount P.rewardVault := by
  constructor
  · exact fun hFunded => hFunded hKind _ h.state
  · intro hLe _ s hs
    rw [h.state_eq rfl hs]
    exact hLe

theorem World.Holds.stopCovers_iff {tx : Tx} (hAfter : (next R w (.call tx)).Holds P p)
    (hKind : tx.instruction.kind = .stopReward) :
    StopCovers R P w tx ↔ p.state.shouldTotalPaid ≤
      (next R w (.call tx)).bank.amount P.rewardVault + p.state.paidRewards := by
  constructor
  · exact fun hCovers => hCovers hKind _ hAfter.state
  · intro hLe _ s hs
    rw [hAfter.state_eq rfl hs]
    exact hLe

/-- With a full budget the refund is all that the ledger counts beyond the rewards accrued and not
yet paid. -/
theorem Pool.Backed.surplus_add {c : PoolConfig} {funding : Nat} (h : p.Backed c funding)
    (hMints : c.stakeMint ≠ c.rewardMint) (hBudget : c.budget ≤ funding) (slot : Nat) :
    (p.tick slot).state.surplus p.config + (p.tick slot).state.shouldTotalPaid =
      p.state.rewardAmount + p.state.paidRewards := by
  have hShould : (p.tick slot).state.shouldTotalPaid ≤ p.config.budget :=
    (h.scheduled.tick slot).should_le
  have hFunded := h.funded
  have hTerms := h.budget_eq
  have hSurplus : (p.tick slot).state.surplus p.config =
      p.state.rewardAmount + p.state.paidRewards - (p.tick slot).state.shouldTotalPaid := by
    unfold PoolState.surplus
    rw [h.availableRewardTokens_eq hMints]
    rfl
  omega

theorem stopCovers_next_iff {kinds : List Instruction.Kind} {a : Action} {c : PoolConfig}
    {funding : Nat} (hHolds : w.Holds P p) (hBacked : p.Backed c funding)
    (hMints : c.stakeMint ≠ c.rewardMint) (hBudget : c.budget ≤ funding)
    (hApart : P.stakeVault ≠ P.rewardVault) (hOn : a.Dedicated P kinds P.rewardVault w)
    (hSwap : a.SwapsPending P w) :
    OnSuccess R P (StopCovers R P) w a ↔ OnSuccess R P (StopFunded P) w a := by
  rcases next_dedicated (R := R) hHolds hOn with
    ⟨-, -, hPasses⟩ | ⟨tx, op, rfl, hMatched, hOff, hOk, hOp, -, hAfter⟩
  · exact iff_of_true (onSuccess_of_passes hPasses) (onSuccess_of_passes hPasses)
  · rw [onSuccess_call_iff hMatched ⟨_, hOk⟩, onSuccess_call_iff hMatched ⟨_, hOk⟩]
    by_cases hKind : tx.instruction.kind = .stopReward
    · obtain rfl : op = .stop tx.env.slot := by
        cases hix : tx.instruction <;> rw [hix] at hKind hOp <;> cases hKind
        cases hOp
        rfl
      rw [hAfter.stopCovers_iff hKind, hHolds.stopFunded_iff hKind]
      have hTaken := exec_rewardVault hHolds hMatched hApart hOff
        (fun b hix => hSwap b _ hix hMatched hHolds.config) hOp hOk
      have hSurplus := hBacked.surplus_add hMints hBudget tx.env.slot
      -- The stop leaves `paidRewards` as it is, and takes the surplus from the vault only.
      change (p.tick tx.env.slot).state.shouldTotalPaid ≤ _ + p.state.paidRewards ↔ _
      change _ + (p.tick tx.env.slot).state.surplus p.config = _ at hTaken
      omega
    · exact iff_of_true (fun hStop => absurd hStop hKind) fun hStop => absurd hStop hKind

/-- In a pool that is funded for its budget, the stops of a run leave enough behind exactly if each
of them finds in the vault what the ledger counts there. -/
theorem stopCovers_iff_stopFunded {a : CreatePool} {args : CreatePoolArgs} {actions : List Action}
    {c : PoolConfig} (hReach : w₀.Reachable R) (hCreate : createPool R env a args w₀ = .ok w₁)
    (hConfig : w₁.poolConfig a.pool.config = some c) (hMints : c.stakeMint ≠ c.rewardMint)
    (hBudget : c.budget ≤ args.initialFunding) (hApart : a.pool.stakeVault ≠ a.pool.rewardVault)
    (hRun : Run.Along (next R) (fun w x => x.Dedicated a.pool [.startReward, .stake, .unstake,
      .claimReward, .compoundReward, .stopReward] a.pool.rewardVault w ∧ x.SwapsPending a.pool w)
      w₁ actions) :
    Run.Along (next R) (OnSuccess R a.pool (StopCovers R a.pool)) w₁ actions ↔
      Run.Along (next R) (OnSuccess R a.pool (StopFunded a.pool)) w₁ actions := by
  obtain ⟨stakeMint, rewardMint, -, hHolds⟩ := createPool_holds hReach hCreate
  obtain rfl := hHolds.config_eq rfl hConfig
  refine Run.along_iff_of_invariant
    (I := fun w => ∃ p, w.Holds a.pool p ∧
      p.Backed (a.poolConfig args stakeMint rewardMint) args.initialFunding) ?_ ?_
    ⟨_, hHolds, Pool.fresh_backed rfl _⟩ hRun
  · rintro w x ⟨p, hView, hBacked⟩ ⟨hOn, -⟩
    rcases next_dedicated (R := R) hView hOn with
      ⟨hSame, -, -⟩ | ⟨_, op, -, -, -, -, -, hEnabled, hAfter⟩
    · exact ⟨p, hSame, hBacked⟩
    · exact ⟨p.step op, hAfter, hBacked.step hEnabled⟩
  · rintro w x ⟨p, hView, hBacked⟩ ⟨hOn, hSwap⟩
    exact stopCovers_next_iff hView hBacked hMints hBudget hApart hOn hSwap

namespace Localnet

def stoppedTwice : List Tx := [start 0 0, stake 0 11 0 1, stop 0 215911, stop 0 216010]

theorem stoppedTwice_dedicated : Run.Along (next .reference) (fun w x =>
    x.Dedicated (createAccounts coin 0).pool [.startReward, .stake, .unstake, .claimReward,
      .compoundReward, .stopReward] (rewardVault 0) w ∧ x.SwapsPending (createAccounts coin 0).pool w)
    (dayPoolCreated coin 9 216000) (stoppedTwice.map .call) := by
  refine (along_dedicated (by decide)).and (Run.along_of_forall fun x hx w => ?_)
  simp only [stoppedTwice, List.map_cons, List.map_nil, List.mem_cons, List.not_mem_nil,
    or_false] at hx
  rcases hx with rfl | rfl | rfl | rfl <;> exact fun _ _ _ _ _ _ => env_swapTakes _ _ (by decide)

end Localnet

open Localnet in
theorem stopCovers_iff_stopFunded_stoppedTwice :
    Run.Along (next .reference) (OnSuccess .reference (createAccounts coin 0).pool
        (StopCovers .reference (createAccounts coin 0).pool)) (dayPoolCreated coin 9 216000)
        (stoppedTwice.map .call) ↔
      Run.Along (next .reference) (OnSuccess .reference (createAccounts coin 0).pool
        (StopFunded (createAccounts coin 0).pool)) (dayPoolCreated coin 9 216000)
        (stoppedTwice.map .call) :=
  stopCovers_iff_stopFunded (reachable_run coin 9 [open_]) (dayPool_created coin 9 216000 rfl) rfl
    (by decide) (by decide) (by decide) stoppedTwice_dedicated

open Localnet in
/-- The second stop takes the first refund, 100 tokens, out of the rewards accrued. -/
theorem not_stopCovers_stoppedTwice : ¬ ∀ (R : Runtime) (w₀ w₁ : World) (env : Env)
    (a : CreatePool) (args : CreatePoolArgs) (actions : List Action) (c : PoolConfig),
    w₀.Reachable R → createPool R env a args w₀ = .ok w₁ →
    w₁.poolConfig a.pool.config = some c → c.stakeMint ≠ c.rewardMint →
    c.budget ≤ args.initialFunding → a.pool.stakeVault ≠ a.pool.rewardVault →
    Run.Along (next R) (fun w x => x.Dedicated a.pool [.startReward, .stake, .unstake, .claimReward,
      .compoundReward, .stopReward] a.pool.rewardVault w ∧ x.SwapsPending a.pool w) w₁ actions →
    Run.Along (next R) (OnSuccess R a.pool (StopCovers R a.pool)) w₁ actions := by
  intro hAll
  obtain ⟨-, -, -, hSecond, -⟩ := hAll .reference (dayPoolOpen coin 9) (dayPoolCreated coin 9 216000)
    _ (createAccounts coin 0) (dayPool 216000) (stoppedTwice.map .call) _ (reachable_run coin 9 [open_])
    (dayPool_created coin 9 216000 rfl) rfl (by decide) (by decide) (by decide)
    stoppedTwice_dedicated
  have hCovers := hSecond (by decide) ⟨_, exec_of_isOk rfl⟩ rfl _ rfl
  revert hCovers
  decide

end StakingOnSolana
