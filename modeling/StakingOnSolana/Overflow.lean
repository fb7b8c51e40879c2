import StakingOnSolana.Funding
import StakingOnSolana.View

/-! # Overflow

All amounts are u64 and an overflow aborts the call. In a pool funded with its budget the sums
and differences of a payout always fit: the rewards stay within the funds, and a debt within what
its stake has earned. Three products have no such bound: the scaled reward of an update, the
stake times the accumulator, and the amount of an unstake times the fee.
-/
set_option autoImplicit false

namespace StakingOnSolana

open RewardShare

variable {R : Runtime} {env : Env} {ix : Instruction} {w w' w₀ w₁ : World} {P : PoolAddress} {p : Pool}
  {op : PoolOp} {u : Pubkey} {c : PoolConfig} {funding changes slot : Nat}

structure PayoutFits (c : PoolConfig) (slot : Nat) (s : PoolState) (info : UserInfo) : Prop where
  reward : s.accruing c slot * c.precisionFactor < 2 ^ 64
  stake : info.stakedAmount *
    (s.accTokenPerShare + s.accruing c slot * c.precisionFactor / s.totalStaked) < 2 ^ 64

def Instruction.Fits (c : PoolConfig) (slot : Nat) (s : PoolState) (info : UserInfo) : Instruction → Prop
  | .unstake _ unstakeAmount => PayoutFits c slot s info ∧
      (unstakeAmount < info.stakedAmount → unstakeAmount * c.unstakeFee < 2 ^ 64)
  | .claimReward _ => PayoutFits c slot s info
  | .initializePlatform .. | .createPool .. | .startReward _ | .stopReward _ | .stake ..
  | .compoundReward _ => True

/-- The call comes to a product that does not fit. Those of the payout follow the checks of the
accounts; the one of the fee follows the payout as well. -/
def Instruction.Overflows (R : Runtime) (env : Env) (w : World) (c : PoolConfig) (s : PoolState)
    (info : UserInfo) : Instruction → Prop
  | .unstake a unstakeAmount => ∃ platform, a.Admitted R env unstakeAmount w c info platform ∧
      (¬PayoutFits c env.slot s info ∨ 2 ^ 64 ≤ unstakeAmount * c.unstakeFee ∧
        a.payoutAccounts.Pays R env.signers c info (s.accrue c env.slot)
          (w.bank.moveLamports a.user a.treasury platform.performanceFee))
  | .claimReward a => ∃ platform, a.Admitted R env w c platform ∧ ¬PayoutFits c env.slot s info
  | .initializePlatform .. | .createPool .. | .startReward _ | .stopReward _ | .stake ..
  | .compoundReward _ => False

theorem Instruction.Overflows.not_fits {s : PoolState} {info : UserInfo}
    (h : ix.Overflows R env w c s info) : ¬ix.Fits c env.slot s info := by
  intro hFits
  cases ix with
  | unstake a n =>
    obtain ⟨platform, hAdmitted, hNot | ⟨hLarge, -⟩⟩ := h
    · exact hNot hFits.1
    · exact absurd (hFits.2 hAdmitted.amount.2) (Nat.not_lt_of_le hLarge)
  | claimReward a =>
    obtain ⟨platform, -, hNot⟩ := h
    exact hNot hFits
  | _ => exact h

namespace Pool

/-- The pool keeps its terms, and its funds only change hands. -/
structure Endowed (c : PoolConfig) (funding : Nat) (p : Pool) : Prop extends p.Backed c funding where
  funds : p.state.rewardAmount + p.state.paidRewards = funding

theorem Endowed.step (h : p.Endowed c funding) (hOp : p.Enabled op) (hKind : op.kind ≠ .compoundReward) :
    (p.step op).Endowed c funding := by
  refine ⟨h.toBacked.step hOp, ?_⟩
  rw [step_funding hOp, p.restaked_of_kind hKind]
  exact h.funds

theorem Endowed.config_eq (h : p.Endowed c funding) :
    p.config.rewardMintDecimals = c.rewardMintDecimals ∧ p.config.unstakeFee = c.unstakeFee := by
  obtain ⟨startSlot, endSlot, hConfig⟩ := h.terms
  rw [hConfig]
  exact ⟨rfl, rfl⟩

theorem Endowed.computed_iff (h : p.Endowed c funding) (hDecimals : c.rewardMintDecimals ≤ 9)
    (hBudget : c.budget ≤ funding) (hFunding : funding < 2 ^ 64) (hStaked : 0 < p.staked u) :
    Computed p.config slot p.state (p.user u) ↔ PayoutFits p.config slot p.state (p.user u) := by
  constructor
  · intro hComputed
    exact ⟨updatePool_scaled hComputed.updated, hComputed.product⟩
  · intro hFits
    have hAcc : (p.state.accrue p.config slot).accTokenPerShare < 2 ^ 64 :=
      Nat.lt_of_le_of_lt (Nat.le_mul_of_pos_left _ hStaked) hFits.stake
    have hShould : (p.state.accrue p.config slot).shouldTotalPaid ≤ p.config.budget :=
      (h.scheduled.tick slot).should_le
    rw [h.budget_eq] at hShould
    exact ⟨updatePool_of_fits (h.config_eq.1 ▸ hDecimals) hFits.reward hAcc (by omega), hFits.stake⟩

end Pool

theorem exec_arithmetic_iff (hHolds : w.Holds P p) (hEndowed : p.Endowed c funding)
    (hSound : p.Sound changes) (hDecimals : c.rewardMintDecimals ≤ 9) (hRate : c.unstakeFee ≤ maxFee)
    (hBudget : c.budget ≤ funding) (hFunding : funding < 2 ^ 64) (hMatched : ix.Matched P)
    (hKind : ix.kind ∈ [.unstake, .claimReward]) (hCaller : ix.caller = some u)
    (hUser : w.userInfo (.userInfoPda P.config u) = some (p.user u)) (hStaked : 0 < p.staked u) :
    ix.exec R env w = .error .arithmetic ↔ ix.Overflows R env w p.config p.state (p.user u) := by
  obtain ⟨hDecimals', hRate'⟩ := hEndowed.config_eq
  have hDebt := hSound.debt_le env.slot u
  have hFunds : p.state.rewardAmount + p.state.paidRewards < 2 ^ 64 := hEndowed.funds ▸ hFunding
  have hComputed : Computed p.config env.slot p.state (p.user u) ↔
      PayoutFits p.config env.slot p.state (p.user u) :=
    hEndowed.computed_iff hDecimals hBudget hFunding hStaked
  cases ix with
  | unstake a n =>
    cases hCaller
    obtain ⟨hConfigKey, hStateKey, hUserKey⟩ := hMatched
    rw [Instruction.Overflows, ← hComputed]
    exact unstake_arithmetic_iff (hConfigKey ▸ hHolds.config) (hStateKey ▸ hHolds.state)
      (hUserKey ▸ hUser) (hDecimals' ▸ hDecimals) (hRate' ▸ hRate) hDebt hFunds
      (Book.Sound.weight_le hSound _)
  | claimReward a =>
    cases hCaller
    obtain ⟨hConfigKey, hStateKey, hUserKey⟩ := hMatched
    rw [Instruction.Overflows, ← hComputed]
    exact claimReward_arithmetic_iff (hConfigKey ▸ hHolds.config) (hStateKey ▸ hHolds.state)
      (hUserKey ▸ hUser) (hDecimals' ▸ hDecimals) hStaked hDebt hFunds
  | _ => simp [Instruction.kind] at hKind

theorem fits_of_ok (hHolds : w.Holds P p) (hMatched : ix.Matched P) (hPayee : ix.payee = some u)
    (h : ix.exec R env w = .ok w') : ix.Fits p.config env.slot p.state (p.user u) := by
  have hComputed := exec_computed hHolds hMatched hPayee h
  have hPayout : PayoutFits p.config env.slot p.state (p.user u) :=
    ⟨updatePool_scaled hComputed.updated, hComputed.product⟩
  cases ix with
  | unstake a n =>
    obtain ⟨platform, hSpec⟩ := unstake_matched hHolds hMatched h
    exact ⟨hPayout, fun _ => (unstake_computed hSpec.loadedConfig hSpec.loadedState hSpec.loadedUser h).2⟩
  | claimReward a => exact hPayout
  | _ => trivial

theorem run_endowed {a : CreatePool} {args : CreatePoolArgs} {actions : List Action}
    (hReach : w₀.Reachable R) (hCreate : createPool R env a args w₀ = .ok w₁)
    (hConfig : w₁.poolConfig a.pool.config = some c)
    (hRun : ∀ x ∈ actions, x.OnPool a.pool [.startReward, .stake, .unstake, .claimReward]) :
    ∃ p, (Run.run (next R) w₁ actions).Holds a.pool p ∧ p.Endowed c args.initialFunding := by
  obtain ⟨stakeMint, rewardMint, -, hHolds⟩ := createPool_holds hReach hCreate
  obtain rfl := hHolds.config_eq rfl hConfig
  refine run_holds (R := R) (fun p op hKind hI hOp => hI.step hOp ?_) hHolds
    ⟨Pool.fresh_backed rfl _, Nat.add_zero _⟩ hRun
  intro hCompound
  rw [hCompound] at hKind
  simp at hKind

theorem createPool_fees {a : CreatePool} {args : CreatePoolArgs} (hReach : w₀.Reachable R)
    (hCreate : createPool R env a args w₀ = .ok w₁) (hConfig : w₁.poolConfig a.pool.config = some c) :
    c.stakeFee ≤ maxFee ∧ c.unstakeFee ≤ maxFee := by
  obtain ⟨stakeMint, rewardMint, -, hFresh⟩ := createPool_holds hReach hCreate
  obtain ⟨_, _, hCreated⟩ := createPool_ok hCreate
  obtain rfl := hFresh.config_eq rfl hConfig
  exact hCreated.fees

/-- In every state that a run reaches, a staker's call aborts on arithmetic exactly where it comes to
a product that does not fit. So one whose products fit does not abort, and one that succeeds has
products that fit. -/
theorem arithmetic_of_fits {a : CreatePool} {args : CreatePoolArgs} {actions : List Action} {tx : Tx}
    {c' : PoolConfig} {s : PoolState} {info : UserInfo} (hReach : w₀.Reachable R)
    (hCreate : createPool R env a args w₀ = .ok w₁) (hConfig : w₁.poolConfig a.pool.config = some c)
    (hDecimals : c.rewardMintDecimals ≤ 9) (hBudget : c.budget ≤ args.initialFunding)
    (hFunding : args.initialFunding < 2 ^ 64)
    (hRun : ∀ x ∈ actions, x.OnPool a.pool [.startReward, .stake, .unstake, .claimReward])
    (hMatched : tx.instruction.Matched a.pool) (hKind : tx.instruction.kind ∈ [.unstake, .claimReward])
    (hCaller : tx.instruction.caller = some u)
    (hConfig' : (Run.run (next R) w₁ actions).poolConfig a.pool.config = some c')
    (hState : (Run.run (next R) w₁ actions).poolState a.pool.state = some s)
    (hUser : (Run.run (next R) w₁ actions).userInfo (.userInfoPda a.pool.config u) = some info)
    (hStaked : 0 < info.stakedAmount) :
    (tx.instruction.exec R tx.env (Run.run (next R) w₁ actions) = .error .arithmetic ↔
        tx.instruction.Overflows R tx.env (Run.run (next R) w₁ actions) c' s info) ∧
      (tx.instruction.Fits c' tx.env.slot s info →
        tx.instruction.exec R tx.env (Run.run (next R) w₁ actions) ≠ .error .arithmetic) ∧
      (tx.Succeeds R (Run.run (next R) w₁ actions) → tx.instruction.Fits c' tx.env.slot s info) := by
  obtain ⟨p, hHolds, hSound⟩ := run_sound hReach hCreate hRun
  obtain ⟨p', hHolds', hEndowed⟩ := run_endowed hReach hCreate hConfig hRun
  obtain rfl := hHolds'.unique hHolds
  have hRate := (createPool_fees hReach hCreate hConfig).2
  obtain rfl := hHolds.config_eq rfl hConfig'
  obtain rfl := hHolds.state_eq rfl hState
  obtain rfl := hHolds.user_eq rfl hUser
  have hAborts : tx.instruction.exec R tx.env (Run.run (next R) w₁ actions) = .error .arithmetic ↔
      tx.instruction.Overflows R tx.env (Run.run (next R) w₁ actions) p.config p.state (p.user u) :=
    exec_arithmetic_iff hHolds hEndowed hSound hDecimals hRate hBudget hFunding hMatched hKind hCaller
      hUser hStaked
  refine ⟨hAborts, fun hFits hFails => (hAborts.mp hFails).not_fits hFits, ?_⟩
  rintro ⟨w', hOk⟩
  refine fits_of_ok hHolds hMatched ?_ hOk
  cases hIx : tx.instruction <;> rw [hIx] at hKind hCaller <;>
    first | exact hCaller | simp [Instruction.kind] at hKind

namespace Localnet

def wholeTokens : CreatePoolArgs := ⟨0, 0, 864000000, 4000, 1⟩

def wholeTokensCreated : World := next .reference (dayPoolOpen coin 0) (.call (create coin 0 wholeTokens))

def lonelyStake : List Tx := [start 0 0, stake 0 11 0 1, stake 0 25011 1 180]

def wholeTokensConfig : PoolConfig := (createAccounts coin 0).poolConfig wholeTokens ⟨9⟩ ⟨0⟩

end Localnet

open Localnet in
theorem wholeTokens_created : createPool .reference (Localnet.env 0 [creator, config 0, state 0])
    (createAccounts coin 0) wholeTokens (dayPoolOpen coin 0) = .ok wholeTokensCreated := by
  have h : (create coin 0 wholeTokens).instruction.exec .reference (create coin 0 wholeTokens).env
    (dayPoolOpen coin 0) = .ok wholeTokensCreated := exec_of_isOk rfl
  exact h

open Localnet in
theorem arithmetic_of_fits_lonelyStake :
    (claim 0 30000 1).instruction.exec .reference (claim 0 30000 1).env
      (run wholeTokensCreated lonelyStake) ≠ .error .arithmetic := by
  have hConfig : wholeTokensCreated.poolConfig (config 0) = some wholeTokensConfig := rfl
  have hFits := arithmetic_of_fits (reachable_run coin 0 [open_]) wholeTokens_created hConfig (by decide)
    (by decide) (by decide) (onPool_of_matched (by decide : ∀ tx ∈ lonelyStake,
      tx.instruction.Matched (createAccounts coin 0).pool ∧ tx.instruction.kind ∈
        [.startReward, .stake, .unstake, .claimReward]))
    (by decide : (claim 0 30000 1).instruction.Matched (createAccounts coin 0).pool) (by decide) rfl
    rfl rfl rfl (by decide)
  exact hFits.2.1 ⟨by decide, by decide⟩

open Localnet in
/-- At the end of the schedule it does not fit any more. -/
theorem not_arithmetic_lonelyStake : ¬ ∀ (R : Runtime) (w₀ w₁ : World) (env : Env) (a : CreatePool)
    (args : CreatePoolArgs) (txs : List Tx) (c : PoolConfig) (tx : Tx) (u : Pubkey) (info : UserInfo),
    w₀.Reachable R → createPool R env a args w₀ = .ok w₁ → w₁.poolConfig a.pool.config = some c →
    c.rewardMintDecimals ≤ 9 → c.budget ≤ args.initialFunding → args.initialFunding < 2 ^ 64 →
    (∀ tx ∈ txs, tx.instruction.Matched a.pool ∧
      tx.instruction.kind ∈ [.startReward, .stake, .unstake, .claimReward]) →
    ((txs ++ [tx]).map fun tx => tx.env.slot).Pairwise (· ≤ ·) →
    tx.instruction.Matched a.pool → tx.instruction.kind ∈ [.unstake, .claimReward] →
    tx.instruction.caller = some u →
    (Run.run (next R) w₁ (txs.map .call)).userInfo (.userInfoPda a.pool.config u) = some info →
    0 < info.stakedAmount →
    tx.instruction.exec R tx.env (Run.run (next R) w₁ (txs.map .call)) ≠ .error .arithmetic := by
  intro hAll
  have hFine := hAll .reference (dayPoolOpen coin 0) wholeTokensCreated _ (createAccounts coin 0)
    wholeTokens lonelyStake _ (claim 0 216010 1) (user 1) _ (reachable_run coin 0 [open_])
    wholeTokens_created rfl (by decide) (by decide) (by decide) (by decide) (by decide) (by decide)
    (by decide) rfl rfl (by decide)
  exact hFine rfl

end StakingOnSolana
