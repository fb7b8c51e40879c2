import StakingOnSolana.Refinement

/-! # The tokens behind the ledger

Over runs in which a vault is used by one pool only, its balance is compared with the field of
the ledger that counts it: `reward_amount` for the reward vault, `total_staked` for the stake
vault. Some instructions change one side only; each theorem says exactly which calls do.
-/
set_option autoImplicit false

namespace StakingOnSolana

variable {R : Runtime} {env : Env} {ix : Instruction} {w w' w₀ w₁ : World} {P : PoolAddress}
  {p : Pool} {op : PoolOp} {k u : Pubkey}

/-- The token accounts that an instruction takes besides the vaults of its pool. -/
def Instruction.counterparts : Instruction → List Pubkey
  | .initializePlatform .. | .startReward .. | .compoundReward .. => []
  | .createPool a _ => [a.creatorRewardTokenVault]
  | .stopReward a => [a.deployerRewardTokenVault]
  | .stake a _ => [a.userStakeTokenVault, a.userRewardTokenVault, a.creatorStakeTokenVault]
  | .unstake a _ => [a.userStakeTokenVault, a.userRewardTokenVault, a.creatorStakeTokenVault]
  | .claimReward a => [a.userRewardTokenVault]

/-- An action of a run on the pool that uses the vault `k` for that pool only. -/
def Action.Dedicated (P : PoolAddress) (kinds : List Instruction.Kind) (k : Pubkey) (w : World) :
    Action → Prop
  | .call tx =>
    (tx.instruction.Matched P ∧ tx.instruction.kind ∈ kinds ∧ k ∉ tx.instruction.counterparts) ∨
      (tx.instruction.Foreign P ∧ (∀ route ∈ tx.instruction.tokenRoutes, k ≠ route.1 ∧ k ≠ route.2) ∧
        ∀ a, tx.instruction = .compoundReward a → tx.env.SwapKeeps k)
  | .outside bank _ => bank.amount k = w.bank.amount k

theorem Action.Dedicated.onPool {kinds : List Instruction.Kind} {a : Action}
    (h : a.Dedicated P kinds k w) : a.OnPool P kinds := by
  cases a with
  | outside bank mint => trivial
  | call tx => exact h.imp (fun hOwn => ⟨hOwn.1, hOwn.2.1⟩) fun hForeign => hForeign.1

def Env.SwapTakes (env : Env) (k : Pubkey) : Prop :=
  ∀ swap bank bank', env.ammProgram swap bank = some bank' → swap.userSourceTokenAccount = k →
    bank'.amount k + swap.amountIn = bank.amount k

theorem along_dedicated {kinds : List Instruction.Kind} {txs : List Tx}
    (h : ∀ tx ∈ txs, tx.instruction.Matched P ∧ tx.instruction.kind ∈ kinds ∧
      k ∉ tx.instruction.counterparts) :
    Run.Along (next R) (fun w x => x.Dedicated P kinds k w) w (txs.map .call) := by
  induction txs generalizing w with
  | nil => trivial
  | cons tx rest ih =>
    exact ⟨Or.inl (h tx List.mem_cons_self), ih fun tx' hTx => h tx' (List.mem_cons_of_mem tx hTx)⟩

theorem next_dedicated {kinds : List Instruction.Kind} {a : Action} (hHolds : w.Holds P p)
    (hOn : a.Dedicated P kinds k w) :
    ((next R w a).Holds P p ∧ (next R w a).bank.amount k = w.bank.amount k ∧ a.Passes R P w) ∨
    ∃ tx op, a = .call tx ∧ tx.instruction.Matched P ∧ k ∉ tx.instruction.counterparts ∧
      tx.instruction.exec R tx.env w = .ok (next R w a) ∧
      tx.instruction.op p.config tx.env.slot = some op ∧ p.Enabled op ∧
      (next R w a).Holds P (p.step op) := by
  cases a with
  | outside bank mint =>
    exact Or.inl ⟨hHolds.outside bank mint, hOn, trivial⟩
  | call tx =>
    rcases next_call R w tx with ⟨hFails, hSame⟩ | ⟨w', hOk, hNext⟩
    · rw [hSame]
      exact Or.inl ⟨hHolds, rfl, Or.inl hFails⟩
    · rw [hNext]
      rcases hOn with ⟨hMatched, -, hOff⟩ | ⟨hForeign, hRoutes, hKeeps⟩
      · obtain ⟨op, hOp, hEnabled, hAfter⟩ := exec_matched hHolds hMatched hOk
        exact Or.inr ⟨tx, op, rfl, hMatched, hOff, hOk, hOp, hEnabled, hAfter⟩
      · exact Or.inl ⟨exec_foreign hHolds hForeign hOk,
          Instruction.exec_amount_eq hOk hRoutes hKeeps, Or.inr hForeign⟩

theorem exec_payout_amount (hHolds : w.Holds P p) (hMatched : ix.Matched P) (hPayee : ix.payee = some u)
    (hOff : k ∉ ix.counterparts) (hOp : ix.op p.config env.slot = some op)
    (h : ix.exec R env w = .ok w') : (w'.bank.amount k : Int) = w.bank.amount k +
      (if P.stakeVault = k then (op.deposited : Int) - op.withdrawn else 0) -
        if P.rewardVault = k then ((p.tick env.slot).owed u : Int) else 0 := by
  rw [exec_flow hHolds hMatched hPayee h k]
  cases ix with
  | stake a n =>
    cases hPayee
    cases hOp
    obtain ⟨-, platform, hSpec⟩ := stake_matched hHolds hMatched h
    have hFee := hSpec.fee_le
    have hStake := hHolds.stakeVault_eq hSpec.stakeVault
    simp only [Instruction.counterparts, List.mem_cons, List.not_mem_nil, or_false, not_or] at hOff
    obtain ⟨hUserStake, hUserReward, hCreator⟩ := hOff
    simp only [Instruction.transfers, Instruction.tokenRoutes, List.zip_cons_cons, List.zip_nil_left,
      Balance.flow_cons, Balance.flow_nil, hMatched.2.2, hStake, if_neg (Ne.symm hUserStake),
      if_neg (Ne.symm hUserReward), if_neg (Ne.symm hCreator), PoolOp.deposited, PoolOp.withdrawn]
    split <;> split <;> omega
  | unstake a n =>
    cases hPayee
    cases hOp
    obtain ⟨platform, hSpec⟩ := unstake_matched hHolds hMatched h
    have hFee := hSpec.fee_le
    have hStake := hHolds.stakeVault_eq hSpec.stakeVault
    simp only [Instruction.counterparts, List.mem_cons, List.not_mem_nil, or_false, not_or] at hOff
    obtain ⟨hUserStake, hUserReward, hCreator⟩ := hOff
    simp only [Instruction.transfers, Instruction.tokenRoutes, List.zip_cons_cons, List.zip_nil_left,
      Balance.flow_cons, Balance.flow_nil, hHolds.rewardVault_eq hSpec.rewardVault, hStake,
      if_neg (Ne.symm hUserStake), if_neg (Ne.symm hUserReward), if_neg (Ne.symm hCreator),
      PoolOp.deposited, PoolOp.withdrawn]
    split <;> split <;> omega
  | claimReward a =>
    cases hPayee
    cases hOp
    obtain ⟨platform, hSpec⟩ := claimReward_matched hHolds hMatched h
    simp only [Instruction.counterparts, List.mem_cons, List.not_mem_nil, or_false] at hOff
    simp only [Instruction.transfers, Instruction.tokenRoutes, List.zip_cons_cons, List.zip_nil_left,
      Balance.flow_cons, Balance.flow_nil, hHolds.rewardVault_eq hSpec.rewardVault,
      if_neg (Ne.symm hOff), PoolOp.deposited, PoolOp.withdrawn]
    split <;> split <;> omega
  | _ => cases hPayee

theorem compoundReward_rewardVault {a : CompoundReward} (hHolds : w.Holds P p)
    (hMatched : (Instruction.compoundReward a).Matched P)
    (hSwap : p.config.stakeMint ≠ p.config.rewardMint → env.SwapTakes P.rewardVault)
    (h : compoundReward R env a w = .ok w') :
    w'.bank.amount P.rewardVault + p.rewardOut (.compound env.slot a.user) =
      w.bank.amount P.rewardVault := by
  obtain ⟨platform, hSpec⟩ := compoundReward_matched hHolds hMatched h
  have hVault := hHolds.rewardVault_eq hSpec.rewardVault
  have hBank := hSpec.bank_eq
  unfold CompoundReward.Swapped at hBank
  simp only [Pool.rewardOut]
  split at hBank
  · rename_i hDiffer
    rw [if_neg hDiffer.1]
    exact hSwap hDiffer.1 _ _ _ hBank hVault
  · rename_i hNothing
    rw [hBank]
    split
    · rfl
    · rename_i hMints
      have hZero : (p.tick env.slot).owed a.user = 0 :=
        Nat.eq_zero_of_not_pos fun hPos => hNothing ⟨hMints, hPos⟩
      rw [hZero]
      rfl

theorem exec_rewardVault (hHolds : w.Holds P p) (hMatched : ix.Matched P)
    (hApart : P.stakeVault ≠ P.rewardVault) (hOff : P.rewardVault ∉ ix.counterparts)
    (hSwap : ∀ a, ix = .compoundReward a → p.config.stakeMint ≠ p.config.rewardMint →
      env.SwapTakes P.rewardVault)
    (hOp : ix.op p.config env.slot = some op)
    (h : ix.exec R env w = .ok w') :
    w'.bank.amount P.rewardVault + p.rewardOut op = w.bank.amount P.rewardVault := by
  have hPayout : ∀ u, ix.payee = some u →
      w'.bank.amount P.rewardVault + (p.tick env.slot).owed u = w.bank.amount P.rewardVault := by
    intro u hPayee
    have hAmount := exec_payout_amount hHolds hMatched hPayee hOff hOp h
    rw [if_neg hApart, if_pos rfl] at hAmount
    omega
  cases ix with
  | initializePlatform a d f => exact hMatched.elim
  | createPool a args => exact hMatched.elim
  | startReward a =>
    cases hOp
    rw [(startReward_matched hHolds hMatched h).frame.2.2.2]
    rfl
  | stopReward a =>
    cases hOp
    have hSpec := stopReward_matched hHolds hMatched h
    have hVault : a.poolRewardTokenVault = P.rewardVault := hMatched.2.2
    have hDeployer : P.rewardVault ≠ a.deployerRewardTokenVault := by
      simpa [Instruction.counterparts] using hOff
    rw [hSpec.bank_eq, Bank.moveTokens_amount, hVault, Balance.move_source _ _ hDeployer]
    exact Nat.sub_add_cancel (hVault ▸ hSpec.funded)
  | stake a n =>
    cases hOp
    exact hPayout a.staker rfl
  | unstake a n =>
    cases hOp
    exact hPayout a.user rfl
  | claimReward a =>
    cases hOp
    exact hPayout a.claimer rfl
  | compoundReward a =>
    cases hOp
    exact compoundReward_rewardVault hHolds hMatched (hSwap a rfl) h

def Action.SwapsPending (P : PoolAddress) (w : World) : Action → Prop
  | .call tx => ∀ a c, tx.instruction = .compoundReward a → tx.instruction.Matched P →
      w.poolConfig P.config = some c → c.stakeMint ≠ c.rewardMint → tx.env.SwapTakes P.rewardVault
  | .outside .. => True

def RewardLedger (P : PoolAddress) (w : World) : Prop :=
  ∀ s, w.poolState P.state = some s → s.rewardAmount = w.bank.amount P.rewardVault

/-- The call takes nothing out of the reward vault that `reward_amount` keeps counting: no refund,
and no reward that is swapped. -/
def RecordsPayment (P : PoolAddress) (w : World) (tx : Tx) : Prop :=
  match tx.instruction with
  | .stopReward _ => ∀ c s, w.poolConfig P.config = some c → w.poolState P.state = some s →
      (s.accrue c tx.env.slot).surplus c = 0
  | .compoundReward a => ∀ c s info, w.poolConfig P.config = some c → w.poolState P.state = some s →
      w.userInfo a.userInfo = some info →
      c.stakeMint = c.rewardMint ∨ info.owed c (s.accrue c tx.env.slot) = 0
  | _ => True

theorem World.Holds.rewardLedger_iff (h : w.Holds P p) :
    RewardLedger P w ↔ p.state.rewardAmount = w.bank.amount P.rewardVault := by
  constructor
  · exact fun hLedger => hLedger _ h.state
  · intro hEq s hs
    rw [h.state_eq rfl hs]
    exact hEq

theorem recordsPayment_iff {tx : Tx} (hHolds : w.Holds P p) (hMatched : tx.instruction.Matched P)
    (hSucceeds : tx.Succeeds R w) (hOp : tx.instruction.op p.config tx.env.slot = some op) :
    RecordsPayment P w tx ↔ p.unrecorded op = 0 := by
  obtain ⟨env, ix⟩ := tx
  cases ix with
  | initializePlatform a d f => exact hMatched.elim
  | createPool a args => exact hMatched.elim
  | stopReward a =>
    cases hOp
    constructor
    · intro hRecords
      exact hRecords _ _ hHolds.config hHolds.state
    · intro hZero c s hConfig hState
      rw [hHolds.config_eq rfl hConfig, hHolds.state_eq rfl hState]
      exact hZero
  | compoundReward a =>
    cases hOp
    obtain ⟨w', hOk⟩ := hSucceeds
    obtain ⟨platform, hSpec⟩ := compoundReward_matched hHolds hMatched hOk
    simp only [Pool.unrecorded, ite_eq_left_iff]
    constructor
    · intro hRecords hMints
      exact (hRecords _ _ _ hHolds.config hHolds.state hSpec.loadedUser).resolve_left hMints
    · intro hZero c s info hConfig hState hInfo
      rw [hHolds.config_eq rfl hConfig, hHolds.state_eq rfl hState, hHolds.user_eq hMatched.2.2 hInfo]
      by_cases hMints : p.config.stakeMint = p.config.rewardMint
      · exact Or.inl hMints
      · exact Or.inr (hZero hMints)
  | _ =>
    cases hOp
    exact iff_of_true trivial rfl

theorem rewardLedger_next_iff {kinds : List Instruction.Kind} {a : Action} (hHolds : w.Holds P p)
    (hApart : P.stakeVault ≠ P.rewardVault) (hOn : a.Dedicated P kinds P.rewardVault w)
    (hSwap : a.SwapsPending P w) (hLedger : RewardLedger P w) :
    RewardLedger P (next R w a) ↔ OnSuccess R P (RecordsPayment P) w a := by
  have hBefore := hHolds.rewardLedger_iff.mp hLedger
  rcases next_dedicated (R := R) hHolds hOn with
    ⟨hSame, hAmount, hPasses⟩ | ⟨tx, op, rfl, hMatched, hOff, hOk, hOp, hEnabled, hAfter⟩
  · rw [hSame.rewardLedger_iff, hAmount]
    exact iff_of_true hBefore (onSuccess_of_passes hPasses)
  · rw [hAfter.rewardLedger_iff, onSuccess_call_iff hMatched ⟨_, hOk⟩,
      recordsPayment_iff hHolds hMatched ⟨_, hOk⟩ hOp]
    have hAccounted := Pool.step_rewardAmount hEnabled
    have hAmount := exec_rewardVault hHolds hMatched hApart hOff
      (fun b hix => hSwap b _ hix hMatched hHolds.config) hOp hOk
    omega

theorem next_holds_of_dedicated {kinds : List Instruction.Kind} {a : Action}
    (h : ∃ p, w.Holds P p) (hOn : a.Dedicated P kinds k w) : ∃ p, (next R w a).Holds P p := by
  obtain ⟨p, hHolds⟩ := h
  rcases next_holds (R := R) hHolds hOn.onPool with ⟨hSame, -⟩ | ⟨_, op, -, -, -, -, -, -, hAfter⟩
  · exact ⟨p, hSame⟩
  · exact ⟨p.step op, hAfter⟩

theorem createPool_rewardLedger {a : CreatePool} {args : CreatePoolArgs} (hReach : w₀.Reachable R)
    (hCreate : createPool R env a args w₀ = .ok w₁) (hEmpty : w₀.bank.amount a.pool.rewardVault = 0) :
    RewardLedger a.pool w₁ := by
  obtain ⟨stakeMint, rewardMint, -, hHolds⟩ := createPool_holds hReach hCreate
  obtain ⟨_, _, hSpec⟩ := createPool_ok hCreate
  rw [hHolds.rewardLedger_iff, hSpec.amount_eq]
  change w₀.bank.amount a.poolRewardTokenVault = 0 at hEmpty
  change args.initialFunding = Balance.move _ _ a.poolRewardTokenVault _ a.poolRewardTokenVault
  by_cases hSelf : a.creatorRewardTokenVault = a.poolRewardTokenVault
  · have hFunded := hSpec.funded
    rw [hSelf, hEmpty] at hFunded
    rw [hSelf, Balance.move_self, hEmpty]
    exact Nat.le_zero.mp hFunded
  · rw [Balance.move_destination _ _ hSelf, hEmpty, Nat.zero_add]

/-- Over every run from the creation of the pool, the ledger equals the vault in every state
reached if and only if no call refunds and no call swaps a reward. -/
theorem rewardLedger_iff_recordsPayment {a : CreatePool} {args : CreatePoolArgs}
    {actions : List Action} (hReach : w₀.Reachable R)
    (hCreate : createPool R env a args w₀ = .ok w₁)
    (hApart : a.pool.stakeVault ≠ a.pool.rewardVault)
    (hEmpty : w₀.bank.amount a.pool.rewardVault = 0)
    (hRun : Run.Along (next R) (fun w x => x.Dedicated a.pool [.startReward, .stake, .unstake,
      .claimReward, .compoundReward, .stopReward] a.pool.rewardVault w ∧ x.SwapsPending a.pool w)
      w₁ actions) :
    RewardLedger a.pool w₁ ∧ (Run.Along (next R) (fun w x => RewardLedger a.pool (next R w x))
      w₁ actions ↔ Run.Along (next R) (OnSuccess R a.pool (RecordsPayment a.pool)) w₁ actions) := by
  obtain ⟨_, _, -, hHolds⟩ := createPool_holds hReach hCreate
  have hStart := createPool_rewardLedger hReach hCreate hEmpty
  refine ⟨hStart, Run.along_iff_of_step (I := fun w => ∃ p, w.Holds a.pool p) ?_ ?_ ⟨_, hHolds⟩
    hStart hRun⟩
  · exact fun w x hView hOn => next_holds_of_dedicated hView hOn.1
  · rintro w x ⟨p, hView⟩ hOn hLedger
    exact rewardLedger_next_iff hView hApart hOn.1 hOn.2 hLedger

namespace Localnet

theorem env_swapTakes (slot : Nat) (signers : List Pubkey) (hMarket : k ≠ market) :
    (Localnet.env slot signers).SwapTakes k := by
  intro swap bank bank' hSwap hSource
  simp only [Localnet.env] at hSwap
  split at hSwap
  · rename_i hFunded
    cases hSwap
    rw [hSource] at hFunded ⊢
    rw [Bank.moveTokens_amount, Balance.move_source _ _ hMarket]
    exact Nat.sub_add_cancel hFunded
  · cases hSwap

def stopped : List Tx := [start 0 0, stake 0 11 0 1000, stop 0 111]

theorem stopped_dedicated : Run.Along (next .reference) (fun w x =>
    x.Dedicated (createAccounts coin 0).pool [.startReward, .stake, .unstake, .claimReward,
      .compoundReward, .stopReward] (rewardVault 0) w ∧ x.SwapsPending (createAccounts coin 0).pool w)
    (dayPoolCreated coin 9 216000) (stopped.map .call) := by
  refine (along_dedicated (by decide)).and (Run.along_of_forall fun x hx w => ?_)
  simp only [stopped, List.map_cons, List.map_nil, List.mem_cons, List.not_mem_nil, or_false] at hx
  rcases hx with rfl | rfl | rfl <;> exact fun _ _ _ _ _ _ => env_swapTakes _ _ (by decide)

end Localnet

open Localnet in
theorem rewardLedger_iff_recordsPayment_stopped :
    RewardLedger (createAccounts coin 0).pool (dayPoolCreated coin 9 216000) ∧
      (Run.Along (next .reference) (fun w x => RewardLedger (createAccounts coin 0).pool
          (next .reference w x)) (dayPoolCreated coin 9 216000) (stopped.map .call) ↔
        Run.Along (next .reference) (OnSuccess .reference (createAccounts coin 0).pool
          (RecordsPayment (createAccounts coin 0).pool)) (dayPoolCreated coin 9 216000)
          (stopped.map .call)) :=
  rewardLedger_iff_recordsPayment (reachable_run coin 9 [open_]) (dayPool_created coin 9 216000 rfl)
    (by decide) rfl stopped_dedicated

open Localnet in
/-- After the stop the ledger counts 216000 reward tokens and the vault holds 100. -/
theorem not_rewardLedger_stopped : ¬ ∀ (R : Runtime) (w₀ w₁ : World) (env : Env) (a : CreatePool)
    (args : CreatePoolArgs) (actions : List Action), w₀.Reachable R →
    createPool R env a args w₀ = .ok w₁ → a.pool.stakeVault ≠ a.pool.rewardVault →
    w₀.bank.amount a.pool.rewardVault = 0 →
    Run.Along (next R) (fun w x => x.Dedicated a.pool [.startReward, .stake, .unstake, .claimReward,
      .compoundReward, .stopReward] a.pool.rewardVault w ∧ x.SwapsPending a.pool w) w₁ actions →
    Run.Along (next R) (fun w x => RewardLedger a.pool (next R w x)) w₁ actions := by
  intro hAll
  obtain ⟨-, -, hStopped, -⟩ := hAll .reference (dayPoolOpen coin 9) (dayPoolCreated coin 9 216000) _
    (createAccounts coin 0) (dayPool 216000) (stopped.map .call) (reachable_run coin 9 [open_])
    (dayPool_created coin 9 216000 rfl) (by decide) rfl stopped_dedicated
  have hEq := hStopped _ rfl
  revert hEq
  decide

def Pool.StakeFlow (p : Pool) (before after : Nat) : PoolOp → Prop
  | .stake _ _ amount => after = before + amount
  | .unstake _ _ amount => after + amount = before
  | .compound .. => before ≤ after ∧ (p.config.stakeMint = p.config.rewardMint → after = before)
  | .start _ | .stop _ | .claim .. => after = before

theorem exec_stakeVault (hHolds : w.Holds P p) (hMatched : ix.Matched P)
    (hApart : P.stakeVault ≠ P.rewardVault) (hOff : P.stakeVault ∉ ix.counterparts)
    (hSwap : ∀ a, ix = .compoundReward a → p.config.stakeMint ≠ p.config.rewardMint →
      env.SwapSpares P.stakeVault)
    (hOp : ix.op p.config env.slot = some op)
    (h : ix.exec R env w = .ok w') :
    p.StakeFlow (w.bank.amount P.stakeVault) (w'.bank.amount P.stakeVault) op := by
  have hPayout : ∀ u, ix.payee = some u → w'.bank.amount P.stakeVault + op.withdrawn =
      w.bank.amount P.stakeVault + op.deposited := by
    intro u hPayee
    have hAmount := exec_payout_amount hHolds hMatched hPayee hOff hOp h
    rw [if_pos rfl, if_neg hApart.symm] at hAmount
    omega
  cases ix with
  | initializePlatform a d f => exact hMatched.elim
  | createPool a args => exact hMatched.elim
  | startReward a =>
    cases hOp
    rw [(startReward_matched hHolds hMatched h).frame.2.2.2]
    rfl
  | stopReward a =>
    cases hOp
    have hSpec := stopReward_matched hHolds hMatched h
    have hDeployer : P.stakeVault ≠ a.deployerRewardTokenVault := by
      simpa [Instruction.counterparts] using hOff
    rw [hSpec.bank_eq, Bank.moveTokens_amount, hMatched.2.2]
    exact Balance.move_of_ne _ _ hApart hDeployer
  | stake a n =>
    cases hOp
    exact hPayout a.staker rfl
  | unstake a n =>
    cases hOp
    exact hPayout a.user rfl
  | claimReward a =>
    cases hOp
    exact hPayout a.claimer rfl
  | compoundReward a =>
    cases hOp
    obtain ⟨platform, hSpec⟩ := compoundReward_matched hHolds hMatched h
    have hBank := hSpec.bank_eq
    unfold CompoundReward.Swapped at hBank
    split at hBank
    · rename_i hDiffer
      have hSource : P.stakeVault ≠ a.poolRewardTokenVault := by
        rw [← hSpec.rewardVault, hHolds.rewardVault]
        exact hApart
      have hSpared := hSwap a rfl hDiffer.1 _
        (w.bank.moveLamports a.user a.treasury platform.performanceFee) _ hBank hSource
      exact ⟨hSpared, fun hMints => absurd hMints hDiffer.1⟩
    · rw [hBank]
      exact ⟨Nat.le_refl _, fun _ => rfl⟩

def Action.SwapsSpareStake (P : PoolAddress) (w : World) : Action → Prop
  | .call tx => ∀ a c, tx.instruction = .compoundReward a → tx.instruction.Matched P →
      w.poolConfig P.config = some c → c.stakeMint ≠ c.rewardMint → tx.env.SwapSpares P.stakeVault
  | .outside .. => True

def StakeBacked (P : PoolAddress) (w : World) : Prop :=
  ∀ s, w.poolState P.state = some s → s.totalStaked ≤ w.bank.amount P.stakeVault

/-- Where the mints are equal, a reward that is compounded is in the stake vault already. -/
def CompoundCovered (P : PoolAddress) (w : World) (tx : Tx) : Prop :=
  match tx.instruction with
  | .compoundReward a => ∀ c s info, w.poolConfig P.config = some c → w.poolState P.state = some s →
      w.userInfo a.userInfo = some info → c.stakeMint = c.rewardMint →
      s.totalStaked + info.owed c (s.accrue c tx.env.slot) ≤ w.bank.amount P.stakeVault
  | _ => True

theorem World.Holds.stakeBacked_iff (h : w.Holds P p) :
    StakeBacked P w ↔ p.state.totalStaked ≤ w.bank.amount P.stakeVault := by
  constructor
  · exact fun hBacked => hBacked _ h.state
  · intro hLe s hs
    rw [h.state_eq rfl hs]
    exact hLe

theorem compoundCovered_iff {tx : Tx} {a : CompoundReward} (hHolds : w.Holds P p)
    (hMatched : tx.instruction.Matched P) (hSucceeds : tx.Succeeds R w)
    (hix : tx.instruction = .compoundReward a) :
    CompoundCovered P w tx ↔ (p.config.stakeMint = p.config.rewardMint →
      p.state.totalStaked + (p.tick tx.env.slot).owed a.user ≤ w.bank.amount P.stakeVault) := by
  obtain ⟨env, ix⟩ := tx
  cases hix
  obtain ⟨w', hOk⟩ := hSucceeds
  obtain ⟨platform, hSpec⟩ := compoundReward_matched hHolds hMatched hOk
  constructor
  · intro hCovered
    exact hCovered _ _ _ hHolds.config hHolds.state hSpec.loadedUser
  · intro hCovered c s info hConfig hState hInfo
    rw [hHolds.config_eq rfl hConfig, hHolds.state_eq rfl hState, hHolds.user_eq hMatched.2.2 hInfo]
    exact hCovered

theorem stakeBacked_next_iff {kinds : List Instruction.Kind} {a : Action} (hHolds : w.Holds P p)
    (hApart : P.stakeVault ≠ P.rewardVault) (hOn : a.Dedicated P kinds P.stakeVault w)
    (hSwap : a.SwapsSpareStake P w) (hBacked : StakeBacked P w) :
    StakeBacked P (next R w a) ↔ OnSuccess R P (CompoundCovered P) w a := by
  have hBefore := hHolds.stakeBacked_iff.mp hBacked
  rcases next_dedicated (R := R) hHolds hOn with
    ⟨hSame, hAmount, hPasses⟩ | ⟨tx, op, rfl, hMatched, hOff, hOk, hOp, hEnabled, hAfter⟩
  · rw [hSame.stakeBacked_iff, hAmount]
    exact iff_of_true hBefore (onSuccess_of_passes hPasses)
  · have hFlow := exec_stakeVault hHolds hMatched hApart hOff
      (fun b hix => hSwap b _ hix hMatched hHolds.config) hOp hOk
    rw [hAfter.stakeBacked_iff, onSuccess_call_iff hMatched ⟨_, hOk⟩,
      Pool.step_totalStaked p op hEnabled]
    cases hix : tx.instruction with
    | compoundReward a =>
      rw [compoundCovered_iff hHolds hMatched ⟨_, hOk⟩ hix]
      rw [hix] at hOp
      cases hOp
      obtain ⟨hLe, hSame⟩ := hFlow
      simp only [PoolConfig.credited]
      split
      · rename_i hMints
        rw [hSame hMints]
        exact ⟨fun hCovered _ => hCovered, fun hCovered => hCovered hMints⟩
      · rename_i hMints
        exact iff_of_true (hBefore.trans hLe) fun hEqual => absurd hEqual hMints
    | initializePlatform a d f =>
      rw [hix] at hMatched
      exact hMatched.elim
    | createPool a args =>
      rw [hix] at hMatched
      exact hMatched.elim
    | _ =>
      rw [hix] at hOp
      cases hOp
      refine iff_of_true ?_ ?_
      · simp only [Pool.StakeFlow] at hFlow
        simp only
        omega
      · rw [CompoundCovered, hix]
        trivial

/-- Over every run from the creation of the pool, the stakes are backed in every state reached if
and only if no compound on equal mints records more than the stake vault holds. -/
theorem stakeBacked_iff_compoundCovered {a : CreatePool} {args : CreatePoolArgs}
    {actions : List Action} (hReach : w₀.Reachable R)
    (hCreate : createPool R env a args w₀ = .ok w₁)
    (hApart : a.pool.stakeVault ≠ a.pool.rewardVault)
    (hRun : Run.Along (next R) (fun w x => x.Dedicated a.pool [.startReward, .stake, .unstake,
      .claimReward, .compoundReward] a.pool.stakeVault w ∧ x.SwapsSpareStake a.pool w) w₁ actions) :
    StakeBacked a.pool w₁ ∧ (Run.Along (next R) (fun w x => StakeBacked a.pool (next R w x))
      w₁ actions ↔ Run.Along (next R) (OnSuccess R a.pool (CompoundCovered a.pool)) w₁ actions) := by
  obtain ⟨_, _, -, hHolds⟩ := createPool_holds hReach hCreate
  have hStart : StakeBacked a.pool w₁ := hHolds.stakeBacked_iff.mpr (Nat.zero_le _)
  refine ⟨hStart, Run.along_iff_of_step (I := fun w => ∃ p, w.Holds a.pool p) ?_ ?_ ⟨_, hHolds⟩
    hStart hRun⟩
  · exact fun w x hView hOn => next_holds_of_dedicated hView hOn.1
  · rintro w x ⟨p, hView⟩ hOn hBacked
    exact stakeBacked_next_iff hView hApart hOn.1 hOn.2 hBacked

/-- What was compounded since the pool was funded: a payout takes its amount out of one of the two
fields and adds it to the other, a compound only adds. -/
def PoolState.compounded (funding : Nat) (s : PoolState) : Nat := s.rewardAmount + s.paidRewards - funding

theorem Pool.StakeFlow.ledger {before after : Nat} (h : p.StakeFlow before after op) (hOp : p.Enabled op)
    (hMints : p.config.stakeMint = p.config.rewardMint) :
    after + ((p.step op).state.rewardAmount + (p.step op).state.paidRewards) + p.state.totalStaked =
      before + (p.state.rewardAmount + p.state.paidRewards) + (p.step op).state.totalStaked := by
  have hTotal := p.step_totalStaked op hOp
  rw [Pool.step_funding hOp]
  cases op with
  | start slot | stop slot | claim slot u =>
    rw [hTotal, h]
    rfl
  | stake slot u amount =>
    rw [hTotal, h]
    simp only [Pool.restaked]
    omega
  | unstake slot u amount =>
    have hAfter : after + amount = before := h
    have hLe := hOp.2.2.1
    rw [hTotal]
    simp only [Pool.restaked]
    omega
  | compound slot u =>
    rw [hTotal, h.2 hMints]
    simp only [Pool.restaked, PoolConfig.credited, if_pos hMints]
    omega

/-- A pool of equal mints whose stake vault and two reward fields hold `first` beyond the stakes. -/
structure World.Matches (P : PoolAddress) (first : Nat) (p : Pool) (w : World) : Prop where
  holds : w.Holds P p
  mints : p.config.stakeMint = p.config.rewardMint
  ledger : w.bank.amount P.stakeVault + (p.state.rewardAmount + p.state.paidRewards) =
    first + p.state.totalStaked

theorem World.Matches.next {kinds : List Instruction.Kind} {a : Action} {first : Nat}
    (h : w.Matches P first p) (hApart : P.stakeVault ≠ P.rewardVault)
    (hOn : a.Dedicated P kinds P.stakeVault w) (hSwap : a.SwapsSpareStake P w) :
    ∃ q, (next R w a).Matches P first q := by
  rcases next_dedicated (R := R) h.holds hOn with
    ⟨hKept, hAmount, -⟩ | ⟨tx, op, rfl, hMatched, hOff, hOk, hOp, hEnabled, hStep⟩
  · exact ⟨p, hKept, h.mints, hAmount ▸ h.ledger⟩
  · have hFlow := exec_stakeVault h.holds hMatched hApart hOff
      (fun b hix => hSwap b _ hix hMatched h.holds.config) hOp hOk
    have hMoves := hFlow.ledger hEnabled h.mints
    have hBefore := h.ledger
    refine ⟨p.step op, hStep, ?_, by omega⟩
    rcases op.start_or with ⟨slot, rfl⟩ | hNot
    · exact h.mints
    · rw [(p.step_schedule hNot).1]
      exact h.mints

/-- On equal mints the stakes are backed as long as no more was compounded than the stake vault held
when the pool was created. -/
theorem stakeBacked_iff_compounded_le {a : CreatePool} {args : CreatePoolArgs} {actions : List Action}
    {c : PoolConfig} {s : PoolState} (hReach : w₀.Reachable R)
    (hCreate : createPool R env a args w₀ = .ok w₁) (hConfig : w₁.poolConfig a.pool.config = some c)
    (hMints : c.stakeMint = c.rewardMint) (hApart : a.pool.stakeVault ≠ a.pool.rewardVault)
    (hRun : Run.Along (next R) (fun w x => x.Dedicated a.pool [.startReward, .stake, .unstake,
      .claimReward, .compoundReward] a.pool.stakeVault w ∧ x.SwapsSpareStake a.pool w) w₁ actions)
    (hState : (Run.run (next R) w₁ actions).poolState a.pool.state = some s) :
    StakeBacked a.pool (Run.run (next R) w₁ actions) ↔
      s.compounded args.initialFunding ≤ w₁.bank.amount a.pool.stakeVault := by
  obtain ⟨stakeMint, rewardMint, -, hHolds⟩ := createPool_holds hReach hCreate
  obtain rfl := hHolds.config_eq rfl hConfig
  have hAfter : ∃ p, (Run.run (next R) w₁ actions).Matches a.pool
      (w₁.bank.amount a.pool.stakeVault + args.initialFunding) p := by
    refine Run.run_invariant (I := fun w : World => ∃ p, w.Matches a.pool
      (w₁.bank.amount a.pool.stakeVault + args.initialFunding) p) ?_ ⟨_, hHolds, hMints, rfl⟩ hRun
    rintro w x ⟨p, hView⟩ ⟨hOn, hSwap⟩
    exact hView.next hApart hOn hSwap
  obtain ⟨p, hView⟩ := hAfter
  have hLedger := hView.ledger
  rw [hView.holds.stakeBacked_iff, hView.holds.state_eq rfl hState, PoolState.compounded]
  omega

namespace Localnet

def compounded : List Tx := [start 0 0, stake 0 11 0 10, compound 0 111 0]

theorem compounded_dedicated : Run.Along (next .reference) (fun w x =>
    x.Dedicated (createAccounts reward 0).pool [.startReward, .stake, .unstake, .claimReward,
      .compoundReward] (stakeVault 0) w ∧ x.SwapsSpareStake (createAccounts reward 0).pool w)
    (dayPoolCreated reward 9 216000) (compounded.map .call) := by
  refine (along_dedicated (by decide)).and (Run.along_of_forall fun x hx w => ?_)
  simp only [compounded, List.map_cons, List.map_nil, List.mem_cons, List.not_mem_nil, or_false] at hx
  rcases hx with rfl | rfl | rfl <;> exact fun _ _ _ _ _ _ => env_swapSpares _ _ _

end Localnet

open Localnet in
theorem stakeBacked_iff_compoundCovered_compounded :
    StakeBacked (createAccounts reward 0).pool (dayPoolCreated reward 9 216000) ∧
      (Run.Along (next .reference) (fun w x => StakeBacked (createAccounts reward 0).pool
          (next .reference w x)) (dayPoolCreated reward 9 216000) (compounded.map .call) ↔
        Run.Along (next .reference) (OnSuccess .reference (createAccounts reward 0).pool
          (CompoundCovered (createAccounts reward 0).pool)) (dayPoolCreated reward 9 216000)
          (compounded.map .call)) :=
  stakeBacked_iff_compoundCovered (reachable_run reward 9 [open_]) (dayPool_created reward 9 216000 rfl)
    (by decide) compounded_dedicated

open Localnet in
/-- The compound records 100 tokens more as stake; the vault still holds the 10 that were staked. -/
theorem not_stakeBacked_compounded : ¬ ∀ (R : Runtime) (w₀ w₁ : World) (env : Env) (a : CreatePool)
    (args : CreatePoolArgs) (actions : List Action), w₀.Reachable R →
    createPool R env a args w₀ = .ok w₁ → a.pool.stakeVault ≠ a.pool.rewardVault →
    Run.Along (next R) (fun w x => x.Dedicated a.pool [.startReward, .stake, .unstake, .claimReward,
      .compoundReward] a.pool.stakeVault w ∧ x.SwapsSpareStake a.pool w) w₁ actions →
    Run.Along (next R) (fun w x => StakeBacked a.pool (next R w x)) w₁ actions := by
  intro hAll
  obtain ⟨-, -, hCompounded, -⟩ := hAll .reference (dayPoolOpen reward 9)
    (dayPoolCreated reward 9 216000) _ (createAccounts reward 0) (dayPool 216000)
    (compounded.map .call) (reachable_run reward 9 [open_]) (dayPool_created reward 9 216000 rfl)
    (by decide) compounded_dedicated
  have hLe := hCompounded _ rfl
  revert hLe
  decide

end StakingOnSolana
