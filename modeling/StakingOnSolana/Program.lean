import StakingOnSolana.Instructions.ClaimReward
import StakingOnSolana.Instructions.CompoundReward
import StakingOnSolana.Instructions.CreatePool
import StakingOnSolana.Instructions.PendingReward
import StakingOnSolana.Instructions.Schedule
import StakingOnSolana.Instructions.Stake
import StakingOnSolana.Instructions.Unstake
import StakingOnSolana.Lib.Run

/-! # The program as a transition system

A transaction executes one instruction; where that fails the world stays as it was. Token
accounts and mints also change outside of the program, its own accounts do not. The lemmas
about `exec` say which accounts an instruction can change at all, whatever is passed to it.

`Localnet` is a ledger to compute on. Pools, users and token accounts have numbered addresses, and
every user owns enough tokens and lamports. One admin holds the vaults of all pools. Rewards are paid
in `reward`; the stake is the same token or `coin`.
-/
set_option autoImplicit false

namespace StakingOnSolana

inductive Instruction where
  | initializePlatform (a : Initialize) (deployFee performanceFee : Nat)
  | createPool (a : CreatePool) (args : CreatePoolArgs)
  | startReward (a : StartReward)
  | stopReward (a : StopReward)
  | stake (a : Stake) (stakeAmount : Nat)
  | unstake (a : Unstake) (unstakeAmount : Nat)
  | claimReward (a : ClaimReward)
  | compoundReward (a : CompoundReward)
  deriving DecidableEq, Repr

theorem update_eq_some {α : Type} {f : Pubkey → Option α} {k j : Pubkey} {v x : α}
    (h : Function.update f k (some v) j = some x) : j = k ∧ v = x ∨ f j = some x := by
  by_cases hj : j = k
  · subst hj
    rw [Function.update_self] at h
    exact Or.inl ⟨rfl, Option.some.inj h⟩
  · rw [Function.update_of_ne hj] at h
    exact Or.inr h

/-- The pool of the compound has two mints, so that its reward is swapped. -/
def CompoundReward.OfTwoMints (a : CompoundReward) (w : World) : Prop :=
  ∃ c, w.poolConfig a.poolConfigAccount = some c ∧ c.stakeMint ≠ c.rewardMint

namespace Instruction

def exec (R : Runtime) (env : Env) : Instruction → World → Except Error World
  | initializePlatform a deployFee performanceFee =>
    StakingOnSolana.initializePlatform R env a deployFee performanceFee
  | createPool a args => StakingOnSolana.createPool R env a args
  | startReward a => StakingOnSolana.startReward env a
  | stopReward a => StakingOnSolana.stopReward R env a
  | stake a stakeAmount => StakingOnSolana.stake R env a stakeAmount
  | unstake a unstakeAmount => StakingOnSolana.unstake R env a unstakeAmount
  | claimReward a => StakingOnSolana.claimReward R env a
  | compoundReward a => StakingOnSolana.compoundReward R env a

def poolConfigAccount : Instruction → Option Pubkey
  | initializePlatform .. | createPool .. => none
  | startReward a => some a.poolConfigAccount
  | stopReward a => some a.poolConfigAccount
  | stake a _ => some a.poolConfigAccount
  | unstake a _ => some a.poolConfigAccount
  | claimReward a => some a.poolConfigAccount
  | compoundReward a => some a.poolConfigAccount

def poolStateAccount : Instruction → Option Pubkey
  | initializePlatform .. | createPool .. => none
  | startReward a => some a.poolStateAccount
  | stopReward a => some a.poolStateAccount
  | stake a _ => some a.poolStateAccount
  | unstake a _ => some a.poolStateAccount
  | claimReward a => some a.poolStateAccount
  | compoundReward a => some a.poolStateAccount

def userInfoAccount : Instruction → Option Pubkey
  | initializePlatform .. | createPool .. | startReward .. | stopReward .. => none
  | stake a _ => some a.userInfo
  | unstake a _ => some a.userInfo
  | claimReward a => some a.userInfo
  | compoundReward a => some a.userInfo

/-- Between which token accounts an instruction moves tokens: by transfers in this order, or by
the swap of `compound_reward`. -/
def tokenRoutes : Instruction → List (Pubkey × Pubkey)
  | initializePlatform .. | startReward .. => []
  | createPool a _ => [(a.creatorRewardTokenVault, a.poolRewardTokenVault)]
  | stopReward a => [(a.poolRewardTokenVault, a.deployerRewardTokenVault)]
  | stake a _ => [(a.poolRewardTokenVault, a.userRewardTokenVault),
      (a.userStakeTokenVault, a.poolStakeTokenVault),
      (a.poolStakeTokenVault, a.creatorStakeTokenVault)]
  | unstake a _ => [(a.poolRewardTokenVault, a.userRewardTokenVault),
      (a.poolStakeTokenVault, a.creatorStakeTokenVault),
      (a.poolStakeTokenVault, a.userStakeTokenVault)]
  | claimReward a => [(a.poolRewardTokenVault, a.userRewardTokenVault)]
  | compoundReward a => [(a.poolRewardTokenVault, a.poolStakeTokenVault)]

variable {R : Runtime} {env : Env} {ix : Instruction} {w w' : World}

/-- Only `create_pool` and `start_reward` write a pool configuration. -/
theorem exec_poolConfig_eq (h : ix.exec R env w = .ok w') :
    w'.poolConfig = w.poolConfig ∨
      (∃ a args stakeMint rewardMint, ix = createPool a args ∧
        Created env a args w w' stakeMint rewardMint) ∨
      ∃ a c s, ix = startReward a ∧ Started env a w w' c s := by
  cases ix with
  | initializePlatform a d p =>
    obtain ⟨_, rfl⟩ := initializePlatform_ok h
    exact Or.inl rfl
  | createPool a args =>
    obtain ⟨_, _, hSpec⟩ := createPool_ok h
    exact Or.inr (Or.inl ⟨a, args, _, _, rfl, hSpec⟩)
  | startReward a =>
    obtain ⟨c, s, hSpec⟩ := startReward_ok h
    exact Or.inr (Or.inr ⟨a, c, s, rfl, hSpec⟩)
  | stopReward a =>
    obtain ⟨_, _, hSpec⟩ := stopReward_ok h
    exact Or.inl hSpec.frame.1
  | stake a n =>
    obtain ⟨_, _, _, _, hSpec⟩ := stake_ok h
    exact Or.inl hSpec.frame.1
  | unstake a n =>
    obtain ⟨_, _, _, _, hSpec⟩ := unstake_ok h
    exact Or.inl hSpec.frame.1
  | claimReward a =>
    obtain ⟨_, _, _, _, hSpec⟩ := claimReward_ok h
    exact Or.inl hSpec.frame.1
  | compoundReward a =>
    obtain ⟨_, _, _, _, hSpec⟩ := compoundReward_ok h
    exact Or.inl hSpec.frame.1

/-- A pool configuration stays as it is, except that `start_reward` sets the schedule of a pool
that has none. -/
theorem exec_poolConfig (h : ix.exec R env w = .ok w') {k : Pubkey} {c : PoolConfig}
    (hc : w.poolConfig k = some c) :
    w'.poolConfig k = some c ∨ ∃ a, ix = startReward a ∧ a.poolConfigAccount = k ∧
      c.startSlot = 0 ∧ w'.poolConfig k = some { c with
        startSlot := env.slot + 10, endSlot := env.slot + 10 + c.duration * slotsPerDay } := by
  rcases exec_poolConfig_eq h with hSame | ⟨a, args, _, _, -, hSpec⟩ | ⟨a, c', s, rfl, hSpec⟩
  · exact Or.inl (hSame ▸ hc)
  · have hNew : k ≠ a.poolConfigAccount := by
      rintro rfl
      cases hc.symm.trans hSpec.vacantConfig.1
    rw [hSpec.poolConfig_eq, Function.update_of_ne hNew]
    exact Or.inl hc
  · rw [hSpec.poolConfig_eq]
    by_cases hk : k = a.poolConfigAccount
    · subst hk
      cases hc.symm.trans hSpec.loadedConfig
      rw [Function.update_self]
      exact Or.inr ⟨a, rfl, rfl, hSpec.notStarted, rfl⟩
    · rw [Function.update_of_ne hk]
      exact Or.inl hc

/-- Only `initialize` writes a platform account: that of its treasury, which signs for it. -/
theorem exec_platform (h : ix.exec R env w = .ok w') :
    w'.platform = w.platform ∨ ∃ a deployFee performanceFee,
      ix = initializePlatform a deployFee performanceFee ∧ a.admin ∈ env.signers ∧
      a.treasury ∈ env.signers ∧ a.platform = .platformPda a.treasury ∧
      w'.platform = Function.update w.platform a.platform
        (some ⟨deployFee, performanceFee, a.treasury⟩) := by
  cases ix with
  | initializePlatform a d p =>
    obtain ⟨hAdmin, hTreasury, hDerived⟩ := initializePlatform_signed h
    obtain ⟨_, rfl⟩ := initializePlatform_ok h
    exact Or.inr ⟨a, d, p, rfl, hAdmin, hTreasury, hDerived, rfl⟩
  | createPool a args =>
    obtain ⟨_, _, hSpec⟩ := createPool_ok h
    exact Or.inl hSpec.frame.2.1
  | startReward a =>
    obtain ⟨_, _, hSpec⟩ := startReward_ok h
    exact Or.inl hSpec.frame.2.1
  | stopReward a =>
    obtain ⟨_, _, hSpec⟩ := stopReward_ok h
    exact Or.inl hSpec.frame.2.2.1
  | stake a n =>
    obtain ⟨_, _, _, _, hSpec⟩ := stake_ok h
    exact Or.inl hSpec.frame.2.1
  | unstake a n =>
    obtain ⟨_, _, _, _, hSpec⟩ := unstake_ok h
    exact Or.inl hSpec.frame.2.1
  | claimReward a =>
    obtain ⟨_, _, _, _, hSpec⟩ := claimReward_ok h
    exact Or.inl hSpec.frame.2.1
  | compoundReward a =>
    obtain ⟨_, _, _, _, hSpec⟩ := compoundReward_ok h
    exact Or.inl hSpec.frame.2.1

theorem exec_poolState_eq (h : ix.exec R env w = .ok w') :
    (ix.poolStateAccount = none ∧ w'.poolState = w.poolState) ∨
      ∃ k s, w'.poolState = Function.update w.poolState k (some s) ∧
        (ix.poolStateAccount = some k ∨ ix.poolStateAccount = none ∧ w.poolState k = none) := by
  cases ix with
  | initializePlatform a d p =>
    obtain ⟨_, rfl⟩ := initializePlatform_ok h
    exact Or.inl ⟨rfl, rfl⟩
  | createPool a args =>
    obtain ⟨_, _, hSpec⟩ := createPool_ok h
    exact Or.inr ⟨_, _, hSpec.poolState_eq, Or.inr ⟨rfl, hSpec.vacantState.2.1⟩⟩
  | startReward a =>
    obtain ⟨_, _, hSpec⟩ := startReward_ok h
    exact Or.inr ⟨_, _, hSpec.poolState_eq, Or.inl rfl⟩
  | stopReward a =>
    obtain ⟨_, _, hSpec⟩ := stopReward_ok h
    exact Or.inr ⟨_, _, hSpec.poolState_eq, Or.inl rfl⟩
  | stake a n =>
    obtain ⟨_, _, _, _, hSpec⟩ := stake_ok h
    exact Or.inr ⟨_, _, hSpec.poolState_eq, Or.inl rfl⟩
  | unstake a n =>
    obtain ⟨_, _, _, _, hSpec⟩ := unstake_ok h
    exact Or.inr ⟨_, _, hSpec.poolState_eq, Or.inl rfl⟩
  | claimReward a =>
    obtain ⟨_, _, _, _, hSpec⟩ := claimReward_ok h
    exact Or.inr ⟨_, _, hSpec.poolState_eq, Or.inl rfl⟩
  | compoundReward a =>
    obtain ⟨_, _, _, _, hSpec⟩ := compoundReward_ok h
    exact Or.inr ⟨_, _, hSpec.poolState_eq, Or.inl rfl⟩

theorem exec_poolState (h : ix.exec R env w = .ok w') {k : Pubkey} {s : PoolState}
    (hs : w.poolState k = some s) (hNot : ix.poolStateAccount ≠ some k) :
    w'.poolState k = some s := by
  rcases exec_poolState_eq h with ⟨-, hSame⟩ | ⟨k', s', hUpdate, hNamed⟩
  · rw [hSame]
    exact hs
  · have hNe : k ≠ k' := by
      rintro rfl
      rcases hNamed with hNamed | ⟨-, hVacant⟩
      · exact hNot hNamed
      · cases hs.symm.trans hVacant
    rw [hUpdate, Function.update_of_ne hNe]
    exact hs

theorem exec_poolState_of_ne (h : ix.exec R env w = .ok w') {k k' : Pubkey}
    (hNamed : ix.poolStateAccount = some k') (hNe : k ≠ k') : w'.poolState k = w.poolState k := by
  rcases exec_poolState_eq h with ⟨-, hSame⟩ | ⟨k'', s, hUpdate, hEq | ⟨hNone, -⟩⟩
  · rw [hSame]
  · obtain rfl : k' = k'' := Option.some.inj (hNamed.symm.trans hEq)
    rw [hUpdate, Function.update_of_ne hNe]
  · cases hNamed.symm.trans hNone

theorem exec_poolState_isSome (h : ix.exec R env w = .ok w') {k : Pubkey} {s : PoolState}
    (hs : w.poolState k = some s) : ∃ s', w'.poolState k = some s' := by
  rcases exec_poolState_eq h with ⟨-, hSame⟩ | ⟨k', s', hUpdate, -⟩
  · exact ⟨s, hSame ▸ hs⟩
  · rw [hUpdate]
    by_cases hk : k = k'
    · exact ⟨s', hk ▸ Function.update_self _ _ _⟩
    · exact ⟨s, (Function.update_of_ne hk _ _).trans hs⟩

theorem exec_poolConfig_created (h : ix.exec R env w = .ok w') {k : Pubkey} {c : PoolConfig}
    (hOld : w.poolConfig k = none) (hNew : w'.poolConfig k = some c) :
    ∃ s, w'.poolState c.stateAddr = some s := by
  rcases exec_poolConfig_eq h with hSame | ⟨a, args, _, _, -, hSpec⟩ | ⟨a, c', s, -, hSpec⟩
  · rw [hSame, hOld] at hNew
    cases hNew
  · rw [hSpec.poolConfig_eq] at hNew
    rcases update_eq_some hNew with ⟨-, rfl⟩ | hKept
    · exact ⟨_, hSpec.poolState_eq ▸ Function.update_self _ _ _⟩
    · cases hOld.symm.trans hKept
  · rw [hSpec.poolConfig_eq] at hNew
    rcases update_eq_some hNew with ⟨rfl, -⟩ | hKept
    · cases hOld.symm.trans hSpec.loadedConfig
    · cases hOld.symm.trans hKept

theorem exec_userInfo (h : ix.exec R env w = .ok w') {k : Pubkey}
    (hNot : ix.userInfoAccount ≠ some k) : w'.userInfo k = w.userInfo k := by
  have hUpdate : ∀ (k' : Pubkey) (v : Option UserInfo), some k' ≠ some k →
      Function.update w.userInfo k' v k = w.userInfo k := by
    intro k' v hNe
    exact Function.update_of_ne (fun hEq => hNe (congrArg some hEq.symm)) _ _
  cases ix with
  | initializePlatform a d p =>
    obtain ⟨_, rfl⟩ := initializePlatform_ok h
    rfl
  | createPool a args =>
    obtain ⟨_, _, hSpec⟩ := createPool_ok h
    rw [hSpec.frame.1]
  | startReward a =>
    obtain ⟨_, _, hSpec⟩ := startReward_ok h
    rw [hSpec.frame.1]
  | stopReward a =>
    obtain ⟨_, _, hSpec⟩ := stopReward_ok h
    rw [hSpec.frame.2.1]
  | stake a n =>
    obtain ⟨_, _, _, _, hSpec⟩ := stake_ok h
    rw [hSpec.userInfo_eq, hUpdate _ _ hNot]
  | unstake a n =>
    obtain ⟨_, _, _, _, hSpec⟩ := unstake_ok h
    rw [hSpec.userInfo_eq, hUpdate _ _ hNot]
  | claimReward a =>
    obtain ⟨_, _, _, _, hSpec⟩ := claimReward_ok h
    rw [hSpec.userInfo_eq, hUpdate _ _ hNot]
  | compoundReward a =>
    obtain ⟨_, _, _, _, hSpec⟩ := compoundReward_ok h
    rw [hSpec.userInfo_eq, hUpdate _ _ hNot]

/-- Token balances change by transfers along the routes of the instruction, or by the swap. -/
theorem exec_amount (h : ix.exec R env w = .ok w') :
    (∃ amounts, w'.bank.amount = Balance.moveAll w.bank.amount (ix.tokenRoutes.zip amounts)) ∨
      ∃ a pending bank, ix = compoundReward a ∧ a.OfTwoMints w ∧ bank.amount = w.bank.amount ∧
        env.ammProgram (a.swap pending) bank = some w'.bank := by
  cases ix with
  | initializePlatform a d p =>
    obtain ⟨_, rfl⟩ := initializePlatform_ok h
    exact Or.inl ⟨[], rfl⟩
  | createPool a args =>
    obtain ⟨_, _, hSpec⟩ := createPool_ok h
    exact Or.inl ⟨[args.initialFunding], hSpec.amount_eq⟩
  | startReward a =>
    obtain ⟨_, _, hSpec⟩ := startReward_ok h
    exact Or.inl ⟨[], congrArg Bank.amount hSpec.frame.2.2.2⟩
  | stopReward a =>
    obtain ⟨_, _, hSpec⟩ := stopReward_ok h
    exact Or.inl ⟨[_], congrArg Bank.amount hSpec.bank_eq⟩
  | stake a n =>
    obtain ⟨_, _, _, _, hSpec⟩ := stake_ok h
    exact Or.inl ⟨[_, _, _], congrArg Bank.amount hSpec.bank_eq⟩
  | unstake a n =>
    obtain ⟨_, _, _, _, hSpec⟩ := unstake_ok h
    exact Or.inl ⟨[_, _, _], congrArg Bank.amount hSpec.bank_eq⟩
  | claimReward a =>
    obtain ⟨_, _, _, _, hSpec⟩ := claimReward_ok h
    exact Or.inl ⟨[_], congrArg Bank.amount hSpec.bank_eq⟩
  | compoundReward a =>
    obtain ⟨platform, c, _, _, hSpec⟩ := compoundReward_ok h
    have hBank := hSpec.bank_eq
    unfold CompoundReward.Swapped at hBank
    split at hBank
    · rename_i hDiffer
      exact Or.inr ⟨a, _, w.bank.moveLamports a.user a.treasury platform.performanceFee, rfl,
        ⟨c, hSpec.loadedConfig, hDiffer.1⟩, rfl, hBank⟩
    · refine Or.inl ⟨[], ?_⟩
      rw [hBank]
      rfl

end Instruction

/-- The program called by a swap leaves the balance of `k` alone, unless it is swapped. -/
def Env.SwapKeeps (env : Env) (k : Pubkey) : Prop :=
  ∀ swap bank bank', env.ammProgram swap bank = some bank' → k ≠ swap.userSourceTokenAccount →
    k ≠ swap.userDestinationTokenAccount → bank'.amount k = bank.amount k

/-- The program called by a swap takes nothing from `k`, unless it is the source. -/
def Env.SwapSpares (env : Env) (k : Pubkey) : Prop :=
  ∀ swap bank bank', env.ammProgram swap bank = some bank' → k ≠ swap.userSourceTokenAccount →
    bank.amount k ≤ bank'.amount k

namespace Instruction

variable {R : Runtime} {env : Env} {ix : Instruction} {w w' : World} {k : Pubkey}

theorem exec_amount_eq (h : ix.exec R env w = .ok w')
    (hRoutes : ∀ route ∈ ix.tokenRoutes, k ≠ route.1 ∧ k ≠ route.2)
    (hSwap : ∀ a, ix = compoundReward a → env.SwapKeeps k) :
    w'.bank.amount k = w.bank.amount k := by
  rcases exec_amount h with ⟨amounts, hMoves⟩ | ⟨a, pending, bank, rfl, -, hSame, hBank⟩
  · rw [hMoves]
    refine Balance.moveAll_of_not_mem _ fun m hm => ?_
    exact hRoutes m.1 (List.of_mem_zip hm).1
  · obtain ⟨hSource, hDestination⟩ := hRoutes _ List.mem_cons_self
    rw [hSwap a rfl _ _ _ hBank hSource hDestination, hSame]

theorem exec_amount_le (h : ix.exec R env w = .ok w')
    (hSources : ∀ route ∈ ix.tokenRoutes, k ≠ route.1)
    (hSwap : ∀ a, ix = compoundReward a → a.OfTwoMints w → env.SwapSpares k) :
    w.bank.amount k ≤ w'.bank.amount k := by
  rcases exec_amount h with ⟨amounts, hMoves⟩ | ⟨a, pending, bank, rfl, hSwaps, hSame, hBank⟩
  · rw [hMoves]
    refine Balance.le_moveAll_of_not_source _ fun m hm => ?_
    exact hSources m.1 (List.of_mem_zip hm).1
  · rw [← hSame]
    exact hSwap a rfl hSwaps _ _ _ hBank (hSources _ List.mem_cons_self)

end Instruction

structure Tx where
  env : Env
  instruction : Instruction

inductive Action where
  | call (tx : Tx)
  | outside (bank : Bank) (mint : Pubkey → Option Mint)

def next (R : Runtime) (w : World) : Action → World
  | .call tx =>
    match tx.instruction.exec R tx.env w with
    | .ok w' => w'
    | .error _ => w
  | .outside bank mint => { w with bank, mint }

def Tx.Succeeds (R : Runtime) (w : World) (tx : Tx) : Prop :=
  ∃ w', tx.instruction.exec R tx.env w = .ok w'

theorem next_of_ok {R : Runtime} {w w' : World} {tx : Tx}
    (h : tx.instruction.exec R tx.env w = .ok w') : next R w (.call tx) = w' := by
  simp only [next, h]

theorem next_of_not_succeeds {R : Runtime} {w : World} {tx : Tx} (h : ¬tx.Succeeds R w) :
    next R w (.call tx) = w := by
  simp only [next]
  split
  · rename_i w' hOk
    exact absurd ⟨w', hOk⟩ h
  · rfl

theorem exec_of_isOk {R : Runtime} {w : World} {tx : Tx}
    (h : (tx.instruction.exec R tx.env w).isOk = true) :
    tx.instruction.exec R tx.env w = .ok (next R w (.call tx)) := by
  cases hExec : tx.instruction.exec R tx.env w with
  | ok w' => rw [next_of_ok hExec]
  | error e =>
    rw [hExec] at h
    cases h

theorem next_call (R : Runtime) (w : World) (tx : Tx) :
    (¬tx.Succeeds R w ∧ next R w (.call tx) = w) ∨
      ∃ w', tx.instruction.exec R tx.env w = .ok w' ∧ next R w (.call tx) = w' := by
  by_cases h : tx.Succeeds R w
  · obtain ⟨w', hOk⟩ := h
    exact Or.inr ⟨w', hOk, next_of_ok hOk⟩
  · exact Or.inl ⟨h, next_of_not_succeeds h⟩

/-- What a change outside of the program keeps, and every successful call, is kept by every action. -/
theorem next_of_exec {R : Runtime} {I : World → Prop} {w : World} (h : I w)
    (hOutside : ∀ bank mint, I { w with bank, mint })
    (hExec : ∀ {env : Env} {ix : Instruction} {w' : World}, ix.exec R env w = .ok w' → I w')
    (a : Action) : I (next R w a) := by
  cases a with
  | outside bank mint => exact hOutside bank mint
  | call tx =>
    rcases next_call R w tx with ⟨-, hSame⟩ | ⟨w', hOk, hNext⟩
    · rwa [hSame]
    · rw [hNext]
      exact hExec hOk

/-- Before the program is first used it has no accounts. -/
structure World.Genesis (w : World) : Prop where
  poolConfig : ∀ k, w.poolConfig k = none
  poolState : ∀ k, w.poolState k = none
  userInfo : ∀ k, w.userInfo k = none
  platform : ∀ k, w.platform k = none

def World.Reachable (R : Runtime) (w : World) : Prop :=
  ∃ g actions, World.Genesis g ∧ w = Run.run (next R) g actions

theorem World.Reachable.induction {R : Runtime} {I : World → Prop} {w : World} (h : w.Reachable R)
    (hGenesis : ∀ g, World.Genesis g → I g) (hNext : ∀ w a, I w → I (next R w a)) : I w := by
  obtain ⟨g, actions, hStart, rfl⟩ := h
  exact Run.run_invariant (Q := fun _ _ => True) (fun w a hI _ => hNext w a hI) (hGenesis g hStart)
    (Run.along_of_forall fun _ _ _ => trivial)

theorem World.Reachable.run {R : Runtime} {w : World} (h : w.Reachable R) (actions : List Action) :
    (Run.run (next R) w actions).Reachable R := by
  obtain ⟨g, before, hStart, rfl⟩ := h
  exact ⟨g, before ++ actions, hStart, (Run.run_append _ _ _).symm⟩

theorem World.Reachable.of_ok {R : Runtime} {env : Env} {w w' : World} (h : w.Reachable R)
    (ix : Instruction) (hOk : ix.exec R env w = .ok w') : w'.Reachable R := by
  have hNext := h.run [.call ⟨env, ix⟩]
  change (StakingOnSolana.next R w (.call ⟨env, ix⟩)).Reachable R at hNext
  rwa [next_of_ok hOk] at hNext

def World.UsersHavePools (w : World) : Prop :=
  ∀ k info, w.userInfo k = some info →
    ∃ poolConfig staker c, k = .userInfoPda poolConfig staker ∧ w.poolConfig poolConfig = some c

/-- Only a stake creates a user account. -/
theorem Instruction.exec_userInfo_created {R : Runtime} {env : Env} {ix : Instruction} {w w' : World}
    (h : ix.exec R env w = .ok w') {k : Pubkey} {info : UserInfo} (hOld : w.userInfo k = none)
    (hNew : w'.userInfo k = some info) :
    ∃ a n platform c s old, a.userInfo = k ∧ Staked R env a n w w' platform c s old := by
  by_cases hk : ix.userInfoAccount = some k
  · cases ix with
    | stake a n =>
      obtain ⟨platform, c, s, old, hSpec⟩ := stake_ok h
      exact ⟨a, n, platform, c, s, old, Option.some.inj hk, hSpec⟩
    | unstake a n =>
      obtain ⟨_, _, _, _, hSpec⟩ := unstake_ok h
      cases hk
      cases hOld.symm.trans hSpec.loadedUser
    | claimReward a =>
      obtain ⟨_, _, _, _, hSpec⟩ := claimReward_ok h
      cases hk
      cases hOld.symm.trans hSpec.loadedUser
    | compoundReward a =>
      obtain ⟨_, _, _, _, hSpec⟩ := compoundReward_ok h
      cases hk
      cases hOld.symm.trans hSpec.loadedUser
    | _ => cases hk
  · rw [Instruction.exec_userInfo h hk, hOld] at hNew
    cases hNew

theorem World.UsersHavePools.exec {R : Runtime} {env : Env} {ix : Instruction} {w w' : World}
    (h : w.UsersHavePools) (hOk : ix.exec R env w = .ok w') : w'.UsersHavePools := by
  intro k info hInfo
  have hFound : ∃ P u c, k = .userInfoPda P u ∧ w.poolConfig P = some c := by
    cases hOld : w.userInfo k with
    | none =>
      obtain ⟨a, n, _, c, _, _, rfl, hSpec⟩ := Instruction.exec_userInfo_created hOk hOld hInfo
      exact ⟨_, _, c, hSpec.derived, hSpec.loadedConfig⟩
    | some old => exact h k old hOld
  obtain ⟨P, u, c, hk, hc⟩ := hFound
  rcases Instruction.exec_poolConfig hOk hc with hKept | ⟨_, -, -, -, hSet⟩
  · exact ⟨P, u, c, hk, hKept⟩
  · exact ⟨P, u, _, hk, hSet⟩

def World.PoolsHaveStates (w : World) : Prop :=
  ∀ k c, w.poolConfig k = some c → ∃ s, w.poolState c.stateAddr = some s

theorem World.PoolsHaveStates.exec {R : Runtime} {env : Env} {ix : Instruction} {w w' : World}
    (h : w.PoolsHaveStates) (hOk : ix.exec R env w = .ok w') : w'.PoolsHaveStates := by
  intro k c hConfig
  cases hOld : w.poolConfig k with
  | none => exact Instruction.exec_poolConfig_created hOk hOld hConfig
  | some old =>
    obtain ⟨s, hs⟩ := h k old hOld
    have hAddr : c.stateAddr = old.stateAddr := by
      rcases Instruction.exec_poolConfig hOk hOld with hSame | ⟨_, -, -, -, hSet⟩
      · cases hConfig.symm.trans hSame
        rfl
      · cases hConfig.symm.trans hSet
        rfl
    exact hAddr ▸ Instruction.exec_poolState_isSome hOk hs

theorem World.Reachable.poolsHaveStates {R : Runtime} {w : World} (h : w.Reachable R) :
    w.PoolsHaveStates := by
  apply h.induction
  · intro g hGenesis k c hConfig
    cases (hGenesis.poolConfig k).symm.trans hConfig
  · intro w a hI
    exact next_of_exec (I := World.PoolsHaveStates) hI (fun _ _ => hI) hI.exec a

theorem World.Reachable.usersHavePools {R : Runtime} {w : World} (h : w.Reachable R) :
    w.UsersHavePools := by
  apply h.induction
  · intro g hGenesis k info hInfo
    cases (hGenesis.userInfo k).symm.trans hInfo
  · intro w a hI
    exact next_of_exec (I := World.UsersHavePools) hI (fun _ _ => hI) hI.exec a

namespace Localnet

def admin : Pubkey := .address 0
def creator : Pubkey := .address 1
def treasury : Pubkey := .address 2
def platform : Pubkey := .platformPda treasury
def reward : Pubkey := .address 3
def coin : Pubkey := .address 4
def market : Pubkey := .address 5

def user (i : Nat) : Pubkey := .address (10000 + i)
def userStake (i : Nat) : Pubkey := .address (20000 + i)
def userReward (i : Nat) : Pubkey := .address (30000 + i)

def config (j : Nat) : Pubkey := .address (10 * (j + 1))
def state (j : Nat) : Pubkey := .address (10 * (j + 1) + 1)
def stakeVault (j : Nat) : Pubkey := .address (10 * (j + 1) + 2)
def rewardVault (j : Nat) : Pubkey := .address (10 * (j + 1) + 3)
def creatorReward (j : Nat) : Pubkey := .address (10 * (j + 1) + 4)
def creatorStake (j : Nat) : Pubkey := .address (10 * (j + 1) + 5)
def userInfo (j i : Nat) : Pubkey := .userInfoPda (config j) (user i)

def tokenAccount (stakeMint : Pubkey) : Pubkey → Option TokenAccount
  | .address n =>
    if 30000 ≤ n then some ⟨reward, .address (n - 20000)⟩
    else if 20000 ≤ n then some ⟨stakeMint, .address (n - 10000)⟩
    else if 10000 ≤ n then none
    else if n < 10 then if n = 5 then some ⟨reward, market⟩ else none
    else match n % 10 with
      | 2 => some ⟨stakeMint, admin⟩
      | 3 => some ⟨reward, admin⟩
      | 4 => some ⟨reward, creator⟩
      | 5 => some ⟨stakeMint, creator⟩
      | _ => none
  | _ => none

def amount : Pubkey → Nat
  | .address n => if 20000 ≤ n ∧ n < 30000 ∨ 10 ≤ n ∧ n < 10000 ∧ n % 10 = 4 then 1000000000 else 0
  | _ => 0

def genesis (stakeMint : Pubkey) (decimals : Nat) : World where
  poolConfig _ := none
  poolState _ := none
  userInfo _ := none
  platform _ := none
  mint k := if k = reward then some ⟨decimals⟩ else if k = stakeMint then some ⟨9⟩ else none
  bank := ⟨tokenAccount stakeMint, amount, fun _ => 1000000000000⟩
  events := []

theorem genesis_genesis (stakeMint : Pubkey) (decimals : Nat) : (genesis stakeMint decimals).Genesis :=
  ⟨fun _ => rfl, fun _ => rfl, fun _ => rfl, fun _ => rfl⟩

/-- The swap of these runs takes the reward tokens from the vault and gives nothing back. -/
def env (slot : Nat) (signers : List Pubkey) : Env where
  slot
  signers
  ammProgram swap bank :=
    if swap.amountIn ≤ bank.amount swap.userSourceTokenAccount then
      some (bank.moveTokens swap.userSourceTokenAccount market swap.amountIn)
    else none

theorem env_swapSpares (slot : Nat) (signers : List Pubkey) (k : Pubkey) :
    (env slot signers).SwapSpares k := by
  intro swap bank bank' hSwap hSource
  simp only [env] at hSwap
  split at hSwap
  · cases hSwap
    exact Balance.le_move_of_ne_source _ _ hSource
  · cases hSwap

def open_ : Tx := ⟨env 0 [admin, treasury], .initializePlatform ⟨platform, admin, treasury⟩ 0 0⟩

def createAccounts (stakeMint : Pubkey) (j : Nat) : CreatePool :=
  ⟨config j, state j, platform, creator, treasury, stakeMint, reward, stakeVault j, rewardVault j,
    creatorReward j⟩

def create (stakeMint : Pubkey) (j : Nat) (args : CreatePoolArgs) : Tx :=
  ⟨env 0 [creator, config j, state j], .createPool (createAccounts stakeMint j) args⟩

def start (j slot : Nat) : Tx := ⟨env slot [creator], .startReward ⟨creator, config j, state j⟩⟩

def stop (j slot : Nat) : Tx :=
  ⟨env slot [admin], .stopReward ⟨admin, config j, rewardVault j, creatorReward j, state j⟩⟩

def stake (j slot i n : Nat) : Tx := ⟨env slot [admin, user i], .stake ⟨userInfo j i, user i, admin,
  treasury, platform, config j, state j, userStake i, userReward i, stakeVault j, rewardVault j,
  creatorStake j, creatorStake j⟩ n⟩

def unstakeAccounts (j i : Nat) : Unstake := ⟨user i, admin, treasury, config j, state j, platform,
  userInfo j i, userStake i, userReward i, stakeVault j, rewardVault j, creatorStake j, creatorStake j⟩

def unstake (j slot i n : Nat) : Tx :=
  ⟨env slot [admin, user i], .unstake (unstakeAccounts j i) n⟩

def claim (j slot i : Nat) : Tx := ⟨env slot [admin, user i], .claimReward ⟨user i, admin, treasury,
  userInfo j i, config j, state j, platform, userReward i, rewardVault j⟩⟩

def compound (j slot i : Nat) : Tx := ⟨env slot [admin, user i], .compoundReward ⟨user i, admin,
  treasury, config j, state j, userInfo j i, platform, stakeVault j, rewardVault j⟩⟩

def run (w : World) (txs : List Tx) : World := Run.run (next .reference) w (txs.map .call)

theorem reachable_run (stakeMint : Pubkey) (decimals : Nat) (txs : List Tx) :
    (run (genesis stakeMint decimals) txs).Reachable .reference :=
  ⟨genesis stakeMint decimals, txs.map .call, genesis_genesis stakeMint decimals, rfl⟩

def dayPool (funding : Nat) : CreatePoolArgs := ⟨0, 0, funding, 1, 1⟩

/-- A user has ten tokens at stake since the first slot after the start. -/
def stakedPool : World :=
  run (genesis coin 9) [open_, create coin 0 (dayPool 216000), start 0 0, stake 0 11 0 10]

def dayPoolOpen (stakeMint : Pubkey) (decimals : Nat) : World := run (genesis stakeMint decimals) [open_]

def dayPoolCreated (stakeMint : Pubkey) (decimals funding : Nat) : World :=
  next .reference (dayPoolOpen stakeMint decimals) (.call (create stakeMint 0 (dayPool funding)))

theorem dayPool_created (stakeMint : Pubkey) (decimals funding : Nat)
    (h : ((create stakeMint 0 (dayPool funding)).instruction.exec .reference
      (create stakeMint 0 (dayPool funding)).env (dayPoolOpen stakeMint decimals)).isOk = true) :
    createPool .reference (env 0 [creator, config 0, state 0]) (createAccounts stakeMint 0)
      (dayPool funding) (dayPoolOpen stakeMint decimals) =
        .ok (dayPoolCreated stakeMint decimals funding) :=
  exec_of_isOk h

end Localnet

end StakingOnSolana
