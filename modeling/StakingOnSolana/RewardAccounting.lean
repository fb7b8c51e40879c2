import StakingOnSolana.Refinement

/-! # Rewards paid, owed and accrued

Over any run on one pool the users together are owed what the pool has accrued, up to the
rounding of their debts; a pool that is funded beyond its budget by that rounding never
lacks the reward that an `unstake` pays first.
-/
set_option autoImplicit false

namespace StakingOnSolana

open RewardShare

variable {R : Runtime} {w w₀ w₁ : World} {P : PoolAddress} {p : Pool}

def PoolAddress.view (P : PoolAddress) (u : Pubkey) : PendingReward :=
  ⟨.userInfoPda P.config u, P.config, P.state⟩

theorem pendingReward_holds {env : Env} {u : Pubkey} {pending : Nat} (hHolds : w.Holds P p)
    (h : pendingReward env (P.view u) w = .ok pending) :
    (p.user u).rewardDebt ≤ UserInfo.earned p.config (p.tick env.slot).state (p.staked u) ∧
      pending = (p.tick env.slot).owed u := by
  obtain ⟨c, s, info, hConfig, hState, hInfo, hDebt, hPending⟩ := pendingReward_ok h
  obtain rfl := hHolds.config_eq rfl hConfig
  obtain rfl := hHolds.state_eq rfl hState
  obtain rfl := hHolds.user_eq rfl hInfo
  exact ⟨hDebt, hPending⟩

/-- What is paid, and what the view returns for any users at any slot, is within the reward that
an update at that slot would have accrued, and less than one unit for each of `changes`. -/
def OwedWithin (P : PoolAddress) (changes : Nat) (w : World) : Prop :=
  ∀ (env : Env) (people : Finset Pubkey) (pending : Pubkey → Nat),
    (∀ u ∈ people, pendingReward env (P.view u) w = .ok (pending u)) →
    ∀ c s, w.poolConfig P.config = some c → w.poolState P.state = some s →
      s.paidRewards + ∑ u ∈ people, pending u ≤
        (s.accrue c env.slot).shouldTotalPaid + changes * (c.precisionFactor - 1) / c.precisionFactor

theorem Pool.Sound.owedWithin {changes : Nat} (hSound : p.Sound changes) (hHolds : w.Holds P p) :
    OwedWithin P changes w := by
  intro env people pending hPending c s hConfig hState
  obtain rfl := hHolds.config_eq rfl hConfig
  obtain rfl := hHolds.state_eq rfl hState
  have hViews : ∑ u ∈ people, pending u = ∑ u ∈ people, (p.tick env.slot).owed u :=
    Finset.sum_congr rfl fun u hu => (pendingReward_holds hHolds (hPending u hu)).2
  rw [hViews]
  exact hSound.owed_le env.slot people

theorem run_sound {env : Env} {a : CreatePool} {args : CreatePoolArgs} {actions : List Action}
    {kinds : List Instruction.Kind} (hReach : w₀.Reachable R)
    (hCreate : createPool R env a args w₀ = .ok w₁) (hRun : ∀ x ∈ actions, x.OnPool a.pool kinds) :
    ∃ p, (Run.run (next R) w₁ actions).Holds a.pool p ∧
      p.Sound (Run.tally (next R) (stakeChanges R a.pool) w₁ actions) := by
  obtain ⟨stakeMint, rewardMint, -, hHolds⟩ := createPool_holds hReach hCreate
  have hRun := run_holds_tally (R := R) (I := Pool.Sound) (fun n p op _ hI _ => hI.step op) hHolds
    (Pool.fresh_sound _ _) hRun
  rwa [Nat.zero_add] at hRun

theorem owedWithin_stakeChanges {env : Env} {a : CreatePool} {args : CreatePoolArgs}
    {actions : List Action} (hReach : w₀.Reachable R)
    (hCreate : createPool R env a args w₀ = .ok w₁)
    (hRun : ∀ x ∈ actions, x.OnPool a.pool [.startReward, .stake, .unstake, .claimReward]) :
    OwedWithin a.pool (Run.tally (next R) (stakeChanges R a.pool) w₁ actions)
      (Run.run (next R) w₁ actions) := by
  obtain ⟨p, hHolds, hSound⟩ := run_sound hReach hCreate hRun
  exact hSound.owedWithin hHolds

namespace Localnet

def halfToken : List Tx := [start 0 0, stake 0 11 0 2, unstake 0 12 0 1, stake 0 12 1 1]

end Localnet

open Localnet in
theorem owedWithin_stakeChanges_halfToken :
    OwedWithin (createAccounts coin 0).pool 3 (run (dayPoolCreated coin 8 216000) halfToken) := by
  have hChanges : Run.tally (next .reference) (stakeChanges .reference (createAccounts coin 0).pool)
      (dayPoolCreated coin 8 216000) (halfToken.map .call) = 3 := by
    decide
  rw [← hChanges]
  exact owedWithin_stakeChanges (reachable_run coin 8 [open_]) (dayPool_created coin 8 216000 rfl)
    (onPool_of_matched (by decide))

open Localnet in
/-- Without the rounding the bound fails: at slot 13 each of the two users is owed one token,
one was paid before, and two are accrued. -/
theorem not_owedWithin_zero : ¬ ∀ (R : Runtime) (w₀ w₁ : World) (env : Env) (a : CreatePool)
    (args : CreatePoolArgs) (txs : List Tx), w₀.Reachable R → createPool R env a args w₀ = .ok w₁ →
    (∀ c, w₁.poolConfig a.pool.config = some c → c.rewardMintDecimals ≤ 9) →
    (∀ tx ∈ txs, tx.instruction.Matched a.pool ∧
      tx.instruction.kind ∈ [.startReward, .stake, .unstake, .claimReward]) →
    (txs.map fun tx => tx.env.slot).Pairwise (· ≤ ·) →
    OwedWithin a.pool 0 (Run.run (next R) w₁ (txs.map .call)) := by
  intro hAll
  have hOwed := hAll .reference (dayPoolOpen coin 8) (dayPoolCreated coin 8 216000) _
    (createAccounts coin 0) (dayPool 216000) halfToken (reachable_run coin 8 [open_])
    (dayPool_created coin 8 216000 rfl)
    (by rintro c ⟨⟩; decide) (by decide) (by decide)
  have hSum := hOwed (env 13 []) {user 0, user 1} (fun _ => 1) (by decide) _ _ rfl rfl
  revert hSum
  decide

theorem run_backed {env : Env} {a : CreatePool} {args : CreatePoolArgs} {actions : List Action}
    {kinds : List Instruction.Kind} {c : PoolConfig} (hReach : w₀.Reachable R)
    (hCreate : createPool R env a args w₀ = .ok w₁) (hConfig : w₁.poolConfig a.pool.config = some c)
    (hRun : ∀ x ∈ actions, x.OnPool a.pool kinds) :
    ∃ p, (Run.run (next R) w₁ actions).Holds a.pool p ∧ p.Backed c args.initialFunding := by
  obtain ⟨stakeMint, rewardMint, -, hHolds⟩ := createPool_holds hReach hCreate
  obtain rfl := hHolds.config_eq rfl hConfig
  exact run_holds (R := R) (fun p op _ hI hOp => hI.step hOp) hHolds (Pool.fresh_backed rfl _) hRun

theorem Pool.Backed.owed_le_rewardAmount {c : PoolConfig} {funding changes : Nat}
    (hBacked : p.Backed c funding) (hSound : p.Sound changes)
    (hFunded : c.budget + changes * (c.precisionFactor - 1) / c.precisionFactor ≤ funding)
    (u : Pubkey) (slot : Nat) : (p.tick slot).owed u ≤ p.state.rewardAmount := by
  have hOwed := hSound.owed_le slot {u}
  have hAccrued := (hBacked.scheduled.tick slot).should_le
  have hKept := hBacked.funded
  obtain ⟨startSlot, endSlot, hConfig⟩ := hBacked.terms
  have hBudget : (p.tick slot).config.budget = c.budget := hBacked.budget_eq
  have hPrecision : p.config.precisionFactor = c.precisionFactor := by
    rw [hConfig]
    rfl
  rw [Finset.sum_singleton, hPrecision] at hOwed
  omega

theorem unstake_ne_insufficientReward {env env' : Env} {a : CreatePool} {args : CreatePoolArgs}
    {actions : List Action} {c : PoolConfig} {u : Unstake} {amount : Nat} (hReach : w₀.Reachable R)
    (hCreate : createPool R env a args w₀ = .ok w₁) (hConfig : w₁.poolConfig a.pool.config = some c)
    (hMints : c.stakeMint ≠ c.rewardMint)
    (hRun : ∀ x ∈ actions, x.OnPool a.pool [.startReward, .stake, .unstake, .claimReward])
    (hFunded : c.budget + Run.tally (next R) (stakeChanges R a.pool) w₁ actions *
      (c.precisionFactor - 1) / c.precisionFactor ≤ args.initialFunding)
    (hMatched : (Instruction.unstake u amount).Matched a.pool) :
    unstake R env' u amount (Run.run (next R) w₁ actions) ≠ .error (.brew .insufficientReward) := by
  intro hShort
  obtain ⟨p, hHolds, hSound⟩ := run_sound hReach hCreate hRun
  obtain ⟨p', hHolds', hBacked⟩ := run_backed hReach hCreate hConfig hRun
  obtain rfl := hHolds.unique hHolds'
  obtain ⟨hConfigKey, hStateKey, hUserKey⟩ := hMatched
  obtain ⟨c', s, info, hLoadedConfig, hLoadedState, hLoadedUser, hFew⟩ :=
    unstake_insufficientReward hShort
  obtain rfl := hHolds.config_eq hConfigKey hLoadedConfig
  obtain rfl := hHolds.state_eq hStateKey hLoadedState
  obtain rfl := hHolds.user_eq hUserKey hLoadedUser
  have hEnough := hBacked.owed_le_rewardAmount hSound hFunded u.user env'.slot
  rw [hBacked.availableRewardTokens_eq hMints] at hFew
  exact absurd hEnough (Nat.not_le_of_lt hFew)

namespace Localnet

def lastSlot : List Tx := [start 0 0, stake 0 11 0 10, unstake 0 216009 0 9, stake 0 216009 1 2,
  stake 0 216009 2 2, claim 0 216010 0, claim 0 216010 1]

def overstaked : List Tx := [start 0 0, stake 0 11 0 1000000]

end Localnet

def FullBudgetSuffices (mints : PoolConfig → Prop) : Prop :=
  ∀ (R : Runtime) (w₀ w₁ : World) (env env' : Env) (a : CreatePool) (args : CreatePoolArgs)
    (txs : List Tx) (c : PoolConfig) (u : Unstake) (amount : Nat) (info : UserInfo),
    w₀.Reachable R → createPool R env a args w₀ = .ok w₁ → w₁.poolConfig a.pool.config = some c →
    c.rewardMintDecimals ≤ 9 → mints c → c.budget ≤ args.initialFunding →
    (∀ tx ∈ txs, tx.instruction.Matched a.pool ∧
      tx.instruction.kind ∈ [.startReward, .stake, .unstake, .claimReward]) →
    (Instruction.unstake u amount).Matched a.pool →
    (Run.run (next R) w₁ (txs.map .call)).userInfo u.userInfo = some info →
    0 < amount → amount < info.stakedAmount →
    unstake R env' u amount (Run.run (next R) w₁ (txs.map .call)) ≠ .error (.brew .insufficientReward)

open Localnet in
/-- With three tokens more than the budget the last user of `lastSlot` can leave. -/
theorem unstake_ne_insufficientReward_lastSlot :
    StakingOnSolana.unstake .reference (env 216010 [admin, user 2]) (unstakeAccounts 0 2) 1
      (run (dayPoolCreated coin 8 216003) lastSlot) ≠ .error (.brew .insufficientReward) :=
  have hCreate := dayPool_created coin 8 216003 rfl
  unstake_ne_insufficientReward (reachable_run coin 8 [open_]) hCreate rfl (by decide)
    (onPool_of_matched (by decide)) (by decide) (by decide)

open Localnet in
/-- The full budget alone does not suffice, whether the mints are equal or not. -/
theorem not_fullBudgetSuffices :
    ¬FullBudgetSuffices (fun c => c.stakeMint = c.rewardMint) ∧
      ¬FullBudgetSuffices (fun c => c.stakeMint ≠ c.rewardMint) := by
  constructor
  · intro hAll
    -- One million staked tokens are subtracted from the 216000 reward tokens.
    refine hAll .reference (dayPoolOpen reward 6) (dayPoolCreated reward 6 216000) _
      (env 1011 [admin, user 0]) (createAccounts reward 0) (dayPool 216000)
      overstaked _ (unstakeAccounts 0 0) 1 ⟨1000000, 0, 0⟩
      (reachable_run reward 6 [open_]) (dayPool_created reward 6 216000 rfl) rfl
      (by decide) (by decide) (by decide) (by decide) (by decide) (by decide) (by decide) (by decide) ?_
    rfl
  · intro hAll
    refine hAll .reference (dayPoolOpen coin 8) (dayPoolCreated coin 8 216000) _
      (env 216010 [admin, user 2]) (createAccounts coin 0) (dayPool 216000) lastSlot _
      (unstakeAccounts 0 2) 1 ⟨2, 43199, 0⟩ (reachable_run coin 8 [open_])
      (dayPool_created coin 8 216000 rfl) rfl
      (by decide) (by decide) (by decide) (by decide) (by decide) (by decide) (by decide) (by decide) ?_
    rfl

end StakingOnSolana
