import StakingOnSolana.Custody
import StakingOnSolana.RewardAccounting

/-! # What a compound does, and what it should do

With equal mints a compound stands for a claim and a stake of the reward claimed; with different
mints a swap stands between the two. In both cases the ledger goes another way: the first leaves
out the reward that the claim takes from `reward_amount`, the second credits nothing, since the
balance of the swapped vault is read from the same copy before and after the swap.
-/
set_option autoImplicit false

namespace StakingOnSolana

variable {R : Runtime} {env env₁ env₂ viewer : Env} {w w' w₁ w₂ : World} {P : PoolAddress} {p : Pool}
  {k u : Pubkey} {c : PoolConfig} {pending : Nat}

namespace Pool

theorem owed_after_claim (p : Pool) (slot : Nat) (u : Pubkey) : (p.step (.claim slot u)).owed u = 0 := by
  by_cases hNone : p.staked u = 0
  · rw [step_claim_of_unstaked slot hNone]
    exact owed_of_unstaked hNone slot
  · rw [step_claim_of_staked slot hNone]
    simp only [owed, reopen, Function.update_self]
    exact Nat.sub_self _

theorem tick_after_claim (p : Pool) (slot : Nat) (u : Pubkey) :
    (p.step (.claim slot u)).tick slot = p.step (.claim slot u) := by
  have hNot : ∀ later, PoolOp.claim slot u ≠ .start later := nofun
  exact p.tick_step hNot

theorem step_stake_after_claim (p : Pool) (slot : Nat) (u : Pubkey) (amount : Nat) :
    (p.step (.claim slot u)).step (.stake slot u amount) =
      (p.step (.claim slot u)).reopen u ((p.step (.claim slot u)).staked u + amount) := by
  have hPay : (p.step (.claim slot u)).pay u = p.step (.claim slot u) := by
    rw [pay, owed_after_claim]
    rfl
  change (((p.step (.claim slot u)).tick slot).pay u).reopen u _ = _
  rw [tick_after_claim, hPay]

theorem step_compound_eq (slot : Nat) (hMints : p.config.stakeMint = p.config.rewardMint)
    (hStaked : p.staked u ≠ 0) :
    p.step (.compound slot u) =
      let q := (p.step (.claim slot u)).step (.stake slot u ((p.tick slot).owed u))
      { q with state := { q.state with rewardAmount := p.state.rewardAmount } } := by
  have hCredited : p.config.credited ((p.tick slot).owed u) = (p.tick slot).owed u := if_pos hMints
  have hClaim := step_claim_of_staked slot hStaked
  have hKept : (p.step (.claim slot u)).staked u = p.staked u := by
    rw [hClaim]
    simp [staked, reopen]
  have hTotal : (p.step (.claim slot u)).state = ((p.tick slot).pay u).state := by
    rw [hClaim]
    exact reopen_same_state _ u
  have hUser : (p.step (.claim slot u)).user = (((p.tick slot).pay u).reopen u (p.staked u)).user := by
    rw [hClaim]
  rw [step_compound_of_staked slot hStaked, hCredited, step_stake_after_claim, hKept]
  simp only [reopen, hTotal, hUser, Function.update_idem, Function.update_self, Pool.mk.injEq]
  refine ⟨?_, ?_, ?_⟩
  · rw [hClaim]
    rfl
  · rfl
  · rw [hClaim]
    rfl

end Pool

/-- Two worlds agree on the ledger of the pool, the user's account and the balances of its vaults. -/
structure SameOutcome (P : PoolAddress) (u : Pubkey) (w w' : World) : Prop where
  ledger : (w.poolState P.state).map (fun s => (s.totalStaked, s.rewardAmount, s.paidRewards,
    s.accTokenPerShare, s.shouldTotalPaid)) = (w'.poolState P.state).map fun s => (s.totalStaked,
    s.rewardAmount, s.paidRewards, s.accTokenPerShare, s.shouldTotalPaid)
  userInfo : w.userInfo (.userInfoPda P.config u) = w'.userInfo (.userInfoPda P.config u)
  stakeVault : w.bank.amount P.stakeVault = w'.bank.amount P.stakeVault
  rewardVault : w.bank.amount P.rewardVault = w'.bank.amount P.rewardVault

def VaultsOff (P : PoolAddress) (ix : Instruction) : Prop :=
  P.stakeVault ∉ ix.counterparts ∧ P.rewardVault ∉ ix.counterparts

instance (P : PoolAddress) (ix : Instruction) : Decidable (VaultsOff P ix) :=
  inferInstanceAs (Decidable (_ ∧ _))

/-- From the state `w` and in one slot, a call that compounds the user's reward, and two calls that
claim it and stake the amount of it. The two vaults of the pool are used for nothing else. -/
structure BothWays (R : Runtime) (P : PoolAddress) (u : Pubkey) (slot pending : Nat)
    (w compounded restaked : World) : Prop where
  apart : P.stakeVault ≠ P.rewardVault
  compound : ∃ env a, env.slot = slot ∧ a.user = u ∧ (Instruction.compoundReward a).Matched P ∧
    compoundReward R env a w = .ok compounded
  claim_stake : ∃ env₁ env₂ a b w₁, env₁.slot = slot ∧ env₂.slot = slot ∧ a.claimer = u ∧ b.staker = u ∧
    ((Instruction.claimReward a).Matched P ∧ VaultsOff P (.claimReward a)) ∧
    ((Instruction.stake b pending).Matched P ∧ VaultsOff P (.stake b pending)) ∧
    claimReward R env₁ a w = .ok w₁ ∧ stake R env₂ b pending w₁ = .ok restaked

/-- The two ways agree on the whole ledger and the user's account, except for `rewardAmount`; the
tokens of the reward stay in the reward vault after a compound. -/
theorem BothWays.outcome {slot : Nat} {compounded restaked : World}
    (h : BothWays R P u slot pending w compounded restaked) (hHolds : w.Holds P p)
    (hMints : p.config.stakeMint = p.config.rewardMint) (hFee : p.config.stakeFee = 0)
    (hPending : pending = (p.tick slot).owed u) (hPos : 0 < pending) :
    (∃ q, restaked.Holds P q ∧ q.state.rewardAmount + pending = p.state.rewardAmount ∧
      compounded.Holds P { q with state := { q.state with rewardAmount := p.state.rewardAmount } }) ∧
      compounded.bank.amount P.rewardVault = restaked.bank.amount P.rewardVault + pending ∧
      compounded.bank.amount P.stakeVault + pending = restaked.bank.amount P.stakeVault := by
  have hApart := h.apart
  obtain ⟨env, a, rfl, rfl, hMatched, hCompound⟩ := h.compound
  obtain ⟨env₁, env₂, b, d, w₁, hSlot₁, hSlot₂, hClaimer, hStaker, ⟨hClaimMatched, hClaimOff⟩,
    ⟨hStakeMatched, hStakeOff⟩, hClaim, hStake⟩ := h.claim_stake
  have hStaked : p.staked a.user ≠ 0 := Pool.staked_of_owed (hPending ▸ hPos)
  have hNoFee : pending - feeOn p.config.stakeFee pending = pending := by
    rw [hFee, feeOn, Nat.mul_zero, Nat.zero_div, Nat.sub_zero]
  obtain ⟨hEnabled, hCompounded⟩ := compoundReward_holds hHolds hMatched hCompound
  obtain ⟨-, hClaimed⟩ := claimReward_holds hHolds hClaimMatched hClaim
  obtain ⟨-, hRestaked⟩ := stake_holds hClaimed hStakeMatched hStake
  have hNot : ∀ slot, PoolOp.claim env₁.slot b.claimer ≠ .start slot := nofun
  have hConfig := (p.step_schedule hNot).1
  rw [hConfig, hNoFee] at hRestaked
  -- What the stake after the claim finds to pay.
  have hNothing : ((p.step (.claim env₁.slot b.claimer)).tick env₂.slot).owed d.staker = 0 := by
    rw [hSlot₁, hSlot₂, hClaimer, hStaker, Pool.tick_after_claim]
    exact p.owed_after_claim _ _
  have hCompoundVault := exec_rewardVault hHolds hMatched hApart nofun
    (fun _ _ hDiffer => absurd hMints hDiffer) rfl hCompound
  have hClaimVault := exec_rewardVault hHolds hClaimMatched hApart hClaimOff.2
    nofun rfl hClaim
  have hStakeVault := exec_rewardVault hClaimed hStakeMatched hApart
    hStakeOff.2 nofun rfl hStake
  have hCompoundStakes := exec_stakeVault hHolds hMatched hApart nofun
    (fun _ _ hDiffer => absurd hMints hDiffer) rfl hCompound
  have hClaimStakes := exec_stakeVault hHolds hClaimMatched hApart hClaimOff.1
    nofun rfl hClaim
  have hStakeStakes := exec_stakeVault hClaimed hStakeMatched hApart
    hStakeOff.1 nofun rfl hStake
  simp only [Pool.StakeFlow, hConfig, hNoFee] at hCompoundStakes hClaimStakes hStakeStakes
  simp only [Pool.rewardOut, if_pos hMints, hNothing] at hCompoundVault hClaimVault hStakeVault
  rw [hSlot₁, hClaimer, ← hPending] at hClaimVault
  rw [hSlot₁, hSlot₂, hClaimer, hStaker] at hRestaked
  have hOutcome := Pool.step_compound_eq env.slot hMints hStaked
  rw [← hPending] at hOutcome
  rw [hOutcome] at hCompounded
  refine ⟨⟨_, hRestaked, ?_, hCompounded⟩, ?_, ?_⟩
  · rw [Pool.step_stake_after_claim, Pool.step_claim_of_staked _ hStaked, hPending]
    exact Nat.sub_add_cancel hEnabled.recorded
  · omega
  · have hSame := hCompoundStakes.2 hMints
    omega

/-- A compound of a positive reward never has the outcome of a claim and a stake. -/
theorem not_sameOutcome {slot : Nat} {compounded restaked : World} (hReach : w.Reachable R)
    (hConfig : w.poolConfig k = some c) (hMints : c.stakeMint = c.rewardMint) (hFee : c.stakeFee = 0)
    (hView : pendingReward viewer ((c.address k).view u) w = .ok pending) (hSlot : viewer.slot = slot)
    (hPos : 0 < pending) (hBoth : BothWays R (c.address k) u slot pending w compounded restaked) :
    ¬SameOutcome (c.address k) u compounded restaked := by
  intro hSame
  obtain ⟨p, hHolds, rfl⟩ := World.Holds.of_reachable hReach hConfig
  obtain ⟨-, hPending⟩ := pendingReward_holds hHolds hView
  obtain ⟨⟨q, hRestaked, hLess, hCompounded⟩, -, -⟩ :=
    hBoth.outcome hHolds hMints hFee (hSlot ▸ hPending) hPos
  have hLedger := hSame.ledger
  rw [hCompounded.state, hRestaked.state] at hLedger
  simp only [Option.map_some, Option.some.injEq, Prod.mk.injEq] at hLedger
  omega

namespace Localnet

def claimAccounts (j i : Nat) : ClaimReward := ⟨user i, admin, treasury, userInfo j i, config j, state j,
  platform, userReward i, rewardVault j⟩

def compoundAccounts (j i : Nat) : CompoundReward := ⟨user i, admin, treasury, config j, state j,
  userInfo j i, platform, stakeVault j, rewardVault j⟩

def stakeAccounts (j i : Nat) : Stake := ⟨userInfo j i, user i, admin, treasury, platform, config j,
  state j, userStake i, userReward i, stakeVault j, rewardVault j, creatorStake j, creatorStake j⟩

def sameMintStaked : World := run (dayPoolCreated reward 9 216000) [start 0 0, stake 0 11 0 10]

theorem sameMintStaked_reachable : sameMintStaked.Reachable .reference :=
  reachable_run reward 9 [open_, create reward 0 (dayPool 216000), start 0 0, stake 0 11 0 10]

theorem sameMintStaked_config : sameMintStaked.poolConfig (config 0) = some
    { (createAccounts reward 0).poolConfig (dayPool 216000) ⟨9⟩ ⟨9⟩ with
      startSlot := 10, endSlot := 216010 } := rfl

theorem sameMintStaked_view : pendingReward (Localnet.env 21 [])
    ((createAccounts reward 0).pool.view (user 0)) sameMintStaked = .ok 10 := rfl

theorem sameMintStaked_bothWays : BothWays .reference (createAccounts reward 0).pool (user 0) 21 10
    sameMintStaked (run sameMintStaked [compound 0 21 0])
    (run sameMintStaked [claim 0 21 0, stake 0 21 0 10]) := by
  have hCompound : (compound 0 21 0).instruction.exec .reference (compound 0 21 0).env sameMintStaked =
      .ok (run sameMintStaked [compound 0 21 0]) := exec_of_isOk rfl
  have hClaim : (claim 0 21 0).instruction.exec .reference (claim 0 21 0).env sameMintStaked =
      .ok (run sameMintStaked [claim 0 21 0]) := exec_of_isOk rfl
  have hStake : (stake 0 21 0 10).instruction.exec .reference (stake 0 21 0 10).env
      (run sameMintStaked [claim 0 21 0]) =
        .ok (run sameMintStaked [claim 0 21 0, stake 0 21 0 10]) := exec_of_isOk rfl
  exact ⟨by decide, ⟨Localnet.env 21 [admin, user 0], compoundAccounts 0 0, rfl, rfl, by decide, hCompound⟩,
    Localnet.env 21 [admin, user 0], Localnet.env 21 [admin, user 0], claimAccounts 0 0,
    stakeAccounts 0 0, run sameMintStaked [claim 0 21 0], rfl, rfl, rfl, rfl, by decide, by decide,
    hClaim, hStake⟩

end Localnet

open Localnet in
theorem not_sameOutcome_sameMintStaked : ¬SameOutcome (createAccounts reward 0).pool (user 0)
    (run sameMintStaked [compound 0 21 0]) (run sameMintStaked [claim 0 21 0, Localnet.stake 0 21 0 10]) :=
  not_sameOutcome sameMintStaked_reachable sameMintStaked_config rfl rfl sameMintStaked_view rfl
    (by decide) sameMintStaked_bothWays

open Localnet in
theorem not_compound_claim_stake : ¬ ∀ (R : Runtime) (w compounded restaked : World) (viewer : Env)
    (k u : Pubkey) (c : PoolConfig) (slot pending : Nat), w.Reachable R → w.poolConfig k = some c →
    c.stakeMint = c.rewardMint → c.stakeFee = 0 →
    pendingReward viewer ((c.address k).view u) w = .ok pending → viewer.slot = slot → 0 < pending →
    BothWays R (c.address k) u slot pending w compounded restaked →
    SameOutcome (c.address k) u compounded restaked := by
  intro hAll
  have hSame := hAll .reference sameMintStaked _ _ (Localnet.env 21 []) (config 0) (user 0) _ 21 10
    sameMintStaked_reachable sameMintStaked_config rfl rfl sameMintStaked_view rfl (by decide)
    sameMintStaked_bothWays
  have hLedger := hSame.ledger
  revert hLedger
  decide

/-- The stake grows by what the swap put into the stake vault, and the reward counts as paid. -/
structure SwapCredited (P : PoolAddress) (u : Pubkey) (pending : Nat) (w w' : World) : Prop where
  stakedAmount : ∀ info info', w.userInfo (.userInfoPda P.config u) = some info →
    w'.userInfo (.userInfoPda P.config u) = some info' →
    info'.stakedAmount + w.bank.amount P.stakeVault = info.stakedAmount + w'.bank.amount P.stakeVault
  totalStaked : ∀ s s', w.poolState P.state = some s → w'.poolState P.state = some s' →
    s'.totalStaked + w.bank.amount P.stakeVault = s.totalStaked + w'.bank.amount P.stakeVault
  paidRewards : ∀ s s', w.poolState P.state = some s → w'.poolState P.state = some s' →
    s'.paidRewards = s.paidRewards + pending

/-- A compound of a pool with different mints records the reward as paid, credits nothing and drops
the debt that was left: the user gives his reward up. -/
theorem compoundReward_forfeits {a : CompoundReward} (hHolds : w.Holds P p)
    (hMatched : (Instruction.compoundReward a).Matched P)
    (hMints : p.config.stakeMint ≠ p.config.rewardMint) (hPos : 0 < (p.tick env.slot).owed a.user)
    (hOk : compoundReward R env a w = .ok w') :
    ∃ q, w'.Holds P q ∧ (∀ v, q.staked v = p.staked v) ∧ q.state.totalStaked = p.state.totalStaked ∧
      q.state.paidRewards = p.state.paidRewards + (p.tick env.slot).owed a.user ∧
      (q.tick env.slot).owed a.user = 0 := by
  obtain ⟨-, hAfter⟩ := compoundReward_holds hHolds hMatched hOk
  have hStaked : p.staked a.user ≠ 0 := Pool.staked_of_owed hPos
  have hCredited : p.config.credited ((p.tick env.slot).owed a.user) = 0 := if_neg hMints
  have hNot : ∀ slot, PoolOp.compound env.slot a.user ≠ .start slot := nofun
  have hTick := p.tick_step hNot
  have hStep := Pool.step_compound_of_staked env.slot hStaked
  rw [hCredited, Nat.add_zero] at hStep
  refine ⟨_, hAfter, fun v => ?_, ?_, ?_, ?_⟩
  · rw [hStep]
    rcases eq_or_ne v a.user with rfl | hv
    · simp [Pool.staked, Pool.reopen]
    · exact congrArg UserInfo.stakedAmount (Pool.reopen_user_of_ne _ _ _ hv)
  · have hTotal := congrArg PoolState.totalStaked (((p.tick env.slot).record a.user).reopen_same_state a.user)
    rw [hStep]
    exact hTotal
  · rw [hStep]
    rfl
  · change (p.step (.compound env.slot a.user)).tick env.slot = _ at hTick
    rw [hTick, hStep]
    simp only [Pool.owed, Pool.reopen, Function.update_self]
    exact Nat.sub_self _

/-- Whatever the swap puts into the stake vault, the compound does not credit it. -/
theorem not_swapCredited {a : CompoundReward} (hReach : w.Reachable R)
    (hConfig : w.poolConfig k = some c) (hMints : c.stakeMint ≠ c.rewardMint)
    (hMatched : (Instruction.compoundReward a).Matched (c.address k))
    (hView : pendingReward viewer ((c.address k).view a.user) w = .ok pending)
    (hSlot : viewer.slot = env.slot) (hPos : 0 < pending)
    (hOk : compoundReward R env a w = .ok w')
    (hReceived : w.bank.amount c.poolStakeTokenVault < w'.bank.amount c.poolStakeTokenVault) :
    ¬SwapCredited (c.address k) a.user pending w w' := by
  intro hCredits
  obtain ⟨p, hHolds, rfl⟩ := World.Holds.of_reachable hReach hConfig
  obtain ⟨-, rfl⟩ := pendingReward_holds hHolds hView
  rw [hSlot] at hPos
  obtain ⟨q, hAfter, -, hTotal, -, -⟩ := compoundReward_forfeits hHolds hMatched hMints hPos hOk
  have hGrown := hCredits.totalStaked _ _ hHolds.state hAfter.state
  change _ + w.bank.amount p.config.poolStakeTokenVault = _ + w'.bank.amount p.config.poolStakeTokenVault
    at hGrown
  omega

namespace Localnet

def marketEnv (slot : Nat) (signers : List Pubkey) : Env where
  slot
  signers
  ammProgram swap bank :=
    if swap.amountIn ≤ bank.amount swap.userSourceTokenAccount then
      some ((bank.moveTokens swap.userSourceTokenAccount market swap.amountIn).moveTokens (userStake 9)
        swap.userDestinationTokenAccount swap.amountIn)
    else none

def compoundBySwap : Tx := ⟨marketEnv 21 [admin, user 0], .compoundReward (compoundAccounts 0 0)⟩

def swapped : World := next .reference stakedPool (.call compoundBySwap)

theorem swapped_ok : compoundReward .reference (marketEnv 21 [admin, user 0]) (compoundAccounts 0 0)
    stakedPool = .ok swapped :=
  have hOk : compoundBySwap.instruction.exec .reference compoundBySwap.env stakedPool = .ok swapped :=
    exec_of_isOk rfl
  hOk

theorem stakedPool_config : stakedPool.poolConfig (config 0) = some
    { (createAccounts coin 0).poolConfig (dayPool 216000) ⟨9⟩ ⟨9⟩ with
      startSlot := 10, endSlot := 216010 } := rfl

theorem stakedPool_view : pendingReward (Localnet.env 21 [])
    ((createAccounts coin 0).pool.view (user 0)) stakedPool = .ok 10 := rfl

end Localnet

open Localnet in
theorem not_swapCredited_swapped : stakedPool.bank.amount (stakeVault 0) = 10 ∧
    swapped.bank.amount (stakeVault 0) = 20 ∧
    ¬SwapCredited (createAccounts coin 0).pool (user 0) 10 stakedPool swapped :=
  ⟨rfl, rfl, not_swapCredited (reachable_run coin 9 _) stakedPool_config (by decide) (by decide)
    stakedPool_view rfl
    (by decide) swapped_ok (by decide)⟩

open Localnet in
theorem not_compound_credits_swap : ¬ ∀ (R : Runtime) (w w' : World) (env viewer : Env) (k : Pubkey)
    (c : PoolConfig) (a : CompoundReward) (pending : Nat), w.Reachable R → w.poolConfig k = some c →
    c.stakeMint ≠ c.rewardMint → c.poolStakeTokenVault ≠ c.poolRewardTokenVault →
    (Instruction.compoundReward a).Matched (c.address k) →
    pendingReward viewer ((c.address k).view a.user) w = .ok pending → viewer.slot = env.slot →
    0 < pending → compoundReward R env a w = .ok w' →
    w'.bank.amount c.poolRewardTokenVault + pending = w.bank.amount c.poolRewardTokenVault →
    w.bank.amount c.poolStakeTokenVault < w'.bank.amount c.poolStakeTokenVault →
    SwapCredited (c.address k) a.user pending w w' := by
  intro hAll
  have hCredits := hAll .reference stakedPool swapped (marketEnv 21 [admin, user 0])
    (Localnet.env 21 []) (config 0) _ (compoundAccounts 0 0) 10 (reachable_run coin 9 _) stakedPool_config
    (by decide) (by decide) (by decide) stakedPool_view rfl (by decide) swapped_ok (by decide) (by decide)
  have hStaked := hCredits.stakedAmount ⟨10, 0, 0⟩ ⟨10, 10, 0⟩ rfl rfl
  revert hStaked
  decide

end StakingOnSolana
