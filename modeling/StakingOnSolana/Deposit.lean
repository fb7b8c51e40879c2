import StakingOnSolana.Withdrawal

/-! # Users can stake

The same for a stake, be it the first of a user or not: in a pool that has started and whose reward
mint has nine decimals at most, a user who brings the tokens, the rent and the fee can fail only by
the products that the handler computes.
-/
set_option autoImplicit false

namespace StakingOnSolana

open Checked RewardShare

variable {R : Runtime} {env : Env} {w w' w₀ w₁ : World} {P : PoolAddress} {p : Pool} {c : PoolConfig}
  {funding n : Nat}

/-- What a staker brings: the signatures, the lamports, the tokens, and accounts of the two mints. -/
structure Stake.Ready (R : Runtime) (P : PoolAddress) (w : World) (env : Env) (c : PoolConfig) (a : Stake)
    (n : Nat) : Prop where
  vaults : a.poolStakeTokenVault = P.stakeVault ∧ a.poolRewardTokenVault = P.rewardVault
  derived : a.userInfo = .userInfoPda P.config a.staker
  free : (w.userInfo a.userInfo).isSome = true ∨ w.Vacant a.userInfo
  signed : a.staker ∈ env.signers ∧ a.admin ∈ env.signers
  lamports : ∃ platform, w.platform a.platform = some platform ∧
    platform.performanceFee + a.rentDue R w < w.bank.lamports a.staker
  amount : 0 < n ∧ n ≤ w.bank.amount a.userStakeTokenVault
  source : w.bank.tokenAccount a.userStakeTokenVault = some ⟨c.stakeMint, a.staker⟩ ∧
    a.userStakeTokenVault ≠ P.stakeVault
  stakeVault : w.bank.tokenAccount P.stakeVault = some ⟨c.stakeMint, a.admin⟩
  rewardVault : w.bank.tokenAccount P.rewardVault = some ⟨c.rewardMint, a.admin⟩
  userReward : ∃ t, w.bank.tokenAccount a.userRewardTokenVault = some t ∧ t.mint = c.rewardMint
  creatorStake : ∃ t, w.bank.tokenAccount a.creatorStakeTokenVault = some t ∧ t.mint = c.stakeMint
  treasuryStake : (w.bank.tokenAccount a.treasuryStakeTokenVault).isSome = true

theorem Stake.Ready.prepared {a : Stake} (h : a.Ready R P w env c n) :
    Prepared P w env c a.staker a.admin a.platform a.userRewardTokenVault where
  signed := h.signed
  lamports := by
    obtain ⟨platform, hPlatform, hLamports⟩ := h.lamports
    exact ⟨platform, hPlatform, by omega⟩
  rewardVault := h.rewardVault
  userReward := h.userReward

theorem Stake.Ready.areTokenAccounts {a : Stake} (h : a.Ready R P w env c n) :
    w.bank.AreTokenAccounts a.tokenAccounts := by
  obtain ⟨t, hReward, -⟩ := h.userReward
  obtain ⟨t', hCreator, -⟩ := h.creatorStake
  simp [Bank.AreTokenAccounts, Stake.tokenAccounts, h.vaults, h.source.1, h.stakeVault, h.rewardVault,
    hReward, hCreator, h.treasuryStake]

/-- The products of a stake at the slot fit, by the state before it. -/
structure StakeFits (c : PoolConfig) (slot : Nat) (s : PoolState) (info : UserInfo) (n : Nat) : Prop where
  reward : s.accruing c slot * c.precisionFactor < 2 ^ 64
  fee : n * c.stakeFee < 2 ^ 64
  stake : (info.stakedAmount + (n - feeOn c.stakeFee n)) *
    (s.accTokenPerShare + s.accruing c slot * c.precisionFactor / s.totalStaked) < 2 ^ 64

theorem feeOn_lt {rate : Nat} (h : rate ≤ maxFee) (hPos : 0 < n) : feeOn rate n < n := by
  have hFifth := feeOn_le_fifth h n
  omega

theorem Pool.Endowed.computed_of_stakeFits {u : Pubkey} {slot : Nat} (h : p.Endowed c funding)
    (hDecimals : c.rewardMintDecimals ≤ 9) (hBudget : c.budget ≤ funding) (hFunding : funding < 2 ^ 64)
    (hRate : p.config.stakeFee ≤ maxFee) (hPos : 0 < n)
    (hFits : StakeFits p.config slot p.state (p.user u) n) :
    Computed p.config slot p.state (p.user u) := by
  have hLess := feeOn_lt hRate hPos
  have hAcc : (p.state.accrue p.config slot).accTokenPerShare < 2 ^ 64 :=
    Nat.lt_of_le_of_lt (Nat.le_mul_of_pos_left _ (by omega)) hFits.stake
  have hShould : (p.state.accrue p.config slot).shouldTotalPaid ≤ p.config.budget :=
    (h.scheduled.tick slot).should_le
  rw [h.budget_eq] at hShould
  refine ⟨updatePool_of_fits (h.config_eq.1 ▸ hDecimals) hFits.reward hAcc (by omega), ?_⟩
  exact Nat.lt_of_le_of_lt (Nat.mul_le_mul_right _ (Nat.le_add_right _ _)) hFits.stake

theorem Stake.Ready.lamports_left {a : Stake} (h : a.Ready R P w env c n) :
    ∃ platform, w.platform a.platform = some platform ∧ a.rentDue R w ≤ w.bank.lamports a.staker ∧
      platform.performanceFee <
        (w.bank.moveLamports a.staker a.userInfo (a.rentDue R w)).lamports a.staker := by
  obtain ⟨platform, hPlatform, hLamports⟩ := h.lamports
  have hLeft : w.bank.lamports a.staker - a.rentDue R w ≤
      (w.bank.moveLamports a.staker a.userInfo (a.rentDue R w)).lamports a.staker :=
    Balance.sub_le_move_source _ _ _ _
  exact ⟨platform, hPlatform, by omega, by omega⟩

theorem Stake.Ready.transfers {a : Stake} {bank : Bank} {fee : Nat} (h : a.Ready R P w env c n)
    (hR : R.Complete) (hFit : bank.SuppliesFit) (hAccounts : bank.tokenAccount = w.bank.tokenAccount)
    (hTokens : n ≤ bank.amount a.userStakeTokenVault) (hFee : fee ≤ n) :
    R.tokenTransfer bank env.signers a.userStakeTokenVault P.stakeVault a.staker n =
        .ok (bank.moveTokens a.userStakeTokenVault P.stakeVault n) ∧
      R.tokenTransfer (bank.moveTokens a.userStakeTokenVault P.stakeVault n) env.signers P.stakeVault
          a.creatorStakeTokenVault a.admin fee =
        .ok ((bank.moveTokens a.userStakeTokenVault P.stakeVault n).moveTokens P.stakeVault
          a.creatorStakeTokenVault fee) := by
  obtain ⟨hSource, hApart⟩ := h.source
  obtain ⟨t, hCreator, hCreatorMint⟩ := h.creatorStake
  have hVault := h.stakeVault
  rw [← hAccounts] at hSource hVault hCreator
  obtain ⟨hIn, hInFit⟩ := transfer_succeeds hR hFit hSource hVault rfl h.signed.1 hTokens
  have hFunded : fee ≤ (bank.moveTokens a.userStakeTokenVault P.stakeVault n).amount P.stakeVault := by
    rw [Bank.moveTokens_amount, Balance.move_destination _ _ hApart]
    exact hFee.trans (Nat.le_add_left _ _)
  exact ⟨hIn, (transfer_succeeds hR hInFit hVault hCreator hCreatorMint.symm h.signed.2 hFunded).1⟩

theorem stake_succeeds {a : Stake} (hHolds : w.Holds P p) (hMatched : (Instruction.stake a n).Matched P)
    (hSolvent : p.Solvent P w env.slot a.staker) (hReady : a.Ready R P w env p.config n)
    (hMints : p.config.stakeMint ≠ p.config.rewardMint) (hRate : p.config.stakeFee ≤ maxFee)
    (hStarted : 0 < p.config.startSlot ∧ p.config.startSlot < env.slot)
    (hFits : StakeFits p.config env.slot p.state (p.user a.staker) n) (hR : R.Complete)
    (hFit : w.bank.SuppliesFit) : ∃ w', stake R env a n w = .ok w' := by
  obtain ⟨hConfigKey, hStateKey, -⟩ := hMatched
  obtain ⟨hStakeVault, hVault⟩ := hReady.vaults
  obtain ⟨platform, hPlatform, hRent, hBalance⟩ := hReady.lamports_left
  have hUser : (w.userInfo a.userInfo).getD .zero = p.user a.staker := by
    rw [hReady.derived]
    exact hHolds.user a.staker
  have hInit := Stake.initUserInfo_of_free hR hReady.signed.1 hReady.free hRent
  rw [hUser] at hInit
  have hFee : payPerformanceFee R env.signers platform a.staker a.treasury _ = .ok _ :=
    payPerformanceFee_of_funded hR hReady.signed.1 hBalance
  have hPrecision := (getPrecisionFactor_eq_ok p.config _).mpr ⟨hSolvent.decimals, rfl⟩
  obtain ⟨out, hPaid, hAccounts, hOutFit, hOthers⟩ := hSolvent.payIfStaked_succeeds (a := a.payoutAccounts)
    hR hFit hReady.prepared ⟨hVault, rfl, rfl⟩
    ((w.bank.moveLamports a.staker a.userInfo (a.rentDue R w)).moveLamports a.staker a.treasury
      platform.performanceFee) ⟨rfl, rfl⟩
  obtain ⟨hAcc, hTotalOut⟩ := (payIfStaked_ok hPaid).unmoved
  have hTokens : n ≤ out.bank.amount a.userStakeTokenVault := by
    rw [hOthers _ _ hReady.source.1 hMints]
    exact hReady.amount.2
  have hFeeLe : n * p.config.stakeFee / percentPrecision ≤ n := feeOn_le hRate n
  obtain ⟨hIn, hOut⟩ := hReady.transfers hR hOutFit hAccounts hTokens hFeeLe
  rw [← hStakeVault] at hIn hOut
  -- The supply of the stake mint bounds the two sums.
  have hTotal : p.state.totalStaked + (n - n * p.config.stakeFee / percentPrecision) < 2 ^ 64 := by
    have hRoom := hFit.add_lt hReady.source.2 hReady.source.1 hReady.stakeVault rfl
    have hReal : n - n * p.config.stakeFee / percentPrecision ≤ n := Nat.sub_le _ _
    have hAmount := hReady.amount.2
    have hStakes := hSolvent.stakes
    omega
  have hPosition : (p.user a.staker).stakedAmount + (n - n * p.config.stakeFee / percentPrecision) < 2 ^ 64 :=
    Nat.lt_of_le_of_lt (Nat.add_le_add_right hSolvent.staked_le _) hTotal
  have hProduct : ((p.user a.staker).stakedAmount + (n - n * p.config.stakeFee / percentPrecision)) *
      out.poolState.accTokenPerShare < 2 ^ 64 := by
    rw [hAcc]
    exact hFits.stake
  apply Exists.intro
  simp only [stake, bind_eq_ok, require_eq_ok, load_eq_ok, cpi_eq_ok, mulU64_eq_ok, addU64_eq_ok,
    subU64_eq_ok, Prod.exists]
  exact ⟨(), hReady.signed.1, (), hConfigKey ▸ hReady.derived, _, _, hInit, platform, hPlatform, _,
    hConfigKey ▸ hHolds.config, (), hStakeVault ▸ hHolds.stakeVault, _, hStateKey ▸ hHolds.state, (),
    hReady.areTokenAccounts, (), hStarted, _, hFee, _, hSolvent.computed.updated, _, hPrecision, _, hPaid,
    _, hIn, _, ⟨hFits.fee, rfl⟩, _, hOut, _, ⟨hFeeLe, rfl⟩, _, ⟨hPosition, rfl⟩, _, ⟨hProduct, rfl⟩, _,
    ⟨hTotalOut ▸ hTotal, rfl⟩, rfl⟩

theorem stakeFits_of_ok {a : Stake} (hHolds : w.Holds P p) (hMatched : (Instruction.stake a n).Matched P)
    (h : stake R env a n w = .ok w') : (0 < p.config.startSlot ∧ p.config.startSlot < env.slot) ∧
      p.config.rewardMintDecimals ≤ 9 ∧ StakeFits p.config env.slot p.state (p.user a.staker) n := by
  obtain ⟨hKey, platform, hSpec⟩ := stake_matched hHolds hMatched h
  refine ⟨hSpec.started, hSpec.decimals, ?_⟩
  have hUser := hSpec.loadedUser
  have hConfig := hSpec.loadedConfig
  have hState := hSpec.loadedState
  simp only [stake, bind_eq_ok, load_eq_ok, hConfig, hState, Option.some.injEq, exists_eq_left',
    Prod.exists, getPrecisionFactor_eq_ok, mulU64_eq_ok, addU64_eq_ok, subU64_eq_ok, cpi_eq_ok] at h
  obtain ⟨-, -, -, -, info, bank, hInit, platform, -, -, -, -, -, -, -, bank₁, -, s₁, hUpdate, _,
    ⟨-, rfl⟩, paid, hPaid, bank₂, -, _, ⟨hFee, rfl⟩, bank₃, -, _, ⟨-, rfl⟩, _, ⟨-, rfl⟩, _,
    ⟨hProduct, -⟩, -⟩ := h
  obtain ⟨rfl, -⟩ := Stake.initUserInfo_ok hInit
  obtain rfl := updatePool_ok hUpdate
  rw [hUser, (payIfStaked_ok hPaid).state] at hProduct
  exact ⟨updatePool_scaled hUpdate, hFee, hProduct⟩

/-- In every state that a run reaches, a stake for which the caller brings what it takes succeeds
exactly when the pool has started, its reward mint has nine decimals at most and the products fit. -/
theorem deposit_succeeds_iff {a : CreatePool} {args : CreatePoolArgs} {actions : List Action} {b : Stake}
    {callEnv : Env} {c' : PoolConfig} {s : PoolState} (hR : R.Complete) (hReach : w₀.Reachable R)
    (hCreate : createPool R env a args w₀ = .ok w₁) (hConfig : w₁.poolConfig a.pool.config = some c)
    (hMints : c.stakeMint ≠ c.rewardMint) (hApart : a.pool.stakeVault ≠ a.pool.rewardVault)
    (hEmpty : w₀.bank.amount a.pool.rewardVault = 0)
    (hRun : Run.Along (next R) (fun w x => x.Custodial a.pool w) w₁ actions)
    (hFunded : c.budget + Run.tally (next R) (stakeChanges R a.pool) w₁ actions *
      (c.precisionFactor - 1) / c.precisionFactor ≤ args.initialFunding)
    (hFunding : args.initialFunding < 2 ^ 64) (hFit : (Run.run (next R) w₁ actions).bank.SuppliesFit)
    (hMatched : (Instruction.stake b n).Matched a.pool)
    (hConfig' : (Run.run (next R) w₁ actions).poolConfig a.pool.config = some c')
    (hState : (Run.run (next R) w₁ actions).poolState a.pool.state = some s)
    (hReady : b.Ready R a.pool (Run.run (next R) w₁ actions) callEnv c' n) :
    (⟨callEnv, .stake b n⟩ : Tx).Succeeds R (Run.run (next R) w₁ actions) ↔
      (0 < c'.startSlot ∧ c'.startSlot < callEnv.slot) ∧ c'.rewardMintDecimals ≤ 9 ∧
        StakeFits c' callEnv.slot s (((Run.run (next R) w₁ actions).userInfo
          (.userInfoPda a.pool.config b.staker)).getD .zero) n := by
  obtain ⟨p, hHolds, hEndowed⟩ := run_endowed hReach hCreate hConfig (onPool_of_custodial hRun)
  have hFees := (createPool_fees hReach hCreate hConfig).1
  obtain rfl := hHolds.config_eq rfl hConfig'
  obtain rfl := hHolds.state_eq rfl hState
  rw [hHolds.user b.staker]
  constructor
  · rintro ⟨w', hOk⟩
    exact stakeFits_of_ok hHolds hMatched hOk
  · rintro ⟨hStarted, hPrecise, hFits⟩
    have hDecimals : c.rewardMintDecimals ≤ 9 := hEndowed.config_eq.1 ▸ hPrecise
    obtain ⟨q, hView, -, hSolvent⟩ := run_solvent hReach hCreate hConfig hMints hDecimals hApart hEmpty
      hRun hFunded hFunding
    obtain rfl := hView.unique hHolds
    obtain ⟨startSlot, endSlot, hTerms⟩ := hEndowed.terms
    have hRate : p.config.stakeFee ≤ maxFee := by
      rw [hTerms]
      exact hFees
    have hConfigMints : p.config.stakeMint ≠ p.config.rewardMint := by
      rw [hTerms]
      exact hMints
    have hComputed := hEndowed.computed_of_stakeFits hDecimals ((Nat.le_add_right _ _).trans hFunded)
      hFunding hRate hReady.amount.1 hFits
    exact stake_succeeds hHolds hMatched (hSolvent _ _ hComputed) hReady hConfigMints hRate hStarted
      hFits hR hFit

open Localnet in
theorem deposit_succeeds_iff_roundTrip :
    (Localnet.stake 0 113 1 10).Succeeds .reference (run (dayPoolCreated coin 8 216003) roundTrip) := by
  have hConfig : (dayPoolCreated coin 8 216003).poolConfig (config 0) = some _ := rfl
  have hMatched : (Localnet.stake 0 113 1 10).instruction.Matched (createAccounts coin 0).pool := by
    decide
  exact (deposit_succeeds_iff Runtime.reference_complete (reachable_run coin 8 [open_])
    (dayPool_created coin 8 216003 rfl) hConfig (by decide) (by decide) rfl roundTrip_custodial
    (by decide) (by decide) roundTrip_suppliesFit hMatched rfl rfl
    { vaults := ⟨rfl, rfl⟩
      derived := rfl
      free := Or.inr (by decide)
      signed := by decide
      lamports := ⟨_, rfl, by decide⟩
      amount := by decide
      source := ⟨rfl, by decide⟩
      stakeVault := rfl
      rewardVault := rfl
      userReward := ⟨_, rfl, rfl⟩
      creatorStake := ⟨_, rfl, rfl⟩
      treasuryStake := rfl }).mpr ⟨by decide, by decide, by decide, by decide, by decide⟩

end StakingOnSolana
