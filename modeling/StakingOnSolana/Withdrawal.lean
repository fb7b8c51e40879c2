import StakingOnSolana.Conservation
import StakingOnSolana.Custody
import StakingOnSolana.Operable
import StakingOnSolana.Overflow
import StakingOnSolana.RewardAccounting

/-! # Stakers can withdraw

A claim and an unstake can fail for many reasons: a missing signature, an empty vault, a ledger
that counts less than it owes, an overflow. In a pool that is funded and whose vaults serve no
other purpose only those remain that the caller can see: what he brings, and the products of the
payout.
-/
set_option autoImplicit false

namespace StakingOnSolana

open Checked RewardShare

variable {R : Runtime} {env : Env} {ix : Instruction} {w w' w₀ w₁ : World} {P : PoolAddress} {p : Pool}
  {c : PoolConfig} {funding changes : Nat} {bank bank' : Bank}

/-- The supply of a mint is a u64, so that no accounts of it hold more together. -/
def Bank.SuppliesFit (bank : Bank) : Prop :=
  ∀ (mint : Pubkey) (accounts : Finset Pubkey), bank.supply mint accounts < 2 ^ 64

theorem Bank.supply_mono (bank : Bank) (mint : Pubkey) {accounts accounts' : Finset Pubkey}
    (h : accounts ⊆ accounts') : bank.supply mint accounts ≤ bank.supply mint accounts' :=
  Finset.sum_le_sum_of_subset (Finset.filter_subset_filter _ h)

theorem Bank.SuppliesFit.add_lt {k k' : Pubkey} {t t' : TokenAccount} (h : bank.SuppliesFit)
    (hNe : k ≠ k') (hk : bank.tokenAccount k = some t) (hk' : bank.tokenAccount k' = some t')
    (hMint : t.mint = t'.mint) : bank.amount k + bank.amount k' < 2 ^ 64 := by
  have hPair := h t.mint {k, k'}
  have hFilter : ({k, k'} : Finset Pubkey).filter
      (fun j => (bank.tokenAccount j).map (·.mint) = some t.mint) = {k, k'} := by
    refine Finset.filter_true_of_mem fun j hj => ?_
    rcases Finset.mem_insert.mp hj with rfl | hj
    · rw [hk]
      rfl
    · rw [Finset.mem_singleton.mp hj, hk', hMint]
      rfl
  rwa [Bank.supply, hFilter, Finset.sum_pair hNe] at hPair

theorem Bank.SuppliesFit.moveTokens {s d : Pubkey} {source destination : TokenAccount} {n : Nat}
    (h : bank.SuppliesFit) (hSource : bank.tokenAccount s = some source)
    (hDestination : bank.tokenAccount d = some destination) (hMint : source.mint = destination.mint)
    (hFunded : n ≤ bank.amount s) : (bank.moveTokens s d n).SuppliesFit := by
  intro mint accounts
  have hMore : accounts ⊆ accounts ∪ {s, d} := Finset.subset_union_left
  refine Nat.lt_of_le_of_lt (Bank.supply_mono _ mint hMore) ?_
  refine Nat.lt_of_le_of_lt (Nat.le_of_eq ?_) (h mint (accounts ∪ {s, d}))
  have hSame : ((bank.tokenAccount s).map (·.mint) = some mint) ↔
      ((bank.tokenAccount d).map (·.mint) = some mint) := by
    rw [hSource, hDestination, Option.map_some, Option.map_some, hMint]
  by_cases hMem : (bank.tokenAccount s).map (·.mint) = some mint
  · exact Transfers.sum_move_of_mem hFunded
      (Finset.mem_filter.mpr ⟨by simp, hMem⟩) (Finset.mem_filter.mpr ⟨by simp, hSame.mp hMem⟩)
  · exact Transfers.sum_move_of_not_mem (fun hs => hMem (Finset.mem_filter.mp hs).2)
      fun hd => hMem (hSame.mpr (Finset.mem_filter.mp hd).2)

theorem Bank.SuppliesFit.congr (h : bank.SuppliesFit) (hTokens : bank'.tokenAccount = bank.tokenAccount)
    (hAmounts : bank'.amount = bank.amount) : bank'.SuppliesFit := by
  intro mint accounts
  have hSame := h mint accounts
  unfold Bank.supply at hSame ⊢
  rwa [hTokens, hAmounts]

theorem Bank.Transfers.suppliesFit {owners payees : Set Pubkey} (h : Bank.Transfers owners payees bank bank')
    (hFit : bank.SuppliesFit) : bank'.SuppliesFit := by
  have hTable : ({ bank with amount := bank'.amount } : Bank).SuppliesFit := by
    have hTokens := h.tokens
    generalize bank'.amount = b at hTokens
    induction hTokens with
    | refl => exact hFit
    | tail _ hStep ih =>
      obtain ⟨s, d, n, -, ⟨source, destination, hSource, hDestination, hMint⟩, hFunded, rfl⟩ := hStep
      exact ih.moveTokens hSource hDestination hMint hFunded
  exact hTable.congr h.tokenAccount rfl

theorem transfer_succeeds {signers : List Pubkey} {s d : Pubkey} {source destination : TokenAccount}
    {n : Nat} (hR : R.Complete) (hFit : bank.SuppliesFit) (hSource : bank.tokenAccount s = some source)
    (hDestination : bank.tokenAccount d = some destination) (hMint : source.mint = destination.mint)
    (hSigned : source.owner ∈ signers) (hFunded : n ≤ bank.amount s) :
    R.tokenTransfer bank signers s d source.owner n = .ok (bank.moveTokens s d n) ∧
      (bank.moveTokens s d n).SuppliesFit := by
  have hRoom : s = d ∨ bank.amount d + n < 2 ^ 64 := by
    by_cases hSelf : s = d
    · exact Or.inl hSelf
    · have hPair := hFit.add_lt hSelf hSource hDestination hMint
      exact Or.inr (by omega)
  obtain ⟨bank', hOk⟩ := hR.tokenTransfer hSource hDestination hMint hSigned hFunded hRoom
  obtain rfl := (R.tokenTransfer_ok hOk).moved
  exact ⟨hOk, hFit.moveTokens hSource hDestination hMint hFunded⟩

theorem transfersOut_succeed {signers : List Pubkey} {vault d d' : Pubkey} {source t t' : TokenAccount}
    {n fee : Nat} (hR : R.Complete) (hFit : bank.SuppliesFit) (hVault : bank.tokenAccount vault = some source)
    (hFirst : bank.tokenAccount d = some t) (hMint : source.mint = t.mint)
    (hSecond : bank.tokenAccount d' = some t') (hMint' : source.mint = t'.mint)
    (hSigned : source.owner ∈ signers) (hFunded : n ≤ bank.amount vault) (hFee : fee ≤ n) :
    R.tokenTransfer bank signers vault d source.owner fee = .ok (bank.moveTokens vault d fee) ∧
      R.tokenTransfer (bank.moveTokens vault d fee) signers vault d' source.owner (n - fee) =
        .ok ((bank.moveTokens vault d fee).moveTokens vault d' (n - fee)) := by
  obtain ⟨hOut, hOutFit⟩ := transfer_succeeds hR hFit hVault hFirst hMint hSigned (hFee.trans hFunded)
  have hRest : n - fee ≤ (bank.moveTokens vault d fee).amount vault :=
    (Nat.sub_le_sub_right hFunded _).trans (Balance.sub_le_move_source _ _ _ _)
  exact ⟨hOut, (transfer_succeeds hR hOutFit hVault hSecond hMint' hSigned hRest).1⟩

theorem PaidPending.unmoved {a : PayoutAccounts} {info : UserInfo} {s : PoolState} {out : Payout}
    (h : PaidPending c a info s bank out) :
    out.poolState.accTokenPerShare = s.accTokenPerShare ∧ out.poolState.totalStaked = s.totalStaked := by
  rw [h.state]
  exact ⟨rfl, rfl⟩

/-- What a staker brings: the signatures, the performance fee, and an account for his reward. -/
structure Prepared (P : PoolAddress) (w : World) (env : Env) (c : PoolConfig)
    (user admin platform userRewardTokenVault : Pubkey) : Prop where
  signed : user ∈ env.signers ∧ admin ∈ env.signers
  lamports : ∃ info, w.platform platform = some info ∧ info.performanceFee < w.bank.lamports user
  rewardVault : w.bank.tokenAccount P.rewardVault = some ⟨c.rewardMint, admin⟩
  userReward : ∃ t, w.bank.tokenAccount userRewardTokenVault = some t ∧ t.mint = c.rewardMint

/-- A claim, or an unstake of part of the stake, with the accounts that belong to it. -/
def Instruction.Ready (P : PoolAddress) (w : World) (env : Env) (c : PoolConfig) (info : UserInfo) :
    Instruction → Prop
  | .claimReward a => a.poolRewardTokenVault = P.rewardVault ∧
      Prepared P w env c a.claimer a.admin a.platform a.userRewardTokenVault
  | .unstake a n => (a.poolRewardTokenVault = P.rewardVault ∧ a.poolStakeTokenVault = P.stakeVault) ∧
      Prepared P w env c a.user a.admin a.platform a.userRewardTokenVault ∧
      (0 < n ∧ n < info.stakedAmount) ∧
      w.bank.tokenAccount P.stakeVault = some ⟨c.stakeMint, a.admin⟩ ∧
      (∃ t, w.bank.tokenAccount a.userStakeTokenVault = some t ∧ t.mint = c.stakeMint) ∧
      (∃ t, w.bank.tokenAccount a.creatorStakeTokenVault = some t ∧ t.mint = c.stakeMint) ∧
      (w.bank.tokenAccount a.treasuryStakeTokenVault).isSome = true
  | _ => False

/-- The ledger of a pool can pay a user at the slot, and its vaults hold what the ledger says. -/
structure Pool.Solvent (P : PoolAddress) (w : World) (slot : Nat) (u : Pubkey) (p : Pool) : Prop where
  computed : Computed p.config slot p.state (p.user u)
  decimals : p.config.rewardMintDecimals ≤ 9
  debt_le : (p.user u).rewardDebt ≤ UserInfo.earned p.config (p.tick slot).state (p.staked u)
  owed_le : (p.tick slot).owed u ≤ availableRewardTokens p.config (p.tick slot).state
  funds : p.state.rewardAmount + p.state.paidRewards < 2 ^ 64
  rewards : p.state.rewardAmount ≤ w.bank.amount P.rewardVault
  staked_le : p.staked u ≤ p.state.totalStaked
  stakes : p.state.totalStaked ≤ w.bank.amount P.stakeVault

theorem Pool.Solvent.payout {user admin platform userReward : Pubkey} {a : PayoutAccounts}
    (h : p.Solvent P w env.slot user) (hR : R.Complete) (hFit : w.bank.SuppliesFit)
    (hPrepared : Prepared P w env p.config user admin platform userReward)
    (hAccounts : a.poolRewardTokenVault = P.rewardVault ∧ a.userRewardTokenVault = userReward ∧
      a.admin = admin)
    (bank : Bank) (hBank : bank.tokenAccount = w.bank.tokenAccount ∧ bank.amount = w.bank.amount) :
    (∃ out, payPending R env.signers p.config p.config.precisionFactor a (p.user user)
      (p.tick env.slot).state bank = .ok out) ∧
      (bank.moveTokens a.poolRewardTokenVault a.userRewardTokenVault
        ((p.tick env.slot).owed user)).SuppliesFit := by
  obtain ⟨hVault, hUser, rfl⟩ := hAccounts
  obtain ⟨t, hReward, hMint⟩ := hPrepared.userReward
  have hFit' : bank.SuppliesFit := hFit.congr hBank.1 hBank.2
  have hOwed := (h.owed_le.trans (availableRewardTokens_le _ _)).trans h.rewards
  have hSource := hPrepared.rewardVault
  rw [← hBank.1, ← hVault] at hSource
  rw [← hBank.1, ← hUser] at hReward
  rw [← hBank.2, ← hVault] at hOwed
  obtain ⟨hTransfer, hAfter⟩ := transfer_succeeds hR hFit' hSource hReward hMint.symm
    hPrepared.signed.2 hOwed
  exact ⟨(payPending_succeeds_iff h.computed.product h.debt_le h.funds).mpr
    (Or.inr ⟨h.owed_le, _, hTransfer⟩), hAfter⟩

theorem Pool.Solvent.payIfStaked_succeeds {user admin platform userReward : Pubkey} {a : PayoutAccounts}
    (h : p.Solvent P w env.slot user) (hR : R.Complete) (hFit : w.bank.SuppliesFit)
    (hPrepared : Prepared P w env p.config user admin platform userReward)
    (hAccounts : a.poolRewardTokenVault = P.rewardVault ∧ a.userRewardTokenVault = userReward ∧
      a.admin = admin)
    (bank : Bank) (hBank : bank.tokenAccount = w.bank.tokenAccount ∧ bank.amount = w.bank.amount) :
    ∃ out, payIfStaked R env.signers p.config p.config.precisionFactor a (p.user user)
      (p.tick env.slot).state bank = .ok out ∧ out.bank.tokenAccount = w.bank.tokenAccount ∧
      out.bank.SuppliesFit ∧ ∀ k t, w.bank.tokenAccount k = some t → t.mint ≠ p.config.rewardMint →
        out.bank.amount k = w.bank.amount k := by
  obtain ⟨⟨out, hPaid⟩, hPaidFit⟩ := h.payout hR hFit hPrepared hAccounts bank hBank
  have hIfStaked : ∃ out, payIfStaked R env.signers p.config p.config.precisionFactor a
      (p.user user) (p.tick env.slot).state bank = .ok out := by
    by_cases hNone : (p.user user).stakedAmount = 0
    · exact ⟨_, payIfStaked_of_unstaked hNone⟩
    · exact ⟨out, (if_pos (Nat.pos_of_ne_zero hNone)).trans hPaid⟩
  obtain ⟨out, hPaid⟩ := hIfStaked
  have hMoved := (payIfStaked_ok hPaid).bank_eq
  obtain ⟨hVault, hUser, -⟩ := hAccounts
  obtain ⟨t', hReward, hMint⟩ := hPrepared.userReward
  refine ⟨out, hPaid, ?_, ?_, fun k t hk hOther => ?_⟩
  · rw [hMoved]
    exact hBank.1
  · rw [hMoved]
    exact hPaidFit
  · rw [hMoved, Bank.moveTokens_amount, hBank.2]
    refine Balance.move_of_ne _ _ ?_ ?_
    · intro hSame
      rw [hSame, hVault, hPrepared.rewardVault, Option.some.injEq] at hk
      exact hOther (congrArg TokenAccount.mint hk).symm
    · intro hSame
      rw [hSame, hUser, hReward, Option.some.injEq] at hk
      exact hOther ((congrArg TokenAccount.mint hk).symm.trans hMint)

theorem claimReward_succeeds {a : ClaimReward} (hHolds : w.Holds P p)
    (hMatched : (Instruction.claimReward a).Matched P)
    (hUser : w.userInfo a.userInfo = some (p.user a.claimer)) (hSolvent : p.Solvent P w env.slot a.claimer)
    (hReady : (Instruction.claimReward a).Ready P w env p.config (p.user a.claimer)) (hR : R.Complete)
    (hFit : w.bank.SuppliesFit) : ∃ w', claimReward R env a w = .ok w' := by
  obtain ⟨hConfigKey, hStateKey, -⟩ := hMatched
  obtain ⟨hVault, hPrepared⟩ := hReady
  obtain ⟨platform, hPlatform, hLamports⟩ := hPrepared.lamports
  obtain ⟨t, hReward, -⟩ := hPrepared.userReward
  have hTokens : w.bank.AreTokenAccounts [a.userRewardTokenVault, a.poolRewardTokenVault] := by
    simp [Bank.AreTokenAccounts, hReward, hVault, hPrepared.rewardVault]
  have hFee : payPerformanceFee R env.signers platform a.claimer a.treasury w.bank = .ok _ :=
    payPerformanceFee_of_funded hR hPrepared.signed.1 hLamports
  have hPrecision := (getPrecisionFactor_eq_ok p.config _).mpr ⟨hSolvent.decimals, rfl⟩
  by_cases hNone : (p.user a.claimer).stakedAmount = 0
  · apply Exists.intro
    simp only [claimReward, bind_eq_ok, require_eq_ok, load_eq_ok]
    refine ⟨(), hPrepared.signed.1, (), hPrepared.signed.2, _, hUser, _, hConfigKey ▸ hHolds.config, (),
      hVault ▸ hHolds.rewardVault, _, hStateKey ▸ hHolds.state, _, hPlatform, (), hTokens, _, hFee, _,
      hSolvent.computed.updated, ?_⟩
    rw [if_pos hNone]
    rfl
  · obtain ⟨⟨out, hPaid⟩, -⟩ := hSolvent.payout (a := a.payoutAccounts) hR hFit hPrepared
      ⟨hVault, rfl, rfl⟩ (w.bank.moveLamports a.claimer a.treasury platform.performanceFee) ⟨rfl, rfl⟩
    have hAcc := (payPending_ok hPaid).state
    apply Exists.intro
    simp only [claimReward, bind_eq_ok, require_eq_ok, load_eq_ok]
    refine ⟨(), hPrepared.signed.1, (), hPrepared.signed.2, _, hUser, _, hConfigKey ▸ hHolds.config, (),
      hVault ▸ hHolds.rewardVault, _, hStateKey ▸ hHolds.state, _, hPlatform, (), hTokens, _, hFee, _,
      hSolvent.computed.updated, ?_⟩
    rw [if_neg hNone]
    simp only [bind_eq_ok, mulU64_eq_ok]
    refine ⟨_, hPrecision, _, hPaid, _, ⟨?_, rfl⟩, rfl⟩
    rw [hAcc]
    exact hSolvent.computed.product

theorem unstake_succeeds {a : Unstake} {n : Nat} (hHolds : w.Holds P p)
    (hMatched : (Instruction.unstake a n).Matched P) (hUser : w.userInfo a.userInfo = some (p.user a.user))
    (hSolvent : p.Solvent P w env.slot a.user)
    (hReady : (Instruction.unstake a n).Ready P w env p.config (p.user a.user))
    (hMints : p.config.stakeMint ≠ p.config.rewardMint) (hRate : p.config.unstakeFee ≤ maxFee)
    (hProduct : n * p.config.unstakeFee < 2 ^ 64) (hR : R.Complete) (hFit : w.bank.SuppliesFit) :
    ∃ w', unstake R env a n w = .ok w' := by
  obtain ⟨hConfigKey, hStateKey, -⟩ := hMatched
  obtain ⟨⟨hVault, hStakeVault⟩, hPrepared, ⟨hPos, hLess⟩, hStakeAccount, ⟨t, hStake, hStakeMint⟩,
    ⟨t', hCreator, hCreatorMint⟩, hTreasury⟩ := hReady
  obtain ⟨platform, hPlatform, hLamports⟩ := hPrepared.lamports
  obtain ⟨t'', hReward, hRewardMint⟩ := hPrepared.userReward
  have hTokens : w.bank.AreTokenAccounts a.tokenAccounts := by
    simp [Bank.AreTokenAccounts, Unstake.tokenAccounts, hReward, hVault, hPrepared.rewardVault, hStake,
      hCreator, hStakeVault, hStakeAccount, hTreasury]
  have hFee : payPerformanceFee R env.signers platform a.user a.treasury w.bank = .ok _ :=
    payPerformanceFee_of_funded hR hPrepared.signed.1 hLamports
  have hPrecision := (getPrecisionFactor_eq_ok p.config _).mpr ⟨hSolvent.decimals, rfl⟩
  obtain ⟨out, hPaid, hAccounts, hOutFit, hOthers⟩ := hSolvent.payIfStaked_succeeds (a := a.payoutAccounts)
    hR hFit hPrepared ⟨hVault, rfl, rfl⟩
    (w.bank.moveLamports a.user a.treasury platform.performanceFee) ⟨rfl, rfl⟩
  have hEnough : n ≤ out.bank.amount P.stakeVault := by
    rw [hOthers _ _ hStakeAccount hMints]
    exact (Nat.le_of_lt hLess).trans (hSolvent.staked_le.trans hSolvent.stakes)
  have hFeeLe : n * p.config.unstakeFee / percentPrecision ≤ n := feeOn_le hRate n
  rw [← hAccounts] at hStakeAccount hCreator hStake
  obtain ⟨hFeeOut, hOut⟩ := transfersOut_succeed hR hOutFit hStakeAccount hCreator hCreatorMint.symm hStake
    hStakeMint.symm hPrepared.signed.2 hEnough hFeeLe
  have hReal : (if (p.user a.user).stakedAmount < n then (p.user a.user).stakedAmount else n) = n :=
    if_neg (by omega)
  obtain ⟨hAcc, hTotal⟩ := (payIfStaked_ok hPaid).unmoved
  have hLeft : ((p.user a.user).stakedAmount - n) * out.poolState.accTokenPerShare < 2 ^ 64 := by
    rw [hAcc]
    exact Nat.lt_of_le_of_lt (Nat.mul_le_mul_right _ (Nat.sub_le _ _)) hSolvent.computed.product
  have hWithin : n ≤ out.poolState.totalStaked := by
    rw [hTotal]
    exact (Nat.le_of_lt hLess).trans hSolvent.staked_le
  rw [← hStakeVault] at hFeeOut hOut
  apply Exists.intro
  simp only [unstake, bind_eq_ok, require_eq_ok, load_eq_ok, cpi_eq_ok, mulU64_eq_ok, subU64_eq_ok]
  refine ⟨(), hPrepared.signed.1, (), hPrepared.signed.2, _, hConfigKey ▸ hHolds.config, (),
    hStakeVault ▸ hHolds.stakeVault, (), hVault ▸ hHolds.rewardVault, _, hStateKey ▸ hHolds.state, _,
    hPlatform, _, hUser, ?_⟩
  rw [hReal]
  exact ⟨(), hTokens, (), hPos, (), hLess, _, hFee, _, hSolvent.computed.updated, _,
    hPrecision, _, hPaid, _, ⟨hProduct, rfl⟩, _, hFeeOut, _, ⟨hFeeLe, rfl⟩, _, hOut, _,
    ⟨Nat.le_of_lt hLess, rfl⟩, _, ⟨hLeft, rfl⟩, _, ⟨hWithin, rfl⟩, rfl⟩

/-- An action that uses both vaults for the pool only, and neither refunds nor compounds. -/
def Action.Custodial (P : PoolAddress) (w : World) (x : Action) : Prop :=
  x.Dedicated P [.startReward, .stake, .unstake, .claimReward] P.stakeVault w ∧
    x.Dedicated P [.startReward, .stake, .unstake, .claimReward] P.rewardVault w

variable {x : Action} {actions : List Action}

theorem Action.Custodial.kind_mem {tx : Tx} (h : (Action.call tx).Custodial P w)
    (hMatched : tx.instruction.Matched P) :
    tx.instruction.kind ∈ [.startReward, .stake, .unstake, .claimReward] := by
  rcases h.1 with ⟨-, hKind, -⟩ | ⟨hForeign, -⟩
  · exact hKind
  · exact absurd hMatched.poolConfigAccount hForeign.1

theorem Action.Custodial.recorded (h : x.Custodial P w) :
    x.SwapsPending P w ∧ x.SwapsSpareStake P w ∧ OnSuccess R P (RecordsPayment P) w x ∧
      OnSuccess R P (CompoundCovered P) w x := by
  cases x with
  | outside bank mint => exact ⟨trivial, trivial, trivial, trivial⟩
  | call tx =>
    obtain ⟨env, ix⟩ := tx
    have hKind : ix.Matched P → ix.kind ∈ [.startReward, .stake, .unstake, .claimReward] := h.kind_mem
    refine ⟨?_, ?_, fun hMatched _ => ?_, fun hMatched _ => ?_⟩
    · rintro a - rfl hMatched -
      exact absurd (hKind hMatched) (by simp [Instruction.kind])
    · rintro a - rfl hMatched -
      exact absurd (hKind hMatched) (by simp [Instruction.kind])
    · cases ix with
      | stopReward a => exact absurd (hKind hMatched) (by simp [Instruction.kind])
      | compoundReward a => exact absurd (hKind hMatched) (by simp [Instruction.kind])
      | _ => trivial
    · cases ix with
      | compoundReward a => exact absurd (hKind hMatched) (by simp [Instruction.kind])
      | _ => trivial

theorem run_ledgers {a : CreatePool} {args : CreatePoolArgs} (hReach : w₀.Reachable R)
    (hCreate : createPool R env a args w₀ = .ok w₁) (hApart : a.pool.stakeVault ≠ a.pool.rewardVault)
    (hEmpty : w₀.bank.amount a.pool.rewardVault = 0)
    (hRun : Run.Along (next R) (fun w x => x.Custodial a.pool w) w₁ actions) :
    RewardLedger a.pool (Run.run (next R) w₁ actions) ∧
      StakeBacked a.pool (Run.run (next R) w₁ actions) := by
  obtain ⟨_, _, -, hHolds⟩ := createPool_holds hReach hCreate
  have hRewards := createPool_rewardLedger hReach hCreate hEmpty
  have hStakes : StakeBacked a.pool w₁ := hHolds.stakeBacked_iff.mpr (Nat.zero_le _)
  have hLast := Run.run_invariant (I := fun w => (∃ p, w.Holds a.pool p) ∧ RewardLedger a.pool w ∧
    StakeBacked a.pool w) ?_ ⟨⟨_, hHolds⟩, hRewards, hStakes⟩ hRun
  · exact hLast.2
  · rintro w x ⟨hView, hLedger, hBacked⟩ hOn
    obtain ⟨hSwaps, hSpare, hRecords, hCovered⟩ := hOn.recorded (R := R)
    have hNext := next_holds_of_dedicated (R := R) hView hOn.1
    obtain ⟨p, hHolds⟩ := hView
    exact ⟨hNext, (rewardLedger_next_iff hHolds hApart hOn.2 hSwaps hLedger).mpr hRecords,
      (stakeBacked_next_iff hHolds hApart hOn.1 hSpare hBacked).mpr hCovered⟩

theorem onPool_of_custodial (hRun : Run.Along (next R) (fun w x => x.Custodial P w) w actions) :
    ∀ x ∈ actions, x.OnPool P [.startReward, .stake, .unstake, .claimReward] := by
  induction actions generalizing w with
  | nil => exact fun x hx => absurd hx List.not_mem_nil
  | cons a rest ih =>
    intro x hx
    rcases List.mem_cons.mp hx with rfl | hx
    · exact hRun.1.1.onPool
    · exact ih hRun.2 x hx

theorem Pool.Endowed.solvent {u : Pubkey} {slot : Nat} (h : p.Endowed c funding) (hSound : p.Sound changes)
    (hMints : c.stakeMint ≠ c.rewardMint) (hDecimals : c.rewardMintDecimals ≤ 9)
    (hFunded : c.budget + changes * (c.precisionFactor - 1) / c.precisionFactor ≤ funding)
    (hFunding : funding < 2 ^ 64) (hLedger : p.state.rewardAmount = w.bank.amount P.rewardVault)
    (hBacked : p.state.totalStaked ≤ w.bank.amount P.stakeVault)
    (hComputed : Computed p.config slot p.state (p.user u)) : p.Solvent P w slot u where
  computed := hComputed
  decimals := h.config_eq.1 ▸ hDecimals
  debt_le := hSound.debt_le slot u
  owed_le := by
    rw [h.availableRewardTokens_eq hMints]
    exact h.owed_le_rewardAmount hSound hFunded u slot
  funds := h.funds ▸ hFunding
  rewards := Nat.le_of_eq hLedger
  staked_le := Book.Sound.weight_le hSound u
  stakes := hBacked

/-- A run that keeps the vaults to the pool leaves it able to pay whatever it can compute. -/
theorem run_solvent {a : CreatePool} {args : CreatePoolArgs} (hReach : w₀.Reachable R)
    (hCreate : createPool R env a args w₀ = .ok w₁) (hConfig : w₁.poolConfig a.pool.config = some c)
    (hMints : c.stakeMint ≠ c.rewardMint) (hDecimals : c.rewardMintDecimals ≤ 9)
    (hApart : a.pool.stakeVault ≠ a.pool.rewardVault) (hEmpty : w₀.bank.amount a.pool.rewardVault = 0)
    (hRun : Run.Along (next R) (fun w x => x.Custodial a.pool w) w₁ actions)
    (hFunded : c.budget + Run.tally (next R) (stakeChanges R a.pool) w₁ actions *
      (c.precisionFactor - 1) / c.precisionFactor ≤ args.initialFunding)
    (hFunding : args.initialFunding < 2 ^ 64) :
    ∃ p, (Run.run (next R) w₁ actions).Holds a.pool p ∧ p.Endowed c args.initialFunding ∧
      ∀ slot u, Computed p.config slot p.state (p.user u) →
        p.Solvent a.pool (Run.run (next R) w₁ actions) slot u := by
  obtain ⟨hLedger, hBacked⟩ := run_ledgers hReach hCreate hApart hEmpty hRun
  have hOn := onPool_of_custodial hRun
  obtain ⟨p, hHolds, hSound⟩ := run_sound hReach hCreate hOn
  obtain ⟨p', hHolds', hEndowed⟩ := run_endowed hReach hCreate hConfig hOn
  obtain rfl := hHolds'.unique hHolds
  exact ⟨p, hHolds, hEndowed, fun slot u hComputed => hEndowed.solvent hSound hMints hDecimals hFunded
    hFunding (hHolds.rewardLedger_iff.mp hLedger) (hHolds.stakeBacked_iff.mp hBacked) hComputed⟩

/-- In every state that a run reaches, a claim or an unstake for which the caller brings what it takes
succeeds exactly when its products fit. -/
theorem withdrawal_succeeds_iff {a : CreatePool} {args : CreatePoolArgs} {tx : Tx} {u : Pubkey}
    {c' : PoolConfig} {s : PoolState} {info : UserInfo} (hR : R.Complete) (hReach : w₀.Reachable R)
    (hCreate : createPool R env a args w₀ = .ok w₁) (hConfig : w₁.poolConfig a.pool.config = some c)
    (hMints : c.stakeMint ≠ c.rewardMint) (hDecimals : c.rewardMintDecimals ≤ 9)
    (hApart : a.pool.stakeVault ≠ a.pool.rewardVault) (hEmpty : w₀.bank.amount a.pool.rewardVault = 0)
    (hRun : Run.Along (next R) (fun w x => x.Custodial a.pool w) w₁ actions)
    (hFunded : c.budget + Run.tally (next R) (stakeChanges R a.pool) w₁ actions *
      (c.precisionFactor - 1) / c.precisionFactor ≤ args.initialFunding)
    (hFunding : args.initialFunding < 2 ^ 64) (hFit : (Run.run (next R) w₁ actions).bank.SuppliesFit)
    (hMatched : tx.instruction.Matched a.pool) (hCaller : tx.instruction.caller = some u)
    (hConfig' : (Run.run (next R) w₁ actions).poolConfig a.pool.config = some c')
    (hState : (Run.run (next R) w₁ actions).poolState a.pool.state = some s)
    (hUser : (Run.run (next R) w₁ actions).userInfo (.userInfoPda a.pool.config u) = some info)
    (hStaked : 0 < info.stakedAmount)
    (hReady : tx.instruction.Ready a.pool (Run.run (next R) w₁ actions) tx.env c' info) :
    tx.Succeeds R (Run.run (next R) w₁ actions) ↔ tx.instruction.Fits c' tx.env.slot s info := by
  obtain ⟨p, hHolds, hEndowed, hSolvent⟩ := run_solvent hReach hCreate hConfig hMints hDecimals hApart
    hEmpty hRun hFunded hFunding
  have hRate := (createPool_fees hReach hCreate hConfig).2
  obtain rfl := hHolds.config_eq rfl hConfig'
  obtain rfl := hHolds.state_eq rfl hState
  obtain rfl := hHolds.user_eq rfl hUser
  have hComputed : PayoutFits p.config tx.env.slot p.state (p.user u) →
      Computed p.config tx.env.slot p.state (p.user u) :=
    (hEndowed.computed_iff hDecimals ((Nat.le_add_right _ _).trans hFunded) hFunding hStaked).mpr
  obtain ⟨callEnv, ix⟩ := tx
  cases ix with
  | claimReward b =>
    cases hCaller
    rw [← hMatched.2.2] at hUser
    exact ⟨fun ⟨_, hOk⟩ => fits_of_ok hHolds hMatched rfl hOk, fun hFits =>
      claimReward_succeeds hHolds hMatched hUser (hSolvent _ _ (hComputed hFits)) hReady hR hFit⟩
  | unstake b n =>
    cases hCaller
    rw [← hMatched.2.2] at hUser
    have hConfigMints : p.config.stakeMint ≠ p.config.rewardMint := by
      obtain ⟨startSlot, endSlot, hTerms⟩ := hEndowed.terms
      rw [hTerms]
      exact hMints
    exact ⟨fun ⟨_, hOk⟩ => fits_of_ok hHolds hMatched rfl hOk, fun hFits =>
      unstake_succeeds hHolds hMatched hUser (hSolvent _ _ (hComputed hFits.1)) hReady hConfigMints
        (hEndowed.config_eq.2 ▸ hRate) (hFits.2 hReady.2.2.1.2) hR hFit⟩
  | _ => exact hReady.elim

namespace Localnet

theorem amount_le (k : Pubkey) : amount k ≤ 1000000000 := by
  cases k with
  | address n =>
    simp only [amount]
    split <;> simp
  | _ => exact Nat.zero_le _

theorem mem_coinAccounts_of_amount {k : Pubkey} (h : amount k ≠ 0) : k ∈ coinAccounts := by
  cases k with
  | address n =>
    simp only [amount, ne_eq, ite_eq_right_iff, not_forall] at h
    obtain ⟨hRange, -⟩ := h
    exact Finset.mem_image_of_mem _ (Finset.mem_range.mpr (by omega))
  | _ => exact absurd rfl h

theorem card_coinAccounts : coinAccounts.card ≤ 30000 := by
  refine Finset.card_image_le.trans (Nat.le_of_eq ?_)
  exact Finset.card_range 30000

theorem genesis_suppliesFit (stakeMint : Pubkey) (decimals : Nat) :
    (genesis stakeMint decimals).bank.SuppliesFit := by
  intro mint accounts
  have hCard := card_coinAccounts
  calc (genesis stakeMint decimals).bank.supply mint accounts
      ≤ ∑ k ∈ coinAccounts, amount k :=
        Finset.sum_le_sum_of_ne_zero fun k _ hk => mem_coinAccounts_of_amount hk
    _ ≤ ∑ _k ∈ coinAccounts, 1000000000 := Finset.sum_le_sum fun k _ => amount_le k
    _ = coinAccounts.card * 1000000000 := Finset.sum_const_nat fun _ _ => rfl
    _ < 2 ^ 64 := by omega

end Localnet

open Localnet in
theorem roundTrip_custodial : Run.Along (next .reference)
    (fun w x => x.Custodial (createAccounts coin 0).pool w) (dayPoolCreated coin 8 216003)
    (roundTrip.map .call) :=
  (along_dedicated (by decide)).and (along_dedicated (by decide))

open Localnet in
theorem roundTrip_suppliesFit : (run (dayPoolCreated coin 8 216003) roundTrip).bank.SuppliesFit := by
  have hTransfers : Bank.Transfers Set.univ Set.univ (genesis coin 8).bank
      (run (genesis coin 8) ([open_, create coin 0 (dayPool 216003)] ++ roundTrip)).bank :=
    run_bankTransfers (fun _ _ _ => trivial) (fun _ _ _ _ => trivial) (fun _ _ _ _ => ⟨trivial, trivial⟩)
      fun tx hTx a hIx => by
        simp only [roundTrip, List.cons_append, List.nil_append, List.mem_cons, List.not_mem_nil,
          or_false] at hTx
        rcases hTx with rfl | rfl | rfl | rfl | rfl | rfl <;> cases hIx
  exact hTransfers.suppliesFit (genesis_suppliesFit coin 8)

open Localnet in
theorem withdrawal_succeeds_iff_roundTrip :
    (Localnet.unstake 0 113 0 100).Succeeds .reference (run (dayPoolCreated coin 8 216003) roundTrip) := by
  have hConfig : (dayPoolCreated coin 8 216003).poolConfig (config 0) = some _ := rfl
  have hMatched : (Localnet.unstake 0 113 0 100).instruction.Matched (createAccounts coin 0).pool := by
    decide
  exact (withdrawal_succeeds_iff Runtime.reference_complete (reachable_run coin 8 [open_])
    (dayPool_created coin 8 216003 rfl) hConfig (by decide) (by decide) (by decide) rfl
    roundTrip_custodial (by decide) (by decide) roundTrip_suppliesFit hMatched rfl rfl rfl rfl (by decide)
    ⟨⟨rfl, rfl⟩, ⟨by decide, ⟨_, rfl, by decide⟩, rfl, _, rfl, rfl⟩, by decide, rfl, ⟨_, rfl, rfl⟩,
      ⟨_, rfl, rfl⟩, rfl⟩).mpr ⟨⟨by decide, by decide⟩, fun _ => by decide⟩

end StakingOnSolana
