import StakingOnSolana.Program

/-! # The widths of the fields

The account fields are u64, u16 and u8. Every value that a handler writes was computed by a checked
operation, or is an argument, the slot or a field that was there; so all fields of all accounts fit
their types in every reachable world, whatever accounts the calls pass.
-/
set_option autoImplicit false

namespace StakingOnSolana

open Checked

variable {R : Runtime} {env : Env} {ix : Instruction} {w w' g : World} {valid : Pubkey → Prop}

structure PoolState.Fits (s : PoolState) : Prop where
  totalStaked : s.totalStaked < 2 ^ 64
  lastRewardSlot : s.lastRewardSlot < 2 ^ 64
  accTokenPerShare : s.accTokenPerShare < 2 ^ 64
  rewardAmount : s.rewardAmount < 2 ^ 64
  shouldTotalPaid : s.shouldTotalPaid < 2 ^ 64
  paidRewards : s.paidRewards < 2 ^ 64
  totalEarned : s.totalEarned < 2 ^ 64

structure UserInfo.Fits (info : UserInfo) : Prop where
  stakedAmount : info.stakedAmount < 2 ^ 64
  rewardDebt : info.rewardDebt < 2 ^ 64
  depositSlot : info.depositSlot < 2 ^ 64

structure PlatformInfo.Fits (valid : Pubkey → Prop) (info : PlatformInfo) : Prop where
  deployFee : info.deployFee < 2 ^ 64
  performanceFee : info.performanceFee < 2 ^ 64
  treasury : valid info.treasury

structure PoolConfig.Fits (valid : Pubkey → Prop) (c : PoolConfig) : Prop where
  owner : valid c.owner
  duration : c.duration < 2 ^ 16
  startSlot : c.startSlot < 2 ^ 64
  endSlot : c.endSlot < 2 ^ 64
  rewardPerSlot : c.rewardPerSlot < 2 ^ 64
  stakeFee : c.stakeFee < 2 ^ 16
  unstakeFee : c.unstakeFee < 2 ^ 16
  stakeMint : valid c.stakeMint
  rewardMint : valid c.rewardMint
  stakeMintDecimals : c.stakeMintDecimals < 2 ^ 8
  rewardMintDecimals : c.rewardMintDecimals < 2 ^ 8
  poolStakeTokenVault : valid c.poolStakeTokenVault
  poolRewardTokenVault : valid c.poolRewardTokenVault
  stateAddr : valid c.stateAddr

theorem updatePool_state_fits {c : PoolConfig} {slot : Nat} {s s' : PoolState}
    (h : updatePool c slot s = .ok s') (hs : s.Fits) (hSlot : slot < 2 ^ 64) : s'.Fits := by
  unfold updatePool at h
  split at h
  · obtain rfl := pure_eq_ok.mp h
    exact hs
  · split at h
    · obtain rfl := pure_eq_ok.mp h
      exact { hs with lastRewardSlot := hSlot }
    · simp only [bind_eq_ok, addU64_eq_ok, pure_eq_ok] at h
      obtain ⟨_, -, _, -, _, -, _, -, _, ⟨hAcc, rfl⟩, _, ⟨hShould, rfl⟩, rfl⟩ := h
      exact { hs with lastRewardSlot := hSlot, accTokenPerShare := hAcc, shouldTotalPaid := hShould }

theorem payPending_state_fits {signers : List Pubkey} {c : PoolConfig} {precisionFactor : Nat}
    {a : PayoutAccounts} {info : UserInfo} {s : PoolState} {bank : Bank} {out : Payout}
    (h : payPending R signers c precisionFactor a info s bank = .ok out) (hs : s.Fits) :
    out.poolState.Fits := by
  simp only [payPending, bind_eq_ok] at h
  obtain ⟨_, -, pending, -, h⟩ := h
  split at h
  · simp only [bind_eq_ok, subU64_eq_ok, addU64_eq_ok, pure_eq_ok, saturating_sub] at h
    obtain ⟨-, -, bank', -, _, ⟨-, rfl⟩, _, ⟨hPaid, rfl⟩, rfl⟩ := h
    exact { hs with
      rewardAmount := Nat.lt_of_le_of_lt (Nat.sub_le _ _) hs.rewardAmount
      totalEarned := Nat.lt_of_le_of_lt (Nat.sub_le _ _) hs.totalEarned
      paidRewards := hPaid }
  · obtain rfl := pure_eq_ok.mp h
    exact hs

theorem payIfStaked_state_fits {signers : List Pubkey} {c : PoolConfig} {precisionFactor : Nat}
    {a : PayoutAccounts} {info : UserInfo} {s : PoolState} {bank : Bank} {out : Payout}
    (h : payIfStaked R signers c precisionFactor a info s bank = .ok out) (hs : s.Fits) :
    out.poolState.Fits := by
  unfold payIfStaked at h
  split at h
  · exact payPending_state_fits h hs
  · obtain rfl := pure_eq_ok.mp h
    exact hs

theorem compoundPending_state_fits {a : CompoundReward} {c : PoolConfig} {info : UserInfo}
    {loaded pending : Nat} {s : PoolState} {bank : Bank} {out : Compounded}
    (h : a.compoundPending env c info loaded pending s bank = .ok out) (hs : s.Fits)
    (hInfo : info.Fits) : out.poolState.Fits ∧ out.stakedAmount < 2 ^ 64 := by
  unfold CompoundReward.compoundPending at h
  split at h
  · simp only [bind_eq_ok, addU64_eq_ok, pure_eq_ok, saturating_sub] at h
    obtain ⟨-, -, _, ⟨hPaid, rfl⟩, _, -, _, ⟨hTotal, rfl⟩, _, ⟨hStaked, rfl⟩, rfl⟩ := h
    exact ⟨{ hs with
      totalStaked := hTotal
      totalEarned := Nat.lt_of_le_of_lt (Nat.sub_le _ _) hs.totalEarned
      paidRewards := hPaid }, hStaked⟩
  · obtain rfl := pure_eq_ok.mp h
    exact ⟨hs, hInfo.stakedAmount⟩

theorem refundRemaining_state_fits {a : StopReward} {remainRewards : Nat} {s s' : PoolState}
    {bank bank' : Bank} (h : refundRemaining R env a remainRewards s bank = .ok (s', bank'))
    (hs : s.Fits) : s'.Fits := by
  unfold refundRemaining at h
  split at h
  · simp only [bind_eq_ok, pure_eq_ok, saturating_sub, Prod.mk.injEq] at h
    obtain ⟨_, -, _, -, rfl, rfl⟩ := h
    exact { hs with totalEarned := Nat.lt_of_le_of_lt (Nat.sub_le _ _) hs.totalEarned }
  · rw [pure_eq_ok, Prod.mk.injEq] at h
    obtain ⟨rfl, rfl⟩ := h
    exact hs

/-- All numbers fit, and all keys are of those that count as valid. -/
structure World.FieldsFit (valid : Pubkey → Prop) (w : World) : Prop where
  platform : ∀ k info, w.platform k = some info → info.Fits valid
  poolConfig : ∀ k c, w.poolConfig k = some c → c.Fits valid
  poolState : ∀ k s, w.poolState k = some s → s.Fits
  userInfo : ∀ k info, w.userInfo k = some info → info.Fits

def World.MintsFit (w : World) : Prop := ∀ k m, w.mint k = some m → m.decimals < 2 ^ 8

/-- The arguments are of their types, and so are the keys that a call records. -/
def Instruction.ArgsFit (valid : Pubkey → Prop) : Instruction → Prop
  | .initializePlatform a deployFee performanceFee =>
    deployFee < 2 ^ 64 ∧ performanceFee < 2 ^ 64 ∧ valid a.treasury
  | .createPool a args =>
    (args.initialFunding < 2 ^ 64 ∧ args.rewardPerSlot < 2 ^ 64 ∧ args.duration < 2 ^ 16) ∧
      valid a.creator ∧ valid a.stakeMint ∧ valid a.rewardMint ∧ valid a.poolStakeTokenVault ∧
        valid a.poolRewardTokenVault ∧ valid a.poolStateAccount
  | .startReward _ | .stopReward _ | .stake .. | .unstake .. | .claimReward _ | .compoundReward _ => True

theorem update_forall {α : Type} {f : Pubkey → Option α} {j : Pubkey} {v : α} {X : α → Prop}
    (h : ∀ k x, f k = some x → X x) (hv : X v) (k : Pubkey) (x : α)
    (hx : Function.update f j (some v) k = some x) : X x := by
  rcases update_eq_some hx with ⟨-, rfl⟩ | hOld
  · exact hv
  · exact h k x hOld

theorem maxFee_fits {rate : Nat} (h : rate ≤ maxFee) : rate < 2 ^ 16 :=
  Nat.lt_of_le_of_lt h (by decide)

namespace World.FieldsFit

theorem div_fits {n : Nat} (h : n < 2 ^ 64) (d : Nat) : n / d < 2 ^ 64 :=
  Nat.lt_of_le_of_lt (Nat.div_le_self n d) h

theorem createPool {a : CreatePool} {args : CreatePoolArgs} (h : w.FieldsFit valid) (hMints : w.MintsFit)
    (hArgs : (Instruction.createPool a args).ArgsFit valid)
    (hOk : StakingOnSolana.createPool R env a args w = .ok w') : w'.FieldsFit valid := by
  obtain ⟨stakeMint, rewardMint, hSpec⟩ := createPool_ok hOk
  obtain ⟨hUser, hPlatform, -, -⟩ := hSpec.frame
  obtain ⟨⟨hFunding, hRate, hDuration⟩, hCreator, hStakeMint, hRewardMint, hStakeVault, hRewardVault,
    hStateAddr⟩ := hArgs
  constructor
  · rw [hPlatform]
    exact h.platform
  · rw [hSpec.poolConfig_eq]
    refine update_forall h.poolConfig ?_
    exact {
      owner := hCreator
      duration := hDuration
      startSlot := Nat.two_pow_pos 64
      endSlot := Nat.two_pow_pos 64
      rewardPerSlot := hRate
      stakeFee := maxFee_fits hSpec.fees.1
      unstakeFee := maxFee_fits hSpec.fees.2
      stakeMint := hStakeMint
      rewardMint := hRewardMint
      stakeMintDecimals := hMints _ _ hSpec.loadedMints.1
      rewardMintDecimals := hMints _ _ hSpec.loadedMints.2
      poolStakeTokenVault := hStakeVault
      poolRewardTokenVault := hRewardVault
      stateAddr := hStateAddr }
  · rw [hSpec.poolState_eq]
    refine update_forall h.poolState ?_
    constructor <;> first | exact hFunding | exact Nat.two_pow_pos 64
  · rw [hUser]
    exact h.userInfo

theorem startReward {a : StartReward} (h : w.FieldsFit valid)
    (hOk : StakingOnSolana.startReward env a w = .ok w') : w'.FieldsFit valid := by
  simp only [StakingOnSolana.startReward, bind_eq_ok, load_eq_ok, addU64_eq_ok, pure_eq_ok] at hOk
  obtain ⟨-, -, c, hConfig, s, hState, -, -, _, ⟨hStart, rfl⟩, _, -, _, ⟨hEnd, rfl⟩, rfl⟩ := hOk
  refine ⟨h.platform, update_forall h.poolConfig ?_, update_forall h.poolState ?_, h.userInfo⟩
  · exact { h.poolConfig _ _ hConfig with startSlot := hStart, endSlot := hEnd }
  · exact { h.poolState _ _ hState with lastRewardSlot := hStart }

theorem stopReward {a : StopReward} (h : w.FieldsFit valid) (hSlot : env.slot < 2 ^ 64)
    (hOk : StakingOnSolana.stopReward R env a w = .ok w') : w'.FieldsFit valid := by
  simp only [StakingOnSolana.stopReward, bind_eq_ok, load_eq_ok, pure_eq_ok, Prod.exists] at hOk
  obtain ⟨c, -, -, -, s, hState, s₁, hUpdate, _, -, s₂, bank, hRefund, rfl⟩ := hOk
  have hUpdated := updatePool_state_fits hUpdate (h.poolState _ _ hState) hSlot
  exact ⟨h.platform, h.poolConfig,
    update_forall h.poolState (refundRemaining_state_fits hRefund hUpdated), h.userInfo⟩

theorem stake {a : Stake} {n : Nat} (h : w.FieldsFit valid) (hSlot : env.slot < 2 ^ 64)
    (hOk : StakingOnSolana.stake R env a n w = .ok w') : w'.FieldsFit valid := by
  simp only [StakingOnSolana.stake, bind_eq_ok, load_eq_ok, addU64_eq_ok, mulU64_eq_ok, pure_eq_ok,
    Prod.exists] at hOk
  obtain ⟨-, -, -, -, info, bank₀, hInit, platform, -, c, -, -, -, s, hState, -, -, -, -, bank₁, -, s₁,
    hUpdate, pf, -, paid, hPaid, bank₂, -, _, -, bank₃, -, _, -, _, ⟨hStaked, rfl⟩, _,
    ⟨hScaled, rfl⟩, _, ⟨hTotal, rfl⟩, rfl⟩ := hOk
  have hUpdated := updatePool_state_fits hUpdate (h.poolState _ _ hState) hSlot
  have hPaidFits := payIfStaked_state_fits hPaid hUpdated
  have hInfo : info.Fits := by
    obtain ⟨hLoaded, -⟩ := Stake.initUserInfo_ok hInit
    cases hOld : w.userInfo a.userInfo with
    | some old =>
      rw [hOld] at hLoaded
      exact hLoaded ▸ h.userInfo _ _ hOld
    | none =>
      rw [hOld] at hLoaded
      rw [← hLoaded]
      exact ⟨by decide, by decide, by decide⟩
  refine ⟨h.platform, h.poolConfig, update_forall h.poolState ?_, update_forall h.userInfo ?_⟩
  · exact { hPaidFits with totalStaked := hTotal }
  · exact { hInfo with stakedAmount := hStaked, rewardDebt := div_fits hScaled _ }

theorem unstake {a : Unstake} {n : Nat} (h : w.FieldsFit valid) (hSlot : env.slot < 2 ^ 64)
    (hOk : StakingOnSolana.unstake R env a n w = .ok w') : w'.FieldsFit valid := by
  simp only [StakingOnSolana.unstake, bind_eq_ok, load_eq_ok, subU64_eq_ok, mulU64_eq_ok, pure_eq_ok]
    at hOk
  obtain ⟨-, -, -, -, c, -, -, -, -, -, s, hState, platform, -, info, hInfo, -, -, -, -, -, -, bank₁, -,
    s₁, hUpdate, pf, -, paid, hPaid, _, -, bank₂, -, _, -, bank₃, -, _, ⟨-, rfl⟩, _, ⟨hScaled, rfl⟩, _,
    ⟨-, rfl⟩, rfl⟩ := hOk
  have hUpdated := updatePool_state_fits hUpdate (h.poolState _ _ hState) hSlot
  have hPaidFits := payIfStaked_state_fits hPaid hUpdated
  have hInfoFits := h.userInfo _ _ hInfo
  refine ⟨h.platform, h.poolConfig, update_forall h.poolState ?_, update_forall h.userInfo ?_⟩
  · exact { hPaidFits with totalStaked := Nat.lt_of_le_of_lt (Nat.sub_le _ _) hPaidFits.totalStaked }
  · exact { hInfoFits with
      stakedAmount := Nat.lt_of_le_of_lt (Nat.sub_le _ _) hInfoFits.stakedAmount
      rewardDebt := div_fits hScaled _ }

theorem claimReward {a : ClaimReward} (h : w.FieldsFit valid) (hSlot : env.slot < 2 ^ 64)
    (hOk : StakingOnSolana.claimReward R env a w = .ok w') : w'.FieldsFit valid := by
  simp only [StakingOnSolana.claimReward, bind_eq_ok, load_eq_ok] at hOk
  obtain ⟨-, -, -, -, info, hInfo, c, -, -, -, s, hState, platform, -, -, -, bank₁, -, s₁, hUpdate,
    hOk⟩ := hOk
  have hUpdated := updatePool_state_fits hUpdate (h.poolState _ _ hState) hSlot
  split at hOk
  · obtain rfl := pure_eq_ok.mp hOk
    exact ⟨h.platform, h.poolConfig, update_forall h.poolState hUpdated, h.userInfo⟩
  · simp only [bind_eq_ok, mulU64_eq_ok, pure_eq_ok] at hOk
    obtain ⟨pf, -, paid, hPaid, _, ⟨hScaled, rfl⟩, rfl⟩ := hOk
    refine ⟨h.platform, h.poolConfig,
      update_forall h.poolState (payPending_state_fits hPaid hUpdated), update_forall h.userInfo ?_⟩
    exact { h.userInfo _ _ hInfo with rewardDebt := div_fits hScaled _ }

theorem compoundReward {a : CompoundReward} (h : w.FieldsFit valid) (hSlot : env.slot < 2 ^ 64)
    (hOk : StakingOnSolana.compoundReward R env a w = .ok w') : w'.FieldsFit valid := by
  simp only [StakingOnSolana.compoundReward, bind_eq_ok, load_eq_ok] at hOk
  obtain ⟨-, -, -, -, c, -, -, -, -, -, s, hState, info, hInfo, platform, -, -, -, bank₁, -, s₁, hUpdate,
    hOk⟩ := hOk
  have hUpdated := updatePool_state_fits hUpdate (h.poolState _ _ hState) hSlot
  have hInfoFits := h.userInfo _ _ hInfo
  split at hOk
  · obtain rfl := pure_eq_ok.mp hOk
    exact ⟨h.platform, h.poolConfig, update_forall h.poolState hUpdated, h.userInfo⟩
  · simp only [bind_eq_ok, mulU64_eq_ok, pure_eq_ok] at hOk
    obtain ⟨pf, -, _, -, _, -, out, hOut, _, ⟨hScaled, rfl⟩, rfl⟩ := hOk
    obtain ⟨hState', hStaked⟩ := compoundPending_state_fits hOut hUpdated hInfoFits
    refine ⟨h.platform, h.poolConfig, update_forall h.poolState hState', update_forall h.userInfo ?_⟩
    exact { hInfoFits with stakedAmount := hStaked, rewardDebt := div_fits hScaled _ }

theorem exec (h : w.FieldsFit valid) (hMints : w.MintsFit) (hSlot : env.slot < 2 ^ 64)
    (hArgs : ix.ArgsFit valid) (hOk : ix.exec R env w = .ok w') : w'.FieldsFit valid := by
  cases ix with
  | initializePlatform a d f =>
    obtain ⟨_, rfl⟩ := initializePlatform_ok hOk
    obtain ⟨hDeploy, hPerformance, hTreasury⟩ := hArgs
    exact ⟨update_forall h.platform ⟨hDeploy, hPerformance, hTreasury⟩, h.poolConfig, h.poolState,
      h.userInfo⟩
  | createPool a args => exact h.createPool hMints hArgs hOk
  | startReward a => exact h.startReward hOk
  | stopReward a => exact h.stopReward hSlot hOk
  | stake a n => exact h.stake hSlot hOk
  | unstake a n => exact h.unstake hSlot hOk
  | claimReward a => exact h.claimReward hSlot hOk
  | compoundReward a => exact h.compoundReward hSlot hOk

theorem of_genesis (hGenesis : g.Genesis) : g.FieldsFit valid where
  platform k info hInfo := by cases (hGenesis.platform k).symm.trans hInfo
  poolConfig k c hc := by cases (hGenesis.poolConfig k).symm.trans hc
  poolState k s hs := by cases (hGenesis.poolState k).symm.trans hs
  userInfo k info hInfo := by cases (hGenesis.userInfo k).symm.trans hInfo

end World.FieldsFit

/-- An action with arguments, a slot and mints of their types. -/
def Action.Typed (valid : Pubkey → Prop) : Action → Prop
  | .call tx => tx.env.slot < 2 ^ 64 ∧ tx.instruction.ArgsFit valid
  | .outside _ mint => ∀ k m, mint k = some m → m.decimals < 2 ^ 8

theorem exec_mint (h : ix.exec R env w = .ok w') : w'.mint = w.mint := by
  cases ix with
  | initializePlatform a d f =>
    obtain ⟨_, rfl⟩ := initializePlatform_ok h
    rfl
  | createPool a args =>
    obtain ⟨_, _, hSpec⟩ := createPool_ok h
    exact hSpec.frame.2.2.1
  | startReward a =>
    obtain ⟨_, _, hSpec⟩ := startReward_ok h
    exact hSpec.frame.2.2.1
  | stopReward a =>
    obtain ⟨_, _, hSpec⟩ := stopReward_ok h
    exact hSpec.frame.2.2.2
  | stake a n =>
    obtain ⟨_, _, _, _, hSpec⟩ := stake_ok h
    exact hSpec.frame.2.2
  | unstake a n =>
    obtain ⟨_, _, _, _, hSpec⟩ := unstake_ok h
    exact hSpec.frame.2.2
  | claimReward a =>
    obtain ⟨_, _, _, _, hSpec⟩ := claimReward_ok h
    exact hSpec.frame.2.2
  | compoundReward a =>
    obtain ⟨_, _, _, _, hSpec⟩ := compoundReward_ok h
    exact hSpec.frame.2.2

theorem next_fieldsFit {x : Action} (h : w.FieldsFit valid ∧ w.MintsFit) (hTyped : x.Typed valid) :
    (next R w x).FieldsFit valid ∧ (next R w x).MintsFit := by
  obtain ⟨hFit, hMints⟩ := h
  cases x with
  | outside bank mint => exact ⟨⟨hFit.platform, hFit.poolConfig, hFit.poolState, hFit.userInfo⟩, hTyped⟩
  | call tx =>
    rcases next_call R w tx with ⟨-, hSame⟩ | ⟨w', hOk, hNext⟩
    · rw [hSame]
      exact ⟨hFit, hMints⟩
    · rw [hNext]
      refine ⟨hFit.exec hMints hTyped.1 hTyped.2 hOk, ?_⟩
      unfold World.MintsFit
      rw [exec_mint hOk]
      exact hMints

/-- Over every run of calls whose arguments are of their types, with any accounts, every field of
every account keeps within its type. -/
theorem run_fieldsFit {actions : List Action} (hGenesis : g.Genesis) (hMints : g.MintsFit)
    (hTyped : ∀ x ∈ actions, x.Typed valid) : (Run.run (next R) g actions).FieldsFit valid :=
  (Run.run_invariant (I := fun w : World => w.FieldsFit valid ∧ w.MintsFit)
    (fun _ _ hBoth hx => next_fieldsFit hBoth hx) ⟨.of_genesis hGenesis, hMints⟩
    (Run.along_of_forall fun x hx _ => hTyped x hx)).1

namespace Localnet

/-- A pool from the opening of the platform on to the first reward. -/
def firstReward : List Tx :=
  [open_, create coin 0 (dayPool 216000), start 0 0, stake 0 11 0 1000, claim 0 111 0]

theorem firstReward_typed :
    ∀ x ∈ firstReward.map Action.call, x.Typed fun k => ∃ n < 256 ^ 32, k = .address n := by
  intro x hx
  simp only [firstReward, List.map_cons, List.map_nil, List.mem_cons, List.not_mem_nil, or_false] at hx
  rcases hx with rfl | rfl | rfl | rfl | rfl
  · exact ⟨by decide, by decide, by decide, 2, by decide, rfl⟩
  · exact ⟨by decide, ⟨by decide, by decide, by decide⟩, ⟨1, by decide, rfl⟩, ⟨4, by decide, rfl⟩,
      ⟨3, by decide, rfl⟩, ⟨12, by decide, rfl⟩, ⟨13, by decide, rfl⟩, ⟨11, by decide, rfl⟩⟩
  all_goals exact ⟨by decide, trivial⟩

theorem genesis_mintsFit (stakeMint : Pubkey) {decimals : Nat} (h : decimals < 2 ^ 8) :
    (genesis stakeMint decimals).MintsFit := by
  intro k m hm
  simp only [genesis] at hm
  split at hm
  · cases hm
    exact h
  · split at hm
    · cases hm
      decide
    · cases hm

end Localnet

open Localnet in
theorem run_fieldsFit_firstReward :
    (run (genesis coin 9) firstReward).FieldsFit fun k => ∃ n < 256 ^ 32, k = .address n :=
  run_fieldsFit (genesis_genesis coin 9) (genesis_mintsFit coin (by decide)) firstReward_typed

end StakingOnSolana
