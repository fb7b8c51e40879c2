import Mathlib.Data.Fintype.EquivFin
import StakingOnSolana.StakeLedger

/-! # Pools that can be operated

What `create_pool` does not check, the first `stake` relies on: that nine decimals suffice for the
rewards, and that the vaults belong to the mints recorded with them. The constraints on the mints
of the vaults stand in the accounts of `create_pool` as comments.
-/
set_option autoImplicit false

namespace StakingOnSolana

open Checked RewardShare

variable {R : Runtime} {env : Env} {ix : Instruction} {w w' w₀ w₁ : World} {P : PoolAddress} {p : Pool}
  {op : PoolOp} {c : PoolConfig} {s : PoolState} {n : Nat} {vaultMint : Pubkey}

/-- A stake into an empty pool that has started, in which nothing is amiss with the caller: he
holds the tokens and the lamports, the owner of the stake vault signs as well, and no two accounts
of the stake mint hold more than its supply can be. -/
structure FirstStake (R : Runtime) (P : PoolAddress) (vaultMint : Pubkey) (w : World) (env : Env)
    (a : Stake) (n : Nat) (c : PoolConfig) (s : PoolState) : Prop where
  matched : a.poolConfigAccount = P.config ∧ a.poolStateAccount = P.state ∧
    a.poolStakeTokenVault = P.stakeVault ∧ a.poolRewardTokenVault = P.rewardVault
  loadedConfig : w.poolConfig P.config = some c
  loadedState : w.poolState P.state = some s
  started : 0 < c.startSlot ∧ c.startSlot < env.slot
  first : s.totalStaked = 0
  amount : 0 < n ∧ n ≤ 2 ^ 48
  signed : a.staker ∈ env.signers ∧ a.admin ∈ env.signers
  derived : a.userInfo = .userInfoPda P.config a.staker
  free : (w.userInfo a.userInfo).isSome = true ∨ w.Vacant a.userInfo
  lamports : ∃ platform, w.platform a.platform = some platform ∧
    platform.performanceFee + a.rentDue R w < w.bank.lamports a.staker
  source : w.bank.tokenAccount a.userStakeTokenVault = some ⟨c.stakeMint, a.staker⟩
  tokens : n ≤ w.bank.amount a.userStakeTokenVault
  vault : w.bank.tokenAccount P.stakeVault = some ⟨vaultMint, a.admin⟩
  creatorVault : ∃ t, w.bank.tokenAccount a.creatorStakeTokenVault = some t ∧ t.mint = c.stakeMint
  tokenAccounts : w.bank.AreTokenAccounts a.tokenAccounts
  supply : ∀ k k' t t', k ≠ k' → w.bank.tokenAccount k = some t → w.bank.tokenAccount k' = some t' →
    t.mint = c.stakeMint → t'.mint = c.stakeMint → w.bank.amount k + w.bank.amount k' < 2 ^ 64

theorem updatePool_of_empty {slot : Nat} (h : s.totalStaked = 0) :
    updatePool c slot s = .ok (s.accrue c slot) := by
  suffices hOk : ∃ s', updatePool c slot s = .ok s' by
    obtain ⟨s', hOk⟩ := hOk
    rw [hOk, updatePool_ok hOk]
  unfold updatePool
  rw [if_pos h]
  split
  · exact ⟨_, rfl⟩
  · exact ⟨_, rfl⟩

theorem PoolState.acc_accrue_of_empty {slot : Nat} (h : s.totalStaked = 0) :
    (s.accrue c slot).accTokenPerShare = s.accTokenPerShare := by
  change s.accTokenPerShare + _ / s.totalStaked = _
  rw [h, Nat.div_zero, Nat.add_zero]

theorem payPerformanceFee_of_funded {signers : List Pubkey} {platform : PlatformInfo}
    {user treasury : Pubkey} {bank : Bank} (hR : R.Complete) (hSigned : user ∈ signers)
    (hFunded : platform.performanceFee < bank.lamports user) :
    payPerformanceFee R signers platform user treasury bank =
      .ok (bank.moveLamports user treasury platform.performanceFee) := by
  obtain ⟨bank', hTransfer⟩ := hR.systemTransfer treasury hSigned (Nat.le_of_lt hFunded)
  obtain rfl := (R.systemTransfer_ok hTransfer).moved
  simp only [payPerformanceFee, bind_eq_ok, require_eq_ok, cpi_eq_ok]
  exact ⟨(), hFunded, hTransfer⟩

theorem Stake.initUserInfo_of_free {a : Stake} (hR : R.Complete) (hSigned : a.staker ∈ env.signers)
    (hFree : (w.userInfo a.userInfo).isSome = true ∨ w.Vacant a.userInfo)
    (hRent : a.rentDue R w ≤ w.bank.lamports a.staker) :
    a.initUserInfo R env w = .ok ((w.userInfo a.userInfo).getD .zero,
      w.bank.moveLamports a.staker a.userInfo (a.rentDue R w)) := by
  suffices hOk : ∃ info bank, a.initUserInfo R env w = .ok (info, bank) by
    obtain ⟨info, bank, hOk⟩ := hOk
    obtain ⟨rfl, rfl⟩ := Stake.initUserInfo_ok hOk
    exact hOk
  unfold Stake.initUserInfo
  split
  · rename_i info hInfo
    exact ⟨info, w.bank, rfl⟩
  · rename_i hNone
    have hVacant : w.Vacant a.userInfo := hFree.resolve_left (by rw [hNone]; exact nofun)
    have hDue : R.minimumBalance userInfoSize - w.bank.lamports a.userInfo = a.rentDue R w := by
      simp [Stake.rentDue, hNone]
    obtain ⟨bank, hTransfer⟩ := hR.systemTransfer a.userInfo hSigned hRent
    refine ⟨.zero, bank, ?_⟩
    simp only [bind_eq_ok, require_eq_ok, createAccount, cpi_eq_ok, hDue]
    exact ⟨(), hVacant, bank, hTransfer, rfl⟩

theorem FirstStake.transferIn {a : Stake} (h : FirstStake R P c.stakeMint w env a n c s) (hR : R.Complete)
    (bank : Bank) (hAccounts : bank.tokenAccount = w.bank.tokenAccount)
    (hAmount : bank.amount = w.bank.amount) :
    R.tokenTransfer bank env.signers a.userStakeTokenVault P.stakeVault a.staker n =
      .ok (bank.moveTokens a.userStakeTokenVault P.stakeVault n) := by
  have hSource := h.source
  have hVault := h.vault
  have hFits : a.userStakeTokenVault = P.stakeVault ∨ bank.amount P.stakeVault + n < 2 ^ 64 := by
    by_cases hSelf : a.userStakeTokenVault = P.stakeVault
    · exact Or.inl hSelf
    · have hSupply := h.supply _ _ _ _ hSelf h.source h.vault rfl rfl
      have hTokens := h.tokens
      rw [hAmount]
      omega
  rw [← hAccounts] at hSource hVault
  obtain ⟨bank', hTransfer⟩ := hR.tokenTransfer hSource hVault rfl h.signed.1 (hAmount ▸ h.tokens) hFits
  obtain rfl := (R.tokenTransfer_ok hTransfer).moved
  exact hTransfer

theorem FirstStake.transferOut {a : Stake} (h : FirstStake R P c.stakeMint w env a n c s)
    (hR : R.Complete) (bank : Bank) {fee : Nat} (hAccounts : bank.tokenAccount = w.bank.tokenAccount)
    (hAmount : bank.amount = Balance.move w.bank.amount a.userStakeTokenVault P.stakeVault n)
    (hFee : fee ≤ n) :
    R.tokenTransfer bank env.signers P.stakeVault a.creatorStakeTokenVault a.admin fee =
      .ok (bank.moveTokens P.stakeVault a.creatorStakeTokenVault fee) := by
  obtain ⟨t, hCreator, hMint⟩ := h.creatorVault
  have hTokens := h.tokens
  have hFunded : fee ≤ bank.amount P.stakeVault := by
    rw [hAmount]
    by_cases hSelf : a.userStakeTokenVault = P.stakeVault
    · rw [← hSelf, Balance.move_self]
      omega
    · rw [Balance.move_destination _ _ hSelf]
      omega
  have hFits : P.stakeVault = a.creatorStakeTokenVault ∨
      bank.amount a.creatorStakeTokenVault + fee < 2 ^ 64 := by
    by_cases hVault : P.stakeVault = a.creatorStakeTokenVault
    · exact Or.inl hVault
    · refine Or.inr ?_
      rw [hAmount]
      by_cases hUser : a.userStakeTokenVault = a.creatorStakeTokenVault
      · -- The fee comes back to the account that paid the stake.
        have hSupply := h.supply _ _ _ _ hVault h.vault hCreator rfl hMint
        rw [hUser] at hTokens ⊢
        rw [Balance.move_source _ _ (Ne.symm hVault)]
        omega
      · have hSupply := h.supply _ _ _ _ hUser h.source hCreator rfl hMint
        rw [Balance.move_of_ne _ _ (Ne.symm hUser) (Ne.symm hVault)]
        omega
  have hSource := h.vault
  rw [← hAccounts] at hSource hCreator
  obtain ⟨bank', hTransfer⟩ := hR.tokenTransfer hSource hCreator hMint.symm h.signed.2 hFunded hFits
  obtain rfl := (R.tokenTransfer_ok hTransfer).moved
  exact hTransfer

/-- Where the vault has the stake mint and nine decimals suffice, the first stake succeeds. Nothing
is owed yet, so its two transfers are those of the stake and of the fee. -/
theorem FirstStake.succeeds {a : Stake} (h : FirstStake R P c.stakeMint w env a n c s) (hR : R.Complete)
    (hVault : c.poolStakeTokenVault = P.stakeVault) (hRate : c.stakeFee ≤ maxFee)
    (hDecimals : c.rewardMintDecimals ≤ 9) (hAcc : s.accTokenPerShare = 0)
    (hUnstaked : ((w.userInfo a.userInfo).getD .zero).stakedAmount = 0) :
    ∃ w', stake R env a n w = .ok w' := by
  obtain ⟨hConfigKey, hStateKey, hStakeKey, -⟩ := h.matched
  obtain ⟨platform, hPlatform, hLamports⟩ := h.lamports
  obtain ⟨-, hSmall⟩ := h.amount
  have hInit := Stake.initUserInfo_of_free hR h.signed.1 h.free (by omega)
  have hBalance : platform.performanceFee <
      (w.bank.moveLamports a.staker a.userInfo (a.rentDue R w)).lamports a.staker := by
    have hLeft := Balance.sub_le_move_source w.bank.lamports (a.rentDue R w) a.staker a.userInfo
    change _ < Balance.move w.bank.lamports a.staker a.userInfo (a.rentDue R w) a.staker
    omega
  obtain ⟨bank, hPaid, hAccounts, hAmount⟩ : ∃ bank, payPerformanceFee R env.signers platform a.staker
      a.treasury (w.bank.moveLamports a.staker a.userInfo (a.rentDue R w)) = .ok bank ∧
      bank.tokenAccount = w.bank.tokenAccount ∧ bank.amount = w.bank.amount :=
    ⟨_, payPerformanceFee_of_funded hR h.signed.1 hBalance, rfl, rfl⟩
  have hUpdate : updatePool c env.slot s = .ok (s.accrue c env.slot) := updatePool_of_empty h.first
  have hPrecision := (getPrecisionFactor_eq_ok c _).mpr ⟨hDecimals, rfl⟩
  have hPayout : payIfStaked R env.signers c c.precisionFactor a.payoutAccounts
      ((w.userInfo a.userInfo).getD .zero) (s.accrue c env.slot) bank =
        .ok ⟨s.accrue c env.slot, bank, []⟩ := payIfStaked_of_unstaked hUnstaked
  have hFeeProduct : n * c.stakeFee < 2 ^ 64 := by
    calc
      n * c.stakeFee ≤ 2 ^ 48 * maxFee := Nat.mul_le_mul hSmall hRate
      _ < 2 ^ 64 := by decide
  have hFee : n * c.stakeFee / percentPrecision ≤ n := feeOn_le hRate n
  have hNoAcc : (s.accrue c env.slot).accTokenPerShare = 0 :=
    (PoolState.acc_accrue_of_empty h.first).trans hAcc
  have hNoTotal : (s.accrue c env.slot).totalStaked = 0 := h.first
  have hIn := h.transferIn hR bank hAccounts hAmount
  have hOut := h.transferOut hR (bank.moveTokens a.userStakeTokenVault P.stakeVault n) hAccounts
    (by rw [Bank.moveTokens_amount, hAmount]) hFee
  have hReal : n - n * c.stakeFee / percentPrecision < 2 ^ 64 :=
    Nat.lt_of_le_of_lt ((Nat.sub_le _ _).trans hSmall) (by decide)
  rw [← hStakeKey] at hIn hOut
  apply Exists.intro
  simp only [stake, bind_eq_ok, require_eq_ok, load_eq_ok, cpi_eq_ok, mulU64_eq_ok, addU64_eq_ok,
    subU64_eq_ok, Prod.exists]
  exact ⟨(), h.signed.1, (), hConfigKey ▸ h.derived, _, _, hInit, platform, hPlatform, c,
    hConfigKey ▸ h.loadedConfig, (), hStakeKey ▸ hVault, s, hStateKey ▸ h.loadedState, (), h.tokenAccounts,
    (), h.started, _, hPaid, _, hUpdate, _, hPrecision, _, hPayout, _, hIn, _, ⟨hFeeProduct, rfl⟩, _,
    hOut, _, ⟨hFee, rfl⟩, _, ⟨by rwa [hUnstaked, Nat.zero_add], rfl⟩, _,
    ⟨by rw [hNoAcc, Nat.mul_zero]; decide, rfl⟩, _, ⟨by rwa [hNoTotal, Nat.zero_add], rfl⟩, rfl⟩

namespace Pool

/-- A pool once staked in never becomes empty again, so that an empty one has accrued nothing. -/
structure Untouched (changes : Nat) (p : Pool) : Prop where
  sound : p.Sound changes
  acc_eq : p.state.totalStaked = 0 → p.state.accTokenPerShare = 0

theorem Untouched.staked_eq {changes : Nat} (h : p.Untouched changes) (hEmpty : p.state.totalStaked = 0)
    (u : Pubkey) : p.staked u = 0 := by
  have hWeight : p.staked u ≤ p.state.totalStaked := Book.Sound.weight_le h.sound u
  omega

theorem empty_of_step {changes : Nat} (hSound : p.Sound changes) (hOp : p.Enabled op)
    (hEmpty : (p.step op).state.totalStaked = 0) : p.state.totalStaked = 0 := by
  have hTotal := p.step_totalStaked op hOp
  rw [hEmpty] at hTotal
  cases op with
  | start slot => exact hTotal.symm
  | stop slot => exact hTotal.symm
  | stake slot u amount => exact Nat.eq_zero_of_add_eq_zero_right hTotal.symm
  | unstake slot u amount =>
    have hWeight : p.staked u ≤ p.state.totalStaked := Book.Sound.weight_le hSound u
    have hLess : amount < p.staked u := hOp.2.1
    simp only at hTotal
    omega
  | claim slot u => exact hTotal.symm
  | compound slot u => exact Nat.eq_zero_of_add_eq_zero_right hTotal.symm

theorem Untouched.step {changes : Nat} (h : p.Untouched changes) (hOp : p.Enabled op) :
    (p.step op).Untouched (changes + op.changesStake) := by
  refine ⟨h.sound.step op, fun hEmpty => ?_⟩
  have hBefore := empty_of_step h.sound hOp hEmpty
  rcases op.start_or with ⟨slot, rfl⟩ | hNot
  · exact h.acc_eq hBefore
  · rw [(p.step_accrual hNot).1]
    exact (PoolState.acc_accrue_of_empty hBefore).trans (h.acc_eq hBefore)

end Pool

def World.accounts (w : World) : Set Pubkey :=
  {k | (w.poolConfig k).isSome = true} ∪ {k | (w.poolState k).isSome = true} ∪
    {k | (w.userInfo k).isSome = true} ∪ {k | (w.platform k).isSome = true}

theorem World.Reachable.finite_accounts (h : w.Reachable R) : w.accounts.Finite := by
  have hUpdate : ∀ {α : Type} (f : Pubkey → Option α) (k : Pubkey) (v : Option α),
      ∃ k', ∀ j, j ≠ k' → Function.update f k v j = f j :=
    fun f k v => ⟨k, fun j hj => Function.update_of_ne hj v f⟩
  refine Set.Finite.union (Set.Finite.union (Set.Finite.union ?_ ?_) h.finite_userAccounts) ?_
  · refine h.finite_of_exec World.poolConfig (fun g hGenesis => hGenesis.poolConfig) (fun _ _ _ => rfl) ?_
    intro env ix w w' hOk
    rcases Instruction.exec_poolConfig_eq hOk with hSame | ⟨_, _, _, _, -, hSpec⟩ | ⟨_, _, _, -, hSpec⟩
    · exact ⟨.address 0, fun j _ => congrFun hSame j⟩
    · rw [hSpec.poolConfig_eq]
      exact hUpdate _ _ _
    · rw [hSpec.poolConfig_eq]
      exact hUpdate _ _ _
  · refine h.finite_of_exec World.poolState (fun g hGenesis => hGenesis.poolState) (fun _ _ _ => rfl) ?_
    intro env ix w w' hOk
    rcases Instruction.exec_poolState_eq hOk with ⟨-, hSame⟩ | ⟨_, _, hSet, -⟩
    · exact ⟨.address 0, fun j _ => congrFun hSame j⟩
    · rw [hSet]
      exact hUpdate _ _ _
  · refine h.finite_of_exec World.platform (fun g hGenesis => hGenesis.platform) (fun _ _ _ => rfl) ?_
    intro env ix w w' hOk
    rcases Instruction.exec_platform hOk with hSame | ⟨_, _, _, -, -, -, -, hSet⟩
    · exact ⟨.address 0, fun j _ => congrFun hSame j⟩
    · rw [hSet]
      exact hUpdate _ _ _

instance : Infinite Pubkey := Infinite.of_injective Pubkey.address fun _ _ => Pubkey.address.inj

structure World.NewUser (w : World) (P : PoolAddress) (u vault : Pubkey) : Prop where
  noAccount : .userInfoPda P.config u ∉ w.accounts
  ne_stakeVault : .userInfoPda P.config u ≠ P.stakeVault
  ne_rewardVault : .userInfoPda P.config u ≠ P.rewardVault
  vault_ne_user : vault ≠ .userInfoPda P.config u
  vault_ne_stakeVault : vault ≠ P.stakeVault
  vault_ne_rewardVault : vault ≠ P.rewardVault

theorem World.Reachable.exists_newUser (h : w.Reachable R) (P : PoolAddress) :
    ∃ u vault, w.NewUser P u vault := by
  have hTaken : (w.accounts ∪ {P.stakeVault, P.rewardVault}).Finite :=
    h.finite_accounts.union (Set.toFinite _)
  have hInjective : Function.Injective (Pubkey.userInfoPda P.config) :=
    fun u v hEq => (Pubkey.userInfoPda.inj hEq).2
  obtain ⟨u, hu⟩ := (hTaken.preimage hInjective.injOn).exists_notMem
  obtain ⟨vault, hVault⟩ :=
    (Set.toFinite {.userInfoPda P.config u, P.stakeVault, P.rewardVault}).exists_notMem
  refine ⟨u, vault, fun hMem => hu (Or.inl hMem), fun hEq => hu (Or.inr (Or.inl hEq)),
    fun hEq => hu (Or.inr (Or.inr hEq)), fun hEq => hVault (Or.inl hEq),
    fun hEq => hVault (Or.inr (Or.inl hEq)), fun hEq => hVault (Or.inr (Or.inr hEq))⟩

def Bank.forStake (P : PoolAddress) (c : PoolConfig) (vaultMint u vault : Pubkey) (lamports : Nat) :
    Bank where
  tokenAccount k :=
    if k = vault then some ⟨c.stakeMint, u⟩
    else if k = P.stakeVault then some ⟨vaultMint, u⟩
    else if k = P.rewardVault then some ⟨c.rewardMint, u⟩
    else none
  amount k := if k = vault then 1 else 0
  lamports _ := lamports

def newStake (P : PoolAddress) (platform u vault : Pubkey) : Stake where
  userInfo := .userInfoPda P.config u
  staker := u
  admin := u
  treasury := u
  platform := platform
  poolConfigAccount := P.config
  poolStateAccount := P.state
  userStakeTokenVault := vault
  userRewardTokenVault := vault
  poolStakeTokenVault := P.stakeVault
  poolRewardTokenVault := P.rewardVault
  creatorStakeTokenVault := vault
  treasuryStakeTokenVault := vault

section ForStake

variable {u vault platform : Pubkey} {lamports : Nat}

theorem Bank.forStake_vault :
    (Bank.forStake P c vaultMint u vault lamports).tokenAccount vault = some ⟨c.stakeMint, u⟩ :=
  if_pos rfl

theorem World.NewUser.forStake_stakeVault (h : w.NewUser P u vault) :
    (Bank.forStake P c vaultMint u vault lamports).tokenAccount P.stakeVault = some ⟨vaultMint, u⟩ :=
  (if_neg h.vault_ne_stakeVault.symm).trans (if_pos rfl)

theorem World.NewUser.forStake_userInfo (h : w.NewUser P u vault) :
    (Bank.forStake P c vaultMint u vault lamports).tokenAccount (.userInfoPda P.config u) = none :=
  (if_neg h.vault_ne_user.symm).trans ((if_neg h.ne_stakeVault).trans (if_neg h.ne_rewardVault))

theorem World.NewUser.forStake_tokenAccounts (h : w.NewUser P u vault) :
    (Bank.forStake P c vaultMint u vault lamports).AreTokenAccounts
      (newStake P platform u vault).tokenAccounts := by
  have hReward : ((Bank.forStake P c vaultMint u vault lamports).tokenAccount P.rewardVault).isSome =
      true := by
    simp only [Bank.forStake, if_neg h.vault_ne_rewardVault.symm]
    split <;> simp
  intro k hk
  simp only [Stake.tokenAccounts, newStake, List.mem_cons, List.not_mem_nil, or_false] at hk
  rcases hk with rfl | rfl | rfl | rfl | rfl | rfl
  all_goals first | exact hReward | rw [Bank.forStake_vault]; rfl | rw [h.forStake_stakeVault]; rfl

theorem Bank.forStake_supply {k k' : Pubkey} (h : k ≠ k') :
    (Bank.forStake P c vaultMint u vault lamports).amount k +
      (Bank.forStake P c vaultMint u vault lamports).amount k' < 2 ^ 64 := by
  change (if k = vault then 1 else 0) + (if k' = vault then 1 else 0) < 2 ^ 64
  split
  · rename_i hVault
    rw [if_neg fun hVault' => h (hVault.trans hVault'.symm)]
    decide
  · split <;> decide

end ForStake

theorem startReward_of_idle {deployer : Pubkey} (hHolds : w.Holds P p) (hIdle : p.config.startSlot = 0)
    (hDuration : p.config.duration < 2 ^ 16) (hSlot : env.slot = 0) (hSigned : deployer ∈ env.signers) :
    ∃ w', startReward env ⟨deployer, P.config, P.state⟩ w = .ok w' := by
  have hSlots : p.config.duration * slotsPerDay < 2 ^ 63 := by
    calc
      p.config.duration * slotsPerDay ≤ 2 ^ 16 * slotsPerDay :=
        Nat.mul_le_mul_right _ (Nat.le_of_lt hDuration)
      _ < 2 ^ 63 := by decide
  apply Exists.intro
  simp only [startReward, bind_eq_ok, require_eq_ok, load_eq_ok, addU64_eq_ok, mulU64_eq_ok]
  exact ⟨(), hSigned, _, hHolds.config, _, hHolds.state, (), hIdle, _, ⟨by omega, rfl⟩, _,
    ⟨by omega, rfl⟩, _, ⟨by omega, rfl⟩, rfl⟩

theorem World.NewUser.vacant_of_started {a : StartReward} {u vault : Pubkey} {bank : Bank}
    {mint : Pubkey → Option Mint} (h : w.NewUser P u vault)
    (hSpec : Started env a { w with bank, mint } w' c s)
    (hNoMint : mint (.userInfoPda P.config u) = none)
    (hNoToken : bank.tokenAccount (.userInfoPda P.config u) = none) :
    w'.Vacant (.userInfoPda P.config u) := by
  have hNone := h.noAccount
  simp only [World.accounts, Set.mem_union, Set.mem_ofPred_eq, not_or, Bool.not_eq_true,
    Option.isSome_eq_false_iff, Option.isNone_iff_eq_none] at hNone
  obtain ⟨⟨⟨hNoConfig, hNoState⟩, hNoUser⟩, hNoPlatform⟩ := hNone
  obtain ⟨hUser, hPlatform, hMint, hBank⟩ := hSpec.frame
  have hConfigKey : Pubkey.userInfoPda P.config u ≠ a.poolConfigAccount := by
    intro hEq
    cases (hEq ▸ hNoConfig).symm.trans hSpec.loadedConfig
  have hStateKey : Pubkey.userInfoPda P.config u ≠ a.poolStateAccount := by
    intro hEq
    cases (hEq ▸ hNoState).symm.trans hSpec.loadedState
  unfold World.Vacant
  rw [hSpec.poolConfig_eq, hSpec.poolState_eq, hUser, hPlatform, hMint, hBank,
    Function.update_of_ne hConfigKey, Function.update_of_ne hStateKey]
  exact ⟨hNoConfig, hNoState, hNoUser, hNoPlatform, hNoMint, hNoToken⟩

/-- Whatever vaults a pool was created with: after an outside change that gives a new user what he
needs, and a start, there is a first stake to make. -/
theorem exists_firstStake {platformKey : Pubkey} {platform : PlatformInfo} (hReach : w.Reachable R)
    (hHolds : w.Holds P p) (hIdle : p.config.startSlot = 0) (hDuration : p.config.duration < 2 ^ 16)
    (hEmpty : p.state.totalStaked = 0) (hPlatform : w.platform platformKey = some platform)
    (vaultMint : Pubkey) :
    ∃ bank mint tx env a startSlot endSlot lastRewardSlot, tx.instruction.Matched P ∧
      tx.instruction.kind = .startReward ∧
      FirstStake R P vaultMint (Run.run (next R) w [.outside bank mint, .call tx]) env a 1
        { p.config with startSlot, endSlot } { p.state with lastRewardSlot } := by
  obtain ⟨u, vault, hNew⟩ := hReach.exists_newUser P
  let lamports := platform.performanceFee + R.minimumBalance userInfoSize + 1
  let bank := Bank.forStake P p.config vaultMint u vault lamports
  let mint := fun k => if k = .userInfoPda P.config u then none else w.mint k
  let env : Env := ⟨0, [u], fun _ _ => none⟩
  have hOutside : ({ w with bank, mint } : World).Holds P p := hHolds.outside (R := R) bank mint
  obtain ⟨w₃, hStart⟩ : ∃ w₃, startReward env ⟨u, P.config, P.state⟩ { w with bank, mint } = .ok w₃ :=
    startReward_of_idle hOutside hIdle hDuration rfl List.mem_cons_self
  have hRun : Run.run (next R) w [.outside bank mint, .call ⟨env, .startReward ⟨u, P.config, P.state⟩⟩] =
      w₃ := next_of_ok hStart
  have hSpec := startReward_matched hOutside ⟨rfl, rfl⟩ hStart
  obtain ⟨-, hPlatformSame, -, hBank⟩ := hSpec.frame
  have hRent : (newStake P platformKey u vault).rentDue R w₃ ≤ R.minimumBalance userInfoSize := by
    unfold Stake.rentDue
    split
    · exact Nat.zero_le _
    · exact Nat.sub_le _ _
  refine ⟨bank, mint, ⟨env, .startReward ⟨u, P.config, P.state⟩⟩, ⟨11, [u], fun _ _ => none⟩,
    newStake P platformKey u vault, 10, 10 + p.config.duration * slotsPerDay, 10, ⟨rfl, rfl⟩, rfl, ?_⟩
  rw [hRun]
  constructor
  · exact ⟨rfl, rfl, rfl, rfl⟩
  · rw [hSpec.poolConfig_eq]
    exact Function.update_self _ _ _
  · rw [hSpec.poolState_eq]
    exact Function.update_self _ _ _
  · exact ⟨Nat.succ_pos 9, Nat.lt_succ_self 10⟩
  · exact hEmpty
  · decide
  · exact ⟨List.mem_cons_self, List.mem_cons_self⟩
  · rfl
  · exact Or.inr (hNew.vacant_of_started hSpec (if_pos rfl) hNew.forStake_userInfo)
  · refine ⟨platform, ?_, ?_⟩
    · rw [hPlatformSame]
      exact hPlatform
    · rw [hBank]
      change _ < lamports
      omega
  all_goals rw [hBank]
  · exact Bank.forStake_vault
  · exact Nat.le_of_eq (if_pos rfl).symm
  · exact hNew.forStake_stakeVault
  · exact ⟨_, Bank.forStake_vault, rfl⟩
  · exact hNew.forStake_tokenAccounts
  · exact fun k k' t t' hNe _ _ _ _ => Bank.forStake_supply hNe

/-- The pool that the call from `w₀` to `w₁` recorded as `c` can be operated: its vaults belong to
its mints, the reward vault received the funding, and the first stake after a start succeeds. -/
structure Operable (R : Runtime) (P : PoolAddress) (funding : Nat) (c : PoolConfig) (w₀ w₁ : World) :
    Prop where
  rewardVault : ∃ t, w₁.bank.tokenAccount c.poolRewardTokenVault = some t ∧ t.mint = c.rewardMint
  funded : w₁.bank.amount c.poolRewardTokenVault = w₀.bank.amount c.poolRewardTokenVault + funding
  stakeVault : ∃ t, w₁.bank.tokenAccount c.poolStakeTokenVault = some t ∧ t.mint = c.stakeMint
  firstStake : ∀ (actions : List Action) (env : Env) (a : Stake) (n : Nat) (c' : PoolConfig)
    (s : PoolState) (t : TokenAccount),
    (∀ x ∈ actions, x.OnPool P [.startReward, .stake, .unstake, .claimReward, .compoundReward,
      .stopReward]) → w₁.bank.tokenAccount c.poolStakeTokenVault = some t →
    FirstStake R P t.mint (Run.run (next R) w₁ actions) env a n c' s →
    ∃ w', stake R env a n (Run.run (next R) w₁ actions) = .ok w'

/-- The creator passed vaults of the pool's mints, a reward mint of at most nine decimals, and did
not fund the reward vault from itself. -/
structure CreatePool.Proper (a : CreatePool) (args : CreatePoolArgs) (w : World) : Prop where
  rewardVault : ∀ t, w.bank.tokenAccount a.poolRewardTokenVault = some t → t.mint = a.rewardMint
  stakeVault : ∀ t, w.bank.tokenAccount a.poolStakeTokenVault = some t → t.mint = a.stakeMint
  decimals : ∀ m, w.mint a.rewardMint = some m → m.decimals ≤ 9
  funding : a.creatorRewardTokenVault = a.poolRewardTokenVault → args.initialFunding = 0

theorem move_destination_iff (amount : Pubkey → Nat) (source destination : Pubkey) (n : Nat) :
    Balance.move amount source destination n destination = amount destination + n ↔
      (source = destination → n = 0) := by
  by_cases hSelf : source = destination
  · subst hSelf
    rw [Balance.move_self]
    constructor
    · intro hSum _
      omega
    · intro hZero
      rw [hZero rfl]
      rfl
  · exact iff_of_true (Balance.move_destination amount n hSelf) fun hEq => absurd hEq hSelf

theorem Operable.decimals_le {funding : Nat} (h : Operable R P funding p.config w₀ w₁)
    (hReach : w₁.Reachable R) (hHolds : w₁.Holds P p) (hIdle : p.config.startSlot = 0)
    (hDuration : p.config.duration < 2 ^ 16) (hEmpty : p.state.totalStaked = 0)
    {platformKey : Pubkey} {platform : PlatformInfo} (hPlatform : w₁.platform platformKey = some platform) :
    p.config.rewardMintDecimals ≤ 9 := by
  obtain ⟨t, hVault, -⟩ := h.stakeVault
  obtain ⟨bank, mint, tx, env, a, startSlot, endSlot, lastRewardSlot, hMatched, hKind, hFirst⟩ :=
    exists_firstStake hReach hHolds hIdle hDuration hEmpty hPlatform t.mint
  have hRun : ∀ x ∈ [Action.outside bank mint, .call tx], x.OnPool P [.startReward, .stake, .unstake,
      .claimReward, .compoundReward, .stopReward] := by
    intro x hx
    simp only [List.mem_cons, List.not_mem_nil, or_false] at hx
    rcases hx with rfl | rfl
    · trivial
    · exact Or.inl ⟨hMatched, hKind ▸ List.mem_cons_self⟩
  obtain ⟨w', hOk⟩ := h.firstStake _ env a 1 _ _ t hRun hVault hFirst
  obtain ⟨platform', c, s, info, hSpec⟩ := stake_ok hOk
  have hLoaded := hSpec.loadedConfig
  rw [hFirst.matched.1, hFirst.loadedConfig] at hLoaded
  cases hLoaded
  exact hSpec.decimals

theorem firstStake_succeeds {actions : List Action} {a : CreatePool} {args : CreatePoolArgs}
    {c' : PoolConfig} {b : Stake} {env' : Env} (hR : R.Complete) (hReach : w₀.Reachable R)
    (hCreate : createPool R env a args w₀ = .ok w₁) (hConfig : w₁.poolConfig a.pool.config = some c)
    (hDecimals : c.rewardMintDecimals ≤ 9)
    (hRun : ∀ x ∈ actions, x.OnPool a.pool [.startReward, .stake, .unstake, .claimReward,
      .compoundReward, .stopReward])
    (hFirst : FirstStake R a.pool c.stakeMint (Run.run (next R) w₁ actions) env' b n c' s) :
    ∃ w', stake R env' b n (Run.run (next R) w₁ actions) = .ok w' := by
  obtain ⟨stakeMint, rewardMint, hSpec⟩ := createPool_ok hCreate
  obtain ⟨_, _, -, hFresh⟩ := createPool_holds hReach hCreate
  have hRate : c.stakeFee ≤ maxFee := by
    rw [hSpec.poolConfig_eq] at hConfig
    cases (Function.update_self _ _ _).symm.trans hConfig
    exact hSpec.fees.1
  obtain ⟨p, hHolds, hUntouched⟩ := run_holds_tally (R := R) (I := Pool.Untouched)
    (fun n p op _ hI hOp => hI.step hOp) hFresh ⟨Pool.fresh_sound _ _, fun _ => rfl⟩ hRun
  obtain ⟨p', hHolds', hBacked⟩ := run_backed hReach hCreate hConfig hRun
  obtain rfl := hHolds.unique hHolds'
  obtain ⟨startSlot, endSlot, hTerms⟩ := hBacked.terms
  obtain rfl := hHolds.config_eq rfl hFirst.loadedConfig
  obtain rfl := hHolds.state_eq rfl hFirst.loadedState
  have hUnstaked : (((Run.run (next R) w₁ actions).userInfo b.userInfo).getD .zero).stakedAmount = 0 := by
    rw [hFirst.derived, hHolds.user]
    exact hUntouched.staked_eq hFirst.first b.staker
  have hMint : p'.config.stakeMint = c.stakeMint := by rw [hTerms]
  rw [← hMint] at hFirst
  refine hFirst.succeeds hR hHolds.stakeVault ?_ ?_ (hUntouched.acc_eq hFirst.first) hUnstaked
  · rw [hTerms]
    exact hRate
  · rw [hTerms]
    exact hDecimals

/-- A pool can be operated exactly if its creator chose what `create_pool` does not check. -/
theorem operable_iff_proper {a : CreatePool} {args : CreatePoolArgs} (hR : R.Complete)
    (hReach : w₀.Reachable R) (hCreate : createPool R env a args w₀ = .ok w₁)
    (hConfig : w₁.poolConfig a.pool.config = some c) (hDuration : args.duration < 2 ^ 16) :
    Operable R a.pool args.initialFunding c w₀ w₁ ↔ a.Proper args w₀ := by
  obtain ⟨⟨platform, hPlatform⟩, hVaults, hTokenAccounts⟩ := createPool_loaded hCreate
  obtain ⟨stakeMint, rewardMint, hSpec⟩ := createPool_ok hCreate
  obtain ⟨stakeMint', rewardMint', hLoaded, hHolds⟩ := createPool_holds hReach hCreate
  obtain rfl := hHolds.config_eq rfl hConfig
  obtain ⟨tReward, hReward⟩ := Option.isSome_iff_exists.mp
    (hVaults a.poolRewardTokenVault (List.mem_cons_of_mem _ List.mem_cons_self))
  obtain ⟨tStake, hStake⟩ := Option.isSome_iff_exists.mp (hVaults a.poolStakeTokenVault List.mem_cons_self)
  have hFunding := move_destination_iff w₀.bank.amount a.creatorRewardTokenVault a.poolRewardTokenVault
    args.initialFunding
  rw [← hSpec.amount_eq] at hFunding
  constructor
  · intro hOperable
    have hDecimals := hOperable.decimals_le (hReach.of_ok (.createPool a args) hCreate) hHolds rfl
      hDuration rfl (hSpec.frame.2.1 ▸ hPlatform)
    obtain ⟨t, hRewardVault, hRewardMint⟩ := hOperable.rewardVault
    obtain ⟨t', hStakeVault, hStakeMint⟩ := hOperable.stakeVault
    rw [hTokenAccounts] at hRewardVault hStakeVault
    constructor
    · intro t₁ hFound
      cases hFound.symm.trans hRewardVault
      exact hRewardMint
    · intro t₁ hFound
      cases hFound.symm.trans hStakeVault
      exact hStakeMint
    · intro m hFound
      cases hFound.symm.trans hLoaded
      exact hDecimals
    · exact hFunding.mp hOperable.funded
  · intro hProper
    constructor
    · exact ⟨tReward, hTokenAccounts ▸ hReward, hProper.rewardVault _ hReward⟩
    · exact hFunding.mpr hProper.funding
    · exact ⟨tStake, hTokenAccounts ▸ hStake, hProper.stakeVault _ hStake⟩
    · intro actions env' b n c' s t hRun hVault hFirst
      rw [hTokenAccounts] at hVault
      rw [hProper.stakeVault t hVault] at hFirst
      exact firstStake_succeeds hR hReach hCreate hConfig (hProper.decimals _ hLoaded) hRun hFirst

open Localnet in
theorem operable_iff_proper_dayPool :
    Operable .reference (createAccounts coin 0).pool 216000
        ((createAccounts coin 0).poolConfig (dayPool 216000) ⟨9⟩ ⟨9⟩) (dayPoolOpen coin 9)
        (dayPoolCreated coin 9 216000) ↔
      (createAccounts coin 0).Proper (dayPool 216000) (dayPoolOpen coin 9) :=
  have hConfig : (dayPoolCreated coin 9 216000).poolConfig (config 0) =
      some ((createAccounts coin 0).poolConfig (dayPool 216000) ⟨9⟩ ⟨9⟩) := rfl
  operable_iff_proper Runtime.reference_complete (reachable_run coin 9 [open_])
    (dayPool_created coin 9 216000 rfl) hConfig (by decide)

open Localnet in
theorem not_operable_tenDecimals : ¬ ∀ (R : Runtime) (w₀ w₁ : World) (env : Env) (a : CreatePool)
    (args : CreatePoolArgs) (c : PoolConfig), R.Complete → w₀.Reachable R →
    createPool R env a args w₀ = .ok w₁ → w₁.poolConfig a.pool.config = some c →
    args.duration < 2 ^ 16 → Operable R a.pool args.initialFunding c w₀ w₁ := by
  intro hAll
  have hReach := reachable_run coin 10 [open_]
  have hCreate := dayPool_created coin 10 216000 rfl
  obtain ⟨stakeMint, rewardMint, hLoaded, hHolds⟩ := createPool_holds hReach hCreate
  obtain rfl : (⟨10⟩ : Mint) = rewardMint := Option.some.inj hLoaded
  have hOperable := hAll _ _ _ _ _ _ _ Runtime.reference_complete hReach hCreate hHolds.config (by decide)
  have hPlatform : (dayPoolCreated coin 10 216000).platform platform = some ⟨0, 0, treasury⟩ := rfl
  have hDecimals := hOperable.decimals_le
    (hReach.of_ok (.createPool (createAccounts coin 0) (dayPool 216000)) hCreate) hHolds rfl
    (by decide : 1 < 2 ^ 16) rfl hPlatform
  exact absurd hDecimals (by decide : ¬10 ≤ 9)

end StakingOnSolana
