import StakingOnSolana.Lib.Transfers
import StakingOnSolana.Program

/-! # Where tokens and lamports go

An instruction changes the bank only by the programs that it calls. Whatever accounts are passed
and whoever signs, the calls of a whole run create no token and no lamport, and a holder who signs
none of them loses nothing.
-/
set_option autoImplicit false

namespace StakingOnSolana

open Checked

def Instruction.lamportRoutes : Instruction → List (Pubkey × Pubkey)
  | .startReward _ | .stopReward _ => []
  | .initializePlatform a .. => [(a.admin, a.platform)]
  | .createPool a _ => [(a.creator, a.poolConfigAccount), (a.creator, a.poolStateAccount),
      (a.creator, a.treasury)]
  | .stake a _ => [(a.staker, a.userInfo), (a.staker, a.treasury)]
  | .unstake a _ => [(a.user, a.treasury)]
  | .claimReward a => [(a.claimer, a.treasury)]
  | .compoundReward a => [(a.user, a.treasury)]

/-- One call to another program, with the signatures of the transaction. -/
inductive Instruction.CpiStep (R : Runtime) (env : Env) (ix : Instruction) : Bank → Bank → Prop
  | token {source destination authority : Pubkey} {amount : Nat} {bank bank' : Bank}
      (route : (source, destination) ∈ ix.tokenRoutes)
      (h : R.tokenTransfer bank env.signers source destination authority amount = .ok bank') :
      CpiStep R env ix bank bank'
  | system {source destination : Pubkey} {amount : Nat} {bank bank' : Bank}
      (route : (source, destination) ∈ ix.lamportRoutes)
      (h : R.systemTransfer bank env.signers source destination amount = .ok bank') :
      CpiStep R env ix bank bank'
  | swap {a : CompoundReward} {pending : Nat} {bank bank' : Bank} (same : ix = .compoundReward a)
      (h : env.ammProgram (a.swap pending) bank = some bank') : CpiStep R env ix bank bank'

def Instruction.CpiSteps (R : Runtime) (env : Env) (ix : Instruction) : Bank → Bank → Prop :=
  Relation.ReflTransGen (ix.CpiStep R env)

variable {R : Runtime} {env : Env} {ix : Instruction} {w w' : World} {bank bank' bank'' : Bank}

namespace Instruction.CpiSteps

theorem token {source destination authority : Pubkey} {amount : Nat} (h : ix.CpiSteps R env bank bank')
    (hRoute : (source, destination) ∈ ix.tokenRoutes)
    (hTransfer : R.tokenTransfer bank' env.signers source destination authority amount = .ok bank'') :
    ix.CpiSteps R env bank bank'' := h.tail (.token hRoute hTransfer)

theorem system {source destination : Pubkey} {amount : Nat} (h : ix.CpiSteps R env bank bank')
    (hRoute : (source, destination) ∈ ix.lamportRoutes)
    (hTransfer : R.systemTransfer bank' env.signers source destination amount = .ok bank'') :
    ix.CpiSteps R env bank bank'' := h.tail (.system hRoute hTransfer)

theorem payPerformanceFee {platform : PlatformInfo} {user treasury : Pubkey}
    (h : ix.CpiSteps R env bank bank') (hRoute : (user, treasury) ∈ ix.lamportRoutes)
    (hFee : StakingOnSolana.payPerformanceFee R env.signers platform user treasury bank' = .ok bank'') :
    ix.CpiSteps R env bank bank'' := by
  simp only [StakingOnSolana.payPerformanceFee, bind_eq_ok, cpi_eq_ok] at hFee
  obtain ⟨-, -, hTransfer⟩ := hFee
  exact h.system hRoute hTransfer

theorem payPending {c : PoolConfig} {pf : Nat} {a : PayoutAccounts} {info : UserInfo} {s : PoolState}
    {out : Payout} (h : ix.CpiSteps R env bank bank')
    (hRoute : (a.poolRewardTokenVault, a.userRewardTokenVault) ∈ ix.tokenRoutes)
    (hPaid : StakingOnSolana.payPending R env.signers c pf a info s bank' = .ok out) :
    ix.CpiSteps R env bank out.bank := by
  simp only [StakingOnSolana.payPending, bind_eq_ok] at hPaid
  obtain ⟨_, -, pending, -, hPaid⟩ := hPaid
  split at hPaid
  · simp only [bind_eq_ok, cpi_eq_ok, pure_eq_ok] at hPaid
    obtain ⟨-, -, _, hTransfer, _, -, _, -, rfl⟩ := hPaid
    exact h.token hRoute hTransfer
  · rw [pure_eq_ok] at hPaid
    subst hPaid
    exact h

theorem payIfStaked {c : PoolConfig} {pf : Nat} {a : PayoutAccounts} {info : UserInfo} {s : PoolState}
    {out : Payout} (h : ix.CpiSteps R env bank bank')
    (hRoute : (a.poolRewardTokenVault, a.userRewardTokenVault) ∈ ix.tokenRoutes)
    (hPaid : StakingOnSolana.payIfStaked R env.signers c pf a info s bank' = .ok out) :
    ix.CpiSteps R env bank out.bank := by
  unfold StakingOnSolana.payIfStaked at hPaid
  split at hPaid
  · exact h.payPending hRoute hPaid
  · rw [pure_eq_ok] at hPaid
    subst hPaid
    exact h

end Instruction.CpiSteps

open Instruction in
theorem initializePlatform_cpiSteps {a : Initialize} {deployFee performanceFee : Nat}
    (h : initializePlatform R env a deployFee performanceFee w = .ok w') :
    CpiSteps R env (.initializePlatform a deployFee performanceFee) w.bank w'.bank := by
  simp only [initializePlatform, bind_eq_ok, pure_eq_ok] at h
  obtain ⟨-, -, -, -, -, -, bank, hInit, rfl⟩ := h
  unfold Initialize.initPlatform at hInit
  split at hInit
  · obtain rfl := pure_eq_ok.mp hInit
    exact .refl
  · simp only [bind_eq_ok, createAccount, cpi_eq_ok] at hInit
    obtain ⟨-, -, hCreate⟩ := hInit
    exact CpiSteps.system .refl List.mem_cons_self hCreate

open Instruction in
theorem createPool_cpiSteps {a : CreatePool} {args : CreatePoolArgs}
    (h : createPool R env a args w = .ok w') : CpiSteps R env (.createPool a args) w.bank w'.bank := by
  simp only [createPool, CreatePool.initAccounts, createAccount, bind_eq_ok, cpi_eq_ok, pure_eq_ok] at h
  obtain ⟨-, -, bank₂, ⟨-, -, -, -, bank₁, hCreateConfig, -, -, -, -, hCreateState⟩, platform, -, _, -, _,
    -, -, -, creatorVault, -, -, -, -, -, -, -, bank₃, hFunding, -, -, bank₄, hFee, rfl⟩ := h
  have hConfig : CpiSteps R env (.createPool a args) w.bank bank₁ :=
    CpiSteps.system .refl List.mem_cons_self hCreateConfig
  have hState := hConfig.system (by simp [lamportRoutes]) hCreateState
  have hFunded := hState.token List.mem_cons_self hFunding
  exact hFunded.system (by simp [lamportRoutes]) hFee

open Instruction in
theorem stopReward_cpiSteps {a : StopReward} (h : stopReward R env a w = .ok w') :
    CpiSteps R env (.stopReward a) w.bank w'.bank := by
  simp only [stopReward, bind_eq_ok, pure_eq_ok, Prod.exists] at h
  obtain ⟨c, -, -, -, s, -, s₁, -, _, -, s₂, bank, hRefund, rfl⟩ := h
  unfold refundRemaining at hRefund
  split at hRefund
  · simp only [bind_eq_ok, cpi_eq_ok, pure_eq_ok, Prod.mk.injEq] at hRefund
    obtain ⟨_, -, _, hTransfer, -, rfl⟩ := hRefund
    exact CpiSteps.token .refl List.mem_cons_self hTransfer
  · rw [pure_eq_ok, Prod.mk.injEq] at hRefund
    obtain ⟨-, rfl⟩ := hRefund
    exact .refl

open Instruction in
theorem stake_cpiSteps {a : Stake} {stakeAmount : Nat} (h : stake R env a stakeAmount w = .ok w') :
    CpiSteps R env (.stake a stakeAmount) w.bank w'.bank := by
  simp only [stake, bind_eq_ok, cpi_eq_ok, pure_eq_ok, Prod.exists] at h
  obtain ⟨-, -, -, -, info, bank, hInit, platform, -, c, -, -, -, s, -, -, -, -, -, bank₁, hFee, s₁, -,
    pf, -, paid, hPaid, bank₂, hIn, _, -, bank₃, hOut, _, -, _, -, _, -, _, -, rfl⟩ := h
  have hCreated : CpiSteps R env (.stake a stakeAmount) w.bank bank := by
    unfold Stake.initUserInfo at hInit
    split at hInit
    · rw [pure_eq_ok, Prod.mk.injEq] at hInit
      obtain ⟨-, rfl⟩ := hInit
      exact .refl
    · simp only [bind_eq_ok, createAccount, cpi_eq_ok, pure_eq_ok, Prod.mk.injEq] at hInit
      obtain ⟨-, -, _, hCreate, -, rfl⟩ := hInit
      exact CpiSteps.system .refl List.mem_cons_self hCreate
  have hPayout := (hCreated.payPerformanceFee (by simp [lamportRoutes]) hFee).payIfStaked
    List.mem_cons_self hPaid
  exact (hPayout.token (by simp [tokenRoutes]) hIn).token (by simp [tokenRoutes]) hOut

open Instruction in
theorem unstake_cpiSteps {a : Unstake} {unstakeAmount : Nat}
    (h : unstake R env a unstakeAmount w = .ok w') :
    CpiSteps R env (.unstake a unstakeAmount) w.bank w'.bank := by
  simp only [unstake, bind_eq_ok, cpi_eq_ok, pure_eq_ok] at h
  obtain ⟨-, -, -, -, c, -, -, -, -, -, s, -, platform, -, info, -, -, -, -, -, -, -, bank₁, hFee, s₁, -,
    pf, -, paid, hPaid, _, -, bank₂, hFeeOut, _, -, bank₃, hOut, _, -, _, -, _, -, rfl⟩ := h
  have hPayout : CpiSteps R env (.unstake a unstakeAmount) w.bank paid.bank :=
    CpiSteps.payIfStaked (CpiSteps.payPerformanceFee .refl List.mem_cons_self hFee) List.mem_cons_self hPaid
  exact (hPayout.token (by simp [tokenRoutes]) hFeeOut).token (by simp [tokenRoutes]) hOut

open Instruction in
theorem claimReward_cpiSteps {a : ClaimReward} (h : claimReward R env a w = .ok w') :
    CpiSteps R env (.claimReward a) w.bank w'.bank := by
  simp only [claimReward, bind_eq_ok] at h
  obtain ⟨-, -, -, -, info, -, c, -, -, -, s, -, platform, -, -, -, bank₁, hFee, s₁, -, h⟩ := h
  have hCharged : CpiSteps R env (.claimReward a) w.bank bank₁ :=
    CpiSteps.payPerformanceFee .refl List.mem_cons_self hFee
  split at h
  · rw [pure_eq_ok] at h
    subst h
    exact hCharged
  · simp only [bind_eq_ok, pure_eq_ok] at h
    obtain ⟨pf, -, paid, hPaid, _, -, rfl⟩ := h
    exact hCharged.payPending List.mem_cons_self hPaid

open Instruction in
theorem compoundReward_cpiSteps {a : CompoundReward} (h : compoundReward R env a w = .ok w') :
    CpiSteps R env (.compoundReward a) w.bank w'.bank := by
  simp only [compoundReward, bind_eq_ok] at h
  obtain ⟨-, -, -, -, c, -, -, -, -, -, s, -, info, -, platform, -, -, -, bank₁, hFee, s₁, -, h⟩ := h
  have hCharged : CpiSteps R env (.compoundReward a) w.bank bank₁ :=
    CpiSteps.payPerformanceFee .refl List.mem_cons_self hFee
  split at h
  · rw [pure_eq_ok] at h
    subst h
    exact hCharged
  · simp only [bind_eq_ok, pure_eq_ok] at h
    obtain ⟨pf, -, _, -, pending, -, out, hOut, _, -, rfl⟩ := h
    obtain ⟨-, -, -, hSwapped, -⟩ := CompoundReward.compoundPending_ok hOut
    unfold CompoundReward.Swapped at hSwapped
    split at hSwapped
    · exact hCharged.tail (.swap rfl hSwapped)
    · simp only [hSwapped]
      exact hCharged

theorem exec_cpiSteps (h : ix.exec R env w = .ok w') : ix.CpiSteps R env w.bank w'.bank := by
  cases ix with
  | initializePlatform a d f => exact initializePlatform_cpiSteps h
  | createPool a args => exact createPool_cpiSteps h
  | startReward a =>
    obtain ⟨c, s, hSpec⟩ := startReward_ok h
    rw [hSpec.frame.2.2.2]
    exact .refl
  | stopReward a => exact stopReward_cpiSteps h
  | stake a n => exact stake_cpiSteps h
  | unstake a n => exact unstake_cpiSteps h
  | claimReward a => exact claimReward_cpiSteps h
  | compoundReward a => exact compoundReward_cpiSteps h

def Bank.SameMint (bank : Bank) (s d : Pubkey) : Prop :=
  ∃ source destination, bank.tokenAccount s = some source ∧ bank.tokenAccount d = some destination ∧
    source.mint = destination.mint

/-- One bank comes from another by transfers out of accounts whose owner is in `owners`, and of
lamports out of accounts in `owners`; lamports stay among `payees`. -/
structure Bank.Transfers (owners payees : Set Pubkey) (bank bank' : Bank) : Prop where
  tokenAccount : bank'.tokenAccount = bank.tokenAccount
  tokens : Transfers.Steps (fun k => ∃ account, bank.tokenAccount k = some account ∧
    account.owner ∈ owners) bank.SameMint bank.amount bank'.amount
  lamports : Transfers.Steps (· ∈ owners) (fun s d => s ∈ payees ∧ d ∈ payees) bank.lamports
    bank'.lamports

variable {owners payees : Set Pubkey}

namespace Bank.Transfers

theorem refl (bank : Bank) : Bank.Transfers owners payees bank bank :=
  ⟨rfl, .refl _, .refl _⟩

theorem trans (h : Bank.Transfers owners payees bank bank')
    (h' : Bank.Transfers owners payees bank' bank'') : Bank.Transfers owners payees bank bank'' := by
  have hTokens := h'.tokens
  unfold Bank.SameMint at hTokens
  rw [h.tokenAccount] at hTokens
  exact ⟨h'.tokenAccount.trans h.tokenAccount, Relation.ReflTransGen.trans h.tokens hTokens,
    Relation.ReflTransGen.trans h.lamports h'.lamports⟩

theorem of_token {signers : List Pubkey} {source destination authority : Pubkey} {amount : Nat}
    (h : TokenTransfer bank signers source destination authority amount bank')
    (hOwner : ∀ account, bank.tokenAccount source = some account → account.owner ∈ owners) :
    Bank.Transfers owners payees bank bank' := by
  obtain ⟨s, d, hSource, hDestination, hMint⟩ := h.sameMint
  rw [h.moved]
  exact ⟨rfl, .move ⟨s, hSource, hOwner s hSource⟩ ⟨s, d, hSource, hDestination, hMint⟩ h.funded, .refl _⟩

theorem of_system {signers : List Pubkey} {source destination : Pubkey} {amount : Nat}
    (h : SystemTransfer bank signers source destination amount bank') (hOwner : source ∈ owners)
    (hSource : source ∈ payees) (hDestination : destination ∈ payees) :
    Bank.Transfers owners payees bank bank' := by
  rw [h.moved]
  exact ⟨rfl, .refl _, .move hOwner ⟨hSource, hDestination⟩ h.funded⟩

end Bank.Transfers

/-- The program called by a swap works by such transfers as well. -/
def Env.SwapTransfers (env : Env) (owners payees : Set Pubkey) : Prop :=
  ∀ swap bank bank', env.ammProgram swap bank = some bank' → Bank.Transfers owners payees bank bank'

theorem exec_bankTransfers (h : ix.exec R env w = .ok w')
    (hToken : ∀ {bank bank' source destination authority amount account},
      R.tokenTransfer bank env.signers source destination authority amount = .ok bank' →
      bank.tokenAccount source = some account → account.owner ∈ owners)
    (hSigners : ∀ k ∈ env.signers, k ∈ owners)
    (hPayees : ∀ route ∈ ix.lamportRoutes, route.1 ∈ payees ∧ route.2 ∈ payees)
    (hSwap : ∀ a, ix = .compoundReward a → env.SwapTransfers owners payees) :
    Bank.Transfers owners payees w.bank w'.bank := by
  have hStep : ∀ {bank bank'}, ix.CpiStep R env bank bank' → Bank.Transfers owners payees bank bank' := by
    intro bank bank' hStep
    cases hStep with
    | token route hTransfer =>
      exact .of_token (R.tokenTransfer_ok hTransfer) fun _ hSource => hToken hTransfer hSource
    | system route hTransfer =>
      have hMoved := R.systemTransfer_ok hTransfer
      exact .of_system hMoved (hSigners _ hMoved.signed) (hPayees _ route).1 (hPayees _ route).2
    | swap same hCall => exact hSwap _ same _ _ _ hCall
  have hSteps := exec_cpiSteps h
  generalize w'.bank = bank' at hSteps
  induction hSteps with
  | refl => exact .refl _
  | tail _ hLast ih => exact ih.trans (hStep hLast)

theorem run_bankTransfers {txs : List Tx}
    (hToken : ∀ {tx bank bank' source destination authority amount account}, tx ∈ txs →
      R.tokenTransfer bank tx.env.signers source destination authority amount = .ok bank' →
      bank.tokenAccount source = some account → account.owner ∈ owners)
    (hSigners : ∀ tx ∈ txs, ∀ k ∈ tx.env.signers, k ∈ owners)
    (hPayees : ∀ tx ∈ txs, ∀ route ∈ tx.instruction.lamportRoutes, route.1 ∈ payees ∧ route.2 ∈ payees)
    (hSwap : ∀ tx ∈ txs, ∀ a, tx.instruction = .compoundReward a → tx.env.SwapTransfers owners payees) :
    Bank.Transfers owners payees w.bank (Run.run (next R) w (txs.map .call)).bank := by
  refine Run.run_invariant (I := fun w' : World => Bank.Transfers owners payees w.bank w'.bank)
    (Q := fun _ (x : Action) => ∃ tx ∈ txs, x = .call tx) ?_ (.refl _) (Run.along_of_forall fun x hx _ => ?_)
  · rintro w' _ hSoFar ⟨tx, hTx, rfl⟩
    rcases next_call R w' tx with ⟨-, hSame⟩ | ⟨w'', hOk, hNext⟩
    · rwa [hSame]
    · rw [hNext]
      exact hSoFar.trans (exec_bankTransfers hOk (hToken hTx) (hSigners tx hTx) (hPayees tx hTx)
        (hSwap tx hTx))
  · obtain ⟨tx, hTx, rfl⟩ := List.mem_map.mp hx
    exact ⟨tx, hTx, rfl⟩

def Bank.supply (bank : Bank) (mint : Pubkey) (accounts : Finset Pubkey) : Nat :=
  ∑ k ∈ accounts with (bank.tokenAccount k).map (·.mint) = some mint, bank.amount k

/-- Transfers keep the supply of a mint, as far as all accounts of the mint are counted. -/
theorem Bank.Transfers.supply_eq {mint : Pubkey} {accounts : Finset Pubkey}
    (h : Bank.Transfers owners payees bank bank')
    (hAccounts : ∀ k account, bank.tokenAccount k = some account → account.mint = mint → k ∈ accounts) :
    bank'.supply mint accounts = bank.supply mint accounts := by
  unfold Bank.supply
  rw [h.tokenAccount]
  refine h.tokens.sum_eq ?_
  rintro s d ⟨source, destination, hSource, hDestination, hMint⟩
  simp only [Finset.mem_filter, hSource, hDestination, Option.map_some, Option.some.injEq, hMint]
  constructor
  · rintro ⟨-, hSame⟩
    exact ⟨hAccounts d destination hDestination hSame, hSame⟩
  · rintro ⟨-, hSame⟩
    exact ⟨hAccounts s source hSource (hMint.trans hSame), hSame⟩

theorem Bank.Transfers.sum_lamports {payers : Finset Pubkey}
    (h : Bank.Transfers owners payers bank bank') :
    ∑ k ∈ payers, bank'.lamports k = ∑ k ∈ payers, bank.lamports k :=
  h.lamports.sum_eq fun _ _ hBoth => iff_of_true hBoth.1 hBoth.2

/-- Over every run of calls, with any accounts and any signatures, the supply of every mint stays
what it is, and so do the lamports of those who pay and are paid. -/
theorem run_conserves {txs : List Tx} {mint : Pubkey} {accounts payers : Finset Pubkey}
    (hAccounts : ∀ k account, w.bank.tokenAccount k = some account → account.mint = mint → k ∈ accounts)
    (hPayers : ∀ tx ∈ txs, ∀ route ∈ tx.instruction.lamportRoutes, route.1 ∈ payers ∧ route.2 ∈ payers)
    (hSwap : ∀ tx ∈ txs, ∀ a, tx.instruction = .compoundReward a →
      tx.env.SwapTransfers Set.univ payers) :
    (Run.run (next R) w (txs.map .call)).bank.supply mint accounts = w.bank.supply mint accounts ∧
      ∑ k ∈ payers, (Run.run (next R) w (txs.map .call)).bank.lamports k =
        ∑ k ∈ payers, w.bank.lamports k := by
  have hTransfers : Bank.Transfers Set.univ payers w.bank (Run.run (next R) w (txs.map .call)).bank :=
    run_bankTransfers (fun _ _ _ => trivial) (fun _ _ _ _ => trivial) hPayers hSwap
  exact ⟨hTransfers.supply_eq hAccounts, hTransfers.sum_lamports⟩

/-- Nobody is a delegate: the authority of a transfer is the owner of its source. -/
def Runtime.OwnersSign (R : Runtime) : Prop :=
  ∀ {bank signers source destination authority amount bank' account},
    R.tokenTransfer bank signers source destination authority amount = .ok bank' →
    bank.tokenAccount source = some account → account.owner = authority

theorem Runtime.reference_ownersSign : Runtime.reference.OwnersSign := by
  intro bank signers source destination authority amount bank' account h hSource
  simp only [reference, splTransfer, bind_eq_ok, load_eq_ok, require_eq_ok, hSource,
    Option.some.injEq, exists_eq_left'] at h
  obtain ⟨d, -, -, -, -, -, -, hOwner, -⟩ := h
  exact hOwner

/-- Over every run of calls that he does not sign, with any accounts, a holder loses neither tokens
nor lamports. -/
theorem bystander_keeps {txs : List Tx} {v : Pubkey} (hOwners : R.OwnersSign)
    (hAbsent : ∀ tx ∈ txs, v ∉ tx.env.signers)
    (hSwap : ∀ tx ∈ txs, ∀ a, tx.instruction = .compoundReward a →
      tx.env.SwapTransfers {k | k ≠ v} Set.univ) :
    (∀ k account, w.bank.tokenAccount k = some account → account.owner = v →
      w.bank.amount k ≤ (Run.run (next R) w (txs.map .call)).bank.amount k) ∧
      w.bank.lamports v ≤ (Run.run (next R) w (txs.map .call)).bank.lamports v := by
  have hTransfers : Bank.Transfers {k | k ≠ v} Set.univ w.bank
      (Run.run (next R) w (txs.map .call)).bank := by
    refine run_bankTransfers (fun hTx hOk hSource => ?_) (fun tx hTx k hSigner => ?_)
      (fun _ _ _ _ => ⟨trivial, trivial⟩) hSwap
    · rintro rfl
      rw [hOwners hOk hSource] at hAbsent
      exact hAbsent _ hTx (R.tokenTransfer_ok hOk).signed
    · rintro rfl
      exact hAbsent tx hTx hSigner
  constructor
  · rintro k account hAccount rfl
    refine hTransfers.tokens.le_of_not_may ?_
    rintro ⟨account', hAccount', hOther⟩
    cases hAccount.symm.trans hAccount'
    exact hOther rfl
  · exact hTransfers.lamports.le_of_not_may fun hOther => hOther rfl

namespace Localnet

def roundTrip : List Tx := [start 0 0, stake 0 11 0 1000, claim 0 111 0, unstake 0 112 0 400]

def coinAccounts : Finset Pubkey := (Finset.range 30000).image Pubkey.address

theorem mem_coinAccounts (k : Pubkey) (account : TokenAccount)
    (h : tokenAccount coin k = some account) (hMint : account.mint = coin) : k ∈ coinAccounts := by
  cases k with
  | address n =>
    refine Finset.mem_image_of_mem _ (Finset.mem_range.mpr ?_)
    by_contra hLarge
    simp only [tokenAccount, if_pos (Nat.le_of_not_lt hLarge), Option.some.injEq] at h
    subst h
    exact absurd hMint (show reward ≠ coin by decide)
  | platformPda treasury => cases h
  | userInfoPda config staker => cases h

theorem roundTrip_ne_compound {P : Tx → Prop} :
    ∀ tx ∈ roundTrip, ∀ a, tx.instruction = .compoundReward a → P tx := by
  intro tx hTx a hIx
  simp only [roundTrip, List.mem_cons, List.not_mem_nil, or_false] at hTx
  rcases hTx with rfl | rfl | rfl | rfl <;> cases hIx

end Localnet

open Localnet in
theorem run_conserves_roundTrip :
    (run (dayPoolCreated coin 9 216000) roundTrip).bank.supply coin coinAccounts =
        (dayPoolCreated coin 9 216000).bank.supply coin coinAccounts ∧
      ∑ k ∈ {user 0, userInfo 0 0, treasury}, (run (dayPoolCreated coin 9 216000) roundTrip).bank.lamports k =
        ∑ k ∈ {user 0, userInfo 0 0, treasury}, (dayPoolCreated coin 9 216000).bank.lamports k :=
  run_conserves mem_coinAccounts (by decide) roundTrip_ne_compound

open Localnet in
/-- A second user, who owns the second pair of token accounts, keeps what he has. -/
theorem bystander_keeps_roundTrip :
    (∀ k account, (dayPoolCreated coin 9 216000).bank.tokenAccount k = some account →
      account.owner = user 1 → (dayPoolCreated coin 9 216000).bank.amount k ≤
        (run (dayPoolCreated coin 9 216000) roundTrip).bank.amount k) ∧
      (dayPoolCreated coin 9 216000).bank.lamports (user 1) ≤
        (run (dayPoolCreated coin 9 216000) roundTrip).bank.lamports (user 1) :=
  bystander_keeps Runtime.reference_ownersSign (by decide) roundTrip_ne_compound

end StakingOnSolana
