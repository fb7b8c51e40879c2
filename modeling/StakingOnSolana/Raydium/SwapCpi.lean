import StakingOnSolana.Compounding
import StakingOnSolana.Raydium.AmmInstruction

/-! # The swap that `compound_reward` calls

The handler passes the accounts of its context to the wrapper of the AMM, which builds the
instruction and invokes it. The runtime lets the call through if every account that it names is
passed along, with no more rights than the transaction gave it.
-/
set_option autoImplicit false

namespace StakingOnSolana

open Checked Raydium

structure AccountInfo where
  key : Pubkey
  isSigner : Bool
  isWritable : Bool
  deriving DecidableEq, Repr

structure AccountMeta where
  pubkey : Pubkey
  isSigner : Bool
  isWritable : Bool
  deriving DecidableEq, Repr

namespace AccountMeta

def new (pubkey : Pubkey) (isSigner : Bool) : AccountMeta := ⟨pubkey, isSigner, true⟩
def newReadonly (pubkey : Pubkey) (isSigner : Bool) : AccountMeta := ⟨pubkey, isSigner, false⟩

end AccountMeta

structure RawInstruction where
  programId : Pubkey
  accounts : List AccountMeta
  data : List UInt8

namespace Raydium

/-- `amm_instruction::swap_base_in`. The token program is a constant of its crate. -/
def swapBaseIn (splToken programId ammId ammAuthority ammOpenOrders ammTargetOrders
    poolCoinTokenAccount poolPcTokenAccount serumProgramId serumMarket serumBids serumAsks
    serumEventQueue serumCoinVaultAccount serumPcVaultAccount serumVaultSigner
    userSourceTokenAccount userDestinationTokenAccount userSourceOwner : Pubkey)
    (amountIn minimumAmountOut : UInt64) : Except ProgramError RawInstruction := do
  let data ← (AmmInstruction.swapBaseIn { amountIn, minimumAmountOut }).pack
  let accounts := [
    -- spl token
    .newReadonly splToken false,
    -- amm
    .new ammId false,
    .newReadonly ammAuthority false,
    .new ammOpenOrders false,
    .new ammTargetOrders false,
    .new poolCoinTokenAccount false,
    .new poolPcTokenAccount false,
    -- serum
    .newReadonly serumProgramId false,
    .new serumMarket false,
    .new serumBids false,
    .new serumAsks false,
    .new serumEventQueue false,
    .new serumCoinVaultAccount false,
    .new serumPcVaultAccount false,
    .newReadonly serumVaultSigner false,
    -- user
    .new userSourceTokenAccount false,
    .new userDestinationTokenAccount false,
    .newReadonly userSourceOwner true]
  pure { programId, accounts, data }

/-- What the AMM program takes from the call: the data, and the last three accounts of those that
are listed beside `SwapBaseIn`. -/
def receivedSwap (call : RawInstruction) : Option StakingOnSolana.SwapBaseIn := do
  let .ok (.swapBaseIn args) := AmmInstruction.unpack call.data | none
  let source ← call.accounts[15]?
  let destination ← call.accounts[16]?
  let owner ← call.accounts[17]?
  pure {
    userSourceTokenAccount := source.pubkey
    userDestinationTokenAccount := destination.pubkey
    userSourceOwner := owner.pubkey
    amountIn := args.amountIn.toNat
    minimumAmountOut := args.minimumAmountOut.toNat }

end Raydium

structure Cpi where
  instruction : RawInstruction
  infos : List AccountInfo

def AccountInfo.Grants (info : AccountInfo) (account : AccountMeta) : Prop :=
  info.key = account.pubkey ∧ (account.isSigner = true → info.isSigner = true) ∧
    (account.isWritable = true → info.isWritable = true)

/-- No account of the call is missing, and none is given a right that its info does not have. -/
def Cpi.Permitted (call : Cpi) : Prop :=
  ∀ account ∈ call.instruction.accounts, ∃ info ∈ call.infos, info.Grants account

theorem Cpi.permitted_of_sources {call : Cpi} (sources : List AccountInfo)
    (hPassed : sources ⊆ call.infos)
    (hGrants : List.Forall₂ AccountInfo.Grants sources call.instruction.accounts) : call.Permitted := by
  intro account hAccount
  obtain ⟨i, hi, rfl⟩ := List.mem_iff_getElem.mp hAccount
  have hSource : i < sources.length := hGrants.length_eq ▸ hi
  exact ⟨sources[i], hPassed (List.getElem_mem hSource), hGrants.get hSource hi⟩

namespace AmmAnchor

structure SwapBaseIn where
  amm : AccountInfo
  ammAuthority : AccountInfo
  ammOpenOrders : AccountInfo
  ammTargetOrders : AccountInfo
  poolCoinTokenAccount : AccountInfo
  poolPcTokenAccount : AccountInfo
  serumProgram : AccountInfo
  serumMarket : AccountInfo
  serumBids : AccountInfo
  serumAsks : AccountInfo
  serumEventQueue : AccountInfo
  serumCoinVaultAccount : AccountInfo
  serumPcVaultAccount : AccountInfo
  serumVaultSigner : AccountInfo
  userSourceTokenAccount : AccountInfo
  userDestinationTokenAccount : AccountInfo
  userSourceOwner : AccountInfo
  splTokenProgram : AccountInfo

def SwapBaseIn.toAccountInfos (a : SwapBaseIn) : List AccountInfo :=
  [a.amm, a.ammAuthority, a.ammOpenOrders, a.ammTargetOrders, a.poolCoinTokenAccount,
    a.poolPcTokenAccount, a.serumProgram, a.serumMarket, a.serumBids, a.serumAsks,
    a.serumEventQueue, a.serumCoinVaultAccount, a.serumPcVaultAccount, a.serumVaultSigner,
    a.userSourceTokenAccount, a.userDestinationTokenAccount, a.userSourceOwner, a.splTokenProgram]

def swapBaseIn (splToken : Pubkey) (program : AccountInfo) (a : SwapBaseIn)
    (amountIn minimumAmountOut : UInt64) : Except ProgramError Cpi := do
  let instruction ← Raydium.swapBaseIn splToken program.key a.amm.key a.ammAuthority.key
    a.ammOpenOrders.key a.ammTargetOrders.key a.poolCoinTokenAccount.key a.poolPcTokenAccount.key
    a.serumProgram.key a.serumMarket.key a.serumBids.key a.serumAsks.key a.serumEventQueue.key
    a.serumCoinVaultAccount.key a.serumPcVaultAccount.key a.serumVaultSigner.key
    a.userSourceTokenAccount.key a.userDestinationTokenAccount.key a.userSourceOwner.key
    amountIn minimumAmountOut
  -- The infos of a context are those of its accounts, and the program.
  pure { instruction, infos := a.toAccountInfos ++ [program] }

end AmmAnchor

namespace CompoundReward

structure SwapInfos where
  admin : AccountInfo
  poolStakeTokenVault : AccountInfo
  poolRewardTokenVault : AccountInfo
  ammProgram : AccountInfo
  amm : AccountInfo
  ammAuthority : AccountInfo
  ammOpenOrders : AccountInfo
  ammTargetOrders : AccountInfo
  poolCoinTokenAccount : AccountInfo
  poolPcTokenAccount : AccountInfo
  serumProgram : AccountInfo
  serumMarket : AccountInfo
  serumBids : AccountInfo
  serumAsks : AccountInfo
  serumEventQueue : AccountInfo
  serumCoinVaultAccount : AccountInfo
  serumPcVaultAccount : AccountInfo
  serumVaultSigner : AccountInfo
  splTokenProgram : AccountInfo

/-- The infos are those of the instruction's accounts and meet its constraints: `Signer`, `mut` and
`address`. -/
structure SwapInfos.Accepted (splToken : Pubkey) (a : CompoundReward) (ctx : SwapInfos) : Prop where
  admin : ctx.admin.key = a.admin
  stakeVault : ctx.poolStakeTokenVault.key = a.poolStakeTokenVault
  rewardVault : ctx.poolRewardTokenVault.key = a.poolRewardTokenVault
  signed : ctx.admin.isSigner = true
  address : ctx.splTokenProgram.key = splToken
  writable : ∀ info ∈ [ctx.admin, ctx.poolStakeTokenVault, ctx.poolRewardTokenVault, ctx.amm,
    ctx.ammOpenOrders, ctx.ammTargetOrders, ctx.poolCoinTokenAccount, ctx.poolPcTokenAccount,
    ctx.serumMarket, ctx.serumBids, ctx.serumAsks, ctx.serumEventQueue, ctx.serumCoinVaultAccount,
    ctx.serumPcVaultAccount, ctx.serumVaultSigner], info.isWritable = true

def swapAccounts (ctx : SwapInfos) : AmmAnchor.SwapBaseIn where
  amm := ctx.amm
  ammAuthority := ctx.ammAuthority
  ammOpenOrders := ctx.ammOpenOrders
  ammTargetOrders := ctx.ammTargetOrders
  poolCoinTokenAccount := ctx.poolCoinTokenAccount
  poolPcTokenAccount := ctx.poolPcTokenAccount
  serumProgram := ctx.serumProgram
  serumMarket := ctx.serumMarket
  serumBids := ctx.serumBids
  serumAsks := ctx.serumAsks
  serumEventQueue := ctx.serumEventQueue
  serumCoinVaultAccount := ctx.serumCoinVaultAccount
  serumPcVaultAccount := ctx.serumPcVaultAccount
  serumVaultSigner := ctx.serumVaultSigner
  userSourceTokenAccount := ctx.poolRewardTokenVault
  userDestinationTokenAccount := ctx.poolStakeTokenVault
  userSourceOwner := ctx.admin
  splTokenProgram := ctx.splTokenProgram

def swapCpi (splToken : Pubkey) (ctx : SwapInfos) (pending : UInt64) : Except ProgramError Cpi :=
  let minimumAmountOut := 1
  AmmAnchor.swapBaseIn splToken ctx.ammProgram (swapAccounts ctx) pending minimumAmountOut

variable {splToken : Pubkey} {a : CompoundReward} {ctx : SwapInfos} {pending : UInt64}

/-- The call is always built, so that the result which the handler drops is never an error. -/
theorem swapCpi_received (h : ctx.Accepted splToken a) (pending : UInt64) : ∃ call,
    swapCpi splToken ctx pending = .ok call ∧ call.instruction.programId = ctx.ammProgram.key ∧
      receivedSwap call.instruction = some (a.swap pending.toNat) := by
  refine ⟨_, rfl, rfl, ?_⟩
  have hData := AmmInstruction.unpack_pack (i := .swapBaseIn ⟨pending, 1⟩) rfl
    (List.cons_ne_nil _ _) []
  rw [List.append_nil] at hData
  simp only [receivedSwap, hData]
  simp only [swapAccounts, AccountMeta.new, AccountMeta.newReadonly, h.admin, h.stakeVault,
    h.rewardVault]
  rfl

theorem swapCpi_permitted (h : ctx.Accepted splToken a) {call : Cpi}
    (hCall : swapCpi splToken ctx pending = .ok call) : call.Permitted := by
  have hWritable := h.writable
  simp only [List.forall_mem_cons] at hWritable
  obtain ⟨-, hStake, hReward, hAmm, hOrders, hTarget, hCoin, hPc, hMarket, hBids, hAsks, hQueue,
    hCoinVault, hPcVault, -⟩ := hWritable
  cases hCall
  apply Cpi.permitted_of_sources [ctx.splTokenProgram, ctx.amm, ctx.ammAuthority,
    ctx.ammOpenOrders, ctx.ammTargetOrders, ctx.poolCoinTokenAccount, ctx.poolPcTokenAccount,
    ctx.serumProgram, ctx.serumMarket, ctx.serumBids, ctx.serumAsks, ctx.serumEventQueue,
    ctx.serumCoinVaultAccount, ctx.serumPcVaultAccount, ctx.serumVaultSigner,
    ctx.poolRewardTokenVault, ctx.poolStakeTokenVault, ctx.admin]
  · simp [swapAccounts, AmmAnchor.SwapBaseIn.toAccountInfos]
  · simp [swapAccounts, AccountInfo.Grants, AccountMeta.new, AccountMeta.newReadonly, h.address,
      h.signed, hStake, hReward, hAmm, hOrders, hTarget, hCoin, hPc, hMarket, hBids, hAsks, hQueue,
      hCoinVault, hPcVault]

theorem swapCpi_signer (h : ctx.Accepted splToken a) {call : Cpi}
    (hCall : swapCpi splToken ctx pending = .ok call) :
    ∀ account ∈ call.instruction.accounts, account.isSigner = true → account.pubkey = a.admin := by
  cases hCall
  simp [swapAccounts, AccountMeta.new, AccountMeta.newReadonly, h.admin]

end CompoundReward

theorem compoundReward_owed_lt {R : Runtime} {env : Env} {a : CompoundReward} {w w' : World}
    {c : PoolConfig} {s : PoolState} {info : UserInfo}
    (hConfig : w.poolConfig a.poolConfigAccount = some c)
    (hState : w.poolState a.poolStateAccount = some s) (hInfo : w.userInfo a.userInfo = some info)
    (h : compoundReward R env a w = .ok w') : info.owed c (s.accrue c env.slot) < 2 ^ 64 := by
  simp only [compoundReward, bind_eq_ok, load_eq_ok, hConfig, hState, hInfo, Option.some.injEq,
    exists_eq_left'] at h
  obtain ⟨-, -, -, -, -, -, -, -, platform, -, -, -, bank, -, s₁, hUpdate, h⟩ := h
  obtain rfl := updatePool_ok hUpdate
  split at h
  · rename_i hNone
    rw [UserInfo.owed_of_unstaked _ _ _ hNone]
    decide
  · simp only [bind_eq_ok, mulU64_eq_ok] at h
    obtain ⟨_, -, _, ⟨hProduct, -⟩, -⟩ := h
    refine Nat.lt_of_le_of_lt ?_ hProduct
    exact (Nat.sub_le _ _).trans (Nat.div_le_self _ _)

/-- Where a compound swaps, the AMM program receives the request of the handler, under the admin's
signature alone, and what it does with it is what becomes of the bank. -/
theorem compoundReward_swap_received {R : Runtime} {env : Env} {a : CompoundReward} {w w' : World}
    {c : PoolConfig} {s : PoolState} {info : UserInfo} {pending : Nat} {splToken : Pubkey}
    {ctx : CompoundReward.SwapInfos} (hConfig : w.poolConfig a.poolConfigAccount = some c)
    (hState : w.poolState a.poolStateAccount = some s) (hInfo : w.userInfo a.userInfo = some info)
    (hMints : c.stakeMint ≠ c.rewardMint) (hOwed : info.owed c (s.accrue c env.slot) = pending)
    (hPos : 0 < pending) (hAccepted : ctx.Accepted splToken a) (h : compoundReward R env a w = .ok w') :
    ∃ call request bank, CompoundReward.swapCpi splToken ctx (UInt64.ofNat pending) = .ok call ∧
      call.Permitted ∧ call.instruction.programId = ctx.ammProgram.key ∧
      (∀ account ∈ call.instruction.accounts, account.isSigner = true → account.pubkey = a.admin) ∧
      receivedSwap call.instruction = some request ∧ request.amountIn = pending ∧
      bank.amount = w.bank.amount ∧ env.ammProgram request bank = some w'.bank := by
  have hFits := compoundReward_owed_lt hConfig hState hInfo h
  obtain ⟨platform, c', s', info', hSpec⟩ := compoundReward_ok h
  cases hConfig.symm.trans hSpec.loadedConfig
  cases hState.symm.trans hSpec.loadedState
  cases hInfo.symm.trans hSpec.loadedUser
  have hBank := hSpec.bank_eq
  rw [hOwed] at hFits hBank
  rw [CompoundReward.Swapped, if_pos ⟨hMints, hPos⟩] at hBank
  obtain ⟨call, hCall, hProgram, hReceived⟩ :=
    CompoundReward.swapCpi_received hAccepted (UInt64.ofNat pending)
  rw [UInt64.toNat_ofNat_of_lt' hFits] at hReceived
  exact ⟨call, _, w.bank.moveLamports a.user a.treasury platform.performanceFee, hCall,
    CompoundReward.swapCpi_permitted hAccepted hCall, hProgram,
    CompoundReward.swapCpi_signer hAccepted hCall, hReceived, rfl, rfl, hBank⟩

namespace Localnet

def splToken : Pubkey := .address 6

def ammInfo (i : Nat) (isWritable : Bool) : AccountInfo := ⟨.address (50000 + i), false, isWritable⟩

def swapInfos (j : Nat) : CompoundReward.SwapInfos where
  admin := ⟨admin, true, true⟩
  poolStakeTokenVault := ⟨stakeVault j, false, true⟩
  poolRewardTokenVault := ⟨rewardVault j, false, true⟩
  ammProgram := ammInfo 0 false
  amm := ammInfo 1 true
  ammAuthority := ammInfo 2 false
  ammOpenOrders := ammInfo 3 true
  ammTargetOrders := ammInfo 4 true
  poolCoinTokenAccount := ammInfo 5 true
  poolPcTokenAccount := ammInfo 6 true
  serumProgram := ammInfo 7 false
  serumMarket := ammInfo 8 true
  serumBids := ammInfo 9 true
  serumAsks := ammInfo 10 true
  serumEventQueue := ammInfo 11 true
  serumCoinVaultAccount := ammInfo 12 true
  serumPcVaultAccount := ammInfo 13 true
  serumVaultSigner := ammInfo 14 true
  splTokenProgram := ⟨splToken, false, false⟩

theorem swapInfos_accepted (j i : Nat) : (swapInfos j).Accepted splToken (compoundAccounts j i) :=
  ⟨rfl, rfl, rfl, rfl, rfl, by simp [swapInfos, ammInfo]⟩

end Localnet

open Localnet in
theorem compoundReward_swap_received_stakedPool :
    ∃ call request bank, CompoundReward.swapCpi splToken (swapInfos 0) 100 = .ok call ∧
      call.Permitted ∧ call.instruction.programId = (swapInfos 0).ammProgram.key ∧
      (∀ account ∈ call.instruction.accounts, account.isSigner = true → account.pubkey = admin) ∧
      receivedSwap call.instruction = some request ∧ request.amountIn = 100 ∧
      bank.amount = stakedPool.bank.amount ∧ (Localnet.env 111 [admin, user 0]).ammProgram request bank =
        some (next .reference stakedPool (.call (compound 0 111 0))).bank := by
  have hOk : (compound 0 111 0).instruction.exec .reference (compound 0 111 0).env stakedPool =
    .ok (next .reference stakedPool (.call (compound 0 111 0))) := exec_of_isOk rfl
  have hConfig : stakedPool.poolConfig (config 0) = some { (createAccounts coin 0).poolConfig
    (dayPool 216000) ⟨9⟩ ⟨9⟩ with startSlot := 10, endSlot := 216010 } := rfl
  have hState : stakedPool.poolState (state 0) = some ⟨10, 11, 0, 216000, 0, 0, 0⟩ := rfl
  have hInfo : stakedPool.userInfo (userInfo 0 0) = some ⟨10, 0, 0⟩ := rfl
  exact compoundReward_swap_received hConfig hState hInfo (by decide) (by decide) (by decide)
    (swapInfos_accepted 0 0) hOk

end StakingOnSolana
