import StakingOnSolana.Instructions.Common

/-! # `initialize` and `create_pool` -/
set_option autoImplicit false

namespace StakingOnSolana

open Checked

structure Initialize where
  platform : Pubkey
  admin : Pubkey
  treasury : Pubkey
  deriving DecidableEq, Repr

structure CreatePool where
  poolConfigAccount : Pubkey
  poolStateAccount : Pubkey
  platform : Pubkey
  creator : Pubkey
  treasury : Pubkey
  stakeMint : Pubkey
  rewardMint : Pubkey
  poolStakeTokenVault : Pubkey
  poolRewardTokenVault : Pubkey
  creatorRewardTokenVault : Pubkey
  deriving DecidableEq, Repr

def Initialize.initPlatform (R : Runtime) (env : Env) (a : Initialize) (w : World) :
    Except Error Bank :=
  match w.platform a.platform with
  | some _ => pure w.bank
  | none => do
    require (w.Vacant a.platform) .accountAlreadyInUse
    createAccount R env.signers a.admin a.platform platformInfoSize w.bank

def initializePlatform (R : Runtime) (env : Env) (a : Initialize) (deployFee performanceFee : Nat)
    (w : World) : Except Error World := do
  require (a.admin ∈ env.signers) .accountNotSigner
  require (a.treasury ∈ env.signers) .accountNotSigner
  require (a.platform = .platformPda a.treasury) .constraintSeeds
  let bank ← a.initPlatform R env w
  pure { w with
    platform := Function.update w.platform a.platform
      (some { deployFee, performanceFee, treasury := a.treasury })
    bank }

/-- The arguments of `create_pool`, of type u16, u16, u64, u64 and u16. -/
structure CreatePoolArgs where
  stakeFee : Nat
  unstakeFee : Nat
  initialFunding : Nat
  rewardPerSlot : Nat
  duration : Nat
  deriving DecidableEq, Repr

namespace CreatePool

/-- The two `init` accounts: each signs for its own creation, and each is vacant before it. -/
def initAccounts (R : Runtime) (env : Env) (a : CreatePool) (w : World) : Except Error Bank := do
  require (a.poolConfigAccount ∈ env.signers) .accountNotSigner
  require (w.Vacant a.poolConfigAccount) .accountAlreadyInUse
  let bank ← createAccount R env.signers a.creator a.poolConfigAccount poolConfigSize w.bank
  require (a.poolStateAccount ∈ env.signers) .accountNotSigner
  require (w.Vacant a.poolStateAccount ∧ a.poolStateAccount ≠ a.poolConfigAccount)
    .accountAlreadyInUse
  createAccount R env.signers a.creator a.poolStateAccount poolStateSize bank

def poolConfig (a : CreatePool) (args : CreatePoolArgs) (stakeMint rewardMint : Mint) : PoolConfig where
  owner := a.creator
  duration := args.duration
  startSlot := 0
  endSlot := 0
  rewardPerSlot := args.rewardPerSlot
  stakeFee := args.stakeFee
  unstakeFee := args.unstakeFee
  stakeMint := a.stakeMint
  rewardMint := a.rewardMint
  stakeMintDecimals := stakeMint.decimals
  rewardMintDecimals := rewardMint.decimals
  poolStakeTokenVault := a.poolStakeTokenVault
  poolRewardTokenVault := a.poolRewardTokenVault
  stateAddr := a.poolStateAccount

end CreatePool

def createPool (R : Runtime) (env : Env) (a : CreatePool) (args : CreatePoolArgs) (w : World) :
    Except Error World := do
  require (a.creator ∈ env.signers) .accountNotSigner
  let bank ← a.initAccounts R env w
  let platform ← load (w.platform a.platform) .accountNotInitialized
  let stakeMint ← load (w.mint a.stakeMint) .accountNotInitialized
  let rewardMint ← load (w.mint a.rewardMint) .accountNotInitialized
  require (bank.AreTokenAccounts [a.poolStakeTokenVault, a.poolRewardTokenVault])
    .accountNotInitialized
  let creatorVault ← load (bank.tokenAccount a.creatorRewardTokenVault) .accountNotInitialized
  require (creatorVault.owner = a.creator) .constraintTokenOwner
  -- Validate stake and unstake fees
  require (args.stakeFee ≤ maxFee) (.brew .invalidStakeFee)
  require (args.unstakeFee ≤ maxFee) (.brew .invalidUnstakeFee)
  -- Transfer reward token from creator to pool account
  let bank ← cpi (R.tokenTransfer bank env.signers a.creatorRewardTokenVault
    a.poolRewardTokenVault a.creator args.initialFunding)
  -- Transfer deploy fee from creator to platform treasury
  require (bank.lamports a.creator > platform.deployFee) (.brew .insufficientDeployFee)
  let bank ← cpi (R.systemTransfer bank env.signers a.creator a.treasury platform.deployFee)
  pure { w with
    poolConfig := Function.update w.poolConfig a.poolConfigAccount
      (some (a.poolConfig args stakeMint rewardMint))
    poolState := Function.update w.poolState a.poolStateAccount
      (some { PoolState.zero with rewardAmount := args.initialFunding, totalStaked := 0 })
    bank }

theorem initializePlatform_ok {R : Runtime} {env : Env} {a : Initialize} {deployFee performanceFee : Nat}
    {w w' : World} (h : initializePlatform R env a deployFee performanceFee w = .ok w') :
    ∃ lamports, w' = { w with
      platform := Function.update w.platform a.platform
        (some { deployFee, performanceFee, treasury := a.treasury })
      bank := { w.bank with lamports } } := by
  simp only [initializePlatform, bind_eq_ok, require_eq_ok, pure_eq_ok] at h
  obtain ⟨-, -, -, -, -, -, bank, hInit, rfl⟩ := h
  unfold Initialize.initPlatform at hInit
  split at hInit
  · obtain rfl := pure_eq_ok.mp hInit
    exact ⟨w.bank.lamports, rfl⟩
  · simp only [bind_eq_ok, require_eq_ok] at hInit
    obtain ⟨-, -, hCreate⟩ := hInit
    obtain rfl := createAccount_ok hCreate
    exact ⟨_, rfl⟩

theorem initializePlatform_signed {R : Runtime} {env : Env} {a : Initialize}
    {deployFee performanceFee : Nat} {w w' : World}
    (h : initializePlatform R env a deployFee performanceFee w = .ok w') :
    a.admin ∈ env.signers ∧ a.treasury ∈ env.signers ∧ a.platform = .platformPda a.treasury := by
  simp only [initializePlatform, bind_eq_ok, require_eq_ok] at h
  obtain ⟨-, hAdmin, -, hTreasury, -, hDerived, -⟩ := h
  exact ⟨hAdmin, hTreasury, hDerived⟩

structure Created (env : Env) (a : CreatePool) (args : CreatePoolArgs) (w w' : World)
    (stakeMint rewardMint : Mint) : Prop where
  signed : a.creator ∈ env.signers
  loadedMints : w.mint a.stakeMint = some stakeMint ∧ w.mint a.rewardMint = some rewardMint
  vacantConfig : w.Vacant a.poolConfigAccount
  vacantState : w.Vacant a.poolStateAccount
  distinct : a.poolStateAccount ≠ a.poolConfigAccount
  fees : args.stakeFee ≤ maxFee ∧ args.unstakeFee ≤ maxFee
  funded : args.initialFunding ≤ w.bank.amount a.creatorRewardTokenVault
  poolConfig_eq : w'.poolConfig = Function.update w.poolConfig a.poolConfigAccount
    (some (a.poolConfig args stakeMint rewardMint))
  poolState_eq : w'.poolState = Function.update w.poolState a.poolStateAccount
    (some { PoolState.zero with rewardAmount := args.initialFunding })
  amount_eq : w'.bank.amount = Balance.move w.bank.amount a.creatorRewardTokenVault
    a.poolRewardTokenVault args.initialFunding
  frame : w'.userInfo = w.userInfo ∧ w'.platform = w.platform ∧ w'.mint = w.mint ∧
    w'.events = w.events

theorem createPool_ok {R : Runtime} {env : Env} {a : CreatePool} {args : CreatePoolArgs}
    {w w' : World} (h : createPool R env a args w = .ok w') :
    ∃ stakeMint rewardMint, Created env a args w w' stakeMint rewardMint := by
  simp only [createPool, CreatePool.initAccounts, bind_eq_ok, require_eq_ok, load_eq_ok, cpi_eq_ok,
    pure_eq_ok] at h
  obtain ⟨-, hSigned, bank₂, ⟨-, -, -, hConfig, bank₁, hCreateConfig, -, -, -, ⟨hState, hDistinct⟩,
    hCreateState⟩, platform, -, stakeMint, hStakeMint, rewardMint, hRewardMint, -, -, creatorVault, -,
    -, -, -, hStakeFee, -, hUnstakeFee, bank₃, hFunding, -, -, bank₄, hFee, rfl⟩ := h
  obtain rfl := createAccount_ok hCreateConfig
  obtain rfl := createAccount_ok hCreateState
  have hMoved := R.tokenTransfer_ok hFunding
  have hPaid := R.systemTransfer_ok hFee
  refine ⟨stakeMint, rewardMint, hSigned, ⟨hStakeMint, hRewardMint⟩, hConfig, hState, hDistinct,
    ⟨hStakeFee, hUnstakeFee⟩, hMoved.funded, rfl, rfl, ?_, rfl, rfl, rfl, rfl⟩
  rw [hPaid.moved, hMoved.moved]
  rfl

/-- The accounts that a successful `create_pool` found: of the vaults it asks no more than this. -/
theorem createPool_loaded {R : Runtime} {env : Env} {a : CreatePool} {args : CreatePoolArgs}
    {w w' : World} (h : createPool R env a args w = .ok w') :
    (∃ platform, w.platform a.platform = some platform) ∧
      w.bank.AreTokenAccounts [a.poolStakeTokenVault, a.poolRewardTokenVault] ∧
      w'.bank.tokenAccount = w.bank.tokenAccount := by
  simp only [createPool, CreatePool.initAccounts, bind_eq_ok, require_eq_ok, load_eq_ok, cpi_eq_ok,
    pure_eq_ok] at h
  obtain ⟨-, -, bank₂, ⟨-, -, -, -, bank₁, hCreateConfig, -, -, -, -, hCreateState⟩, platform, hPlatform,
    -, -, -, -, -, hVaults, -, -, -, -, -, -, -, -, bank₃, hFunding, -, -, bank₄, hFee, rfl⟩ := h
  obtain rfl := createAccount_ok hCreateConfig
  obtain rfl := createAccount_ok hCreateState
  refine ⟨⟨platform, hPlatform⟩, hVaults, ?_⟩
  rw [(R.systemTransfer_ok hFee).moved, (R.tokenTransfer_ok hFunding).moved]
  rfl

end StakingOnSolana
