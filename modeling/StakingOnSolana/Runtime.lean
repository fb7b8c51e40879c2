import StakingOnSolana.Error
import StakingOnSolana.Lib.Balance
import StakingOnSolana.State

/-! # What surrounds an instruction

The staking program owns its four kinds of accounts. Token accounts and lamports belong
to the token program and the system program, which it calls; they are the `Bank`. The
called programs are not part of the repository: a `Runtime` is any implementation of the
two transfers that does what is documented of them when it succeeds.
-/
set_option autoImplicit false

namespace StakingOnSolana

open Checked

structure TokenAccount where
  mint : Pubkey
  owner : Pubkey
  deriving DecidableEq, Repr

structure Mint where
  decimals : Nat
  deriving DecidableEq, Repr

structure Bank where
  tokenAccount : Pubkey → Option TokenAccount
  amount : Pubkey → Nat
  lamports : Pubkey → Nat

namespace Bank

def moveTokens (bank : Bank) (source destination : Pubkey) (n : Nat) : Bank :=
  { bank with amount := Balance.move bank.amount source destination n }

def moveLamports (bank : Bank) (source destination : Pubkey) (n : Nat) : Bank :=
  { bank with lamports := Balance.move bank.lamports source destination n }

@[simp] theorem moveTokens_amount (bank : Bank) (s d : Pubkey) (n : Nat) :
    (bank.moveTokens s d n).amount = Balance.move bank.amount s d n := rfl
@[simp] theorem moveTokens_zero (bank : Bank) (s d : Pubkey) : bank.moveTokens s d 0 = bank := by
  simp [moveTokens]

end Bank

/-- What a successful token transfer does. A delegate may sign in place of the owner, so the
signature of the authority is all that success says about who allowed it. Accounts of the native
mint are counted by their `amount` only: the lamports wrapped in them, which move with it, are not
among the `lamports` here. The rent that the runtime asks of every account at the end of a
transaction is not part of this contract either. -/
structure TokenTransfer (bank : Bank) (signers : List Pubkey) (source destination authority : Pubkey)
    (amount : Nat) (bank' : Bank) : Prop where
  signed : authority ∈ signers
  sameMint : ∃ s d, bank.tokenAccount source = some s ∧ bank.tokenAccount destination = some d ∧
    s.mint = d.mint
  funded : amount ≤ bank.amount source
  moved : bank' = bank.moveTokens source destination amount

structure SystemTransfer (bank : Bank) (signers : List Pubkey) (source destination : Pubkey)
    (amount : Nat) (bank' : Bank) : Prop where
  signed : source ∈ signers
  funded : amount ≤ bank.lamports source
  moved : bank' = bank.moveLamports source destination amount

structure Runtime where
  minimumBalance : Nat → Nat
  tokenTransfer : Bank → List Pubkey → Pubkey → Pubkey → Pubkey → Nat → Except CpiError Bank
  systemTransfer : Bank → List Pubkey → Pubkey → Pubkey → Nat → Except CpiError Bank
  tokenTransfer_ok : ∀ {bank signers source destination authority amount bank'},
    tokenTransfer bank signers source destination authority amount = .ok bank' →
    TokenTransfer bank signers source destination authority amount bank'
  systemTransfer_ok : ∀ {bank signers source destination amount bank'},
    systemTransfer bank signers source destination amount = .ok bank' →
    SystemTransfer bank signers source destination amount bank'

namespace Runtime

/-- The transfer of the token program between accounts without delegate or freeze. -/
def splTransfer (bank : Bank) (signers : List Pubkey) (source destination authority : Pubkey)
    (amount : Nat) : Except CpiError Bank := do
  let from_ ← load (bank.tokenAccount source) .uninitializedAccount
  let to_ ← load (bank.tokenAccount destination) .uninitializedAccount
  require (amount ≤ bank.amount source) .insufficientFunds
  require (from_.mint = to_.mint) .mintMismatch
  require (from_.owner = authority) .ownerMismatch
  require (authority ∈ signers) .missingRequiredSignature
  require (source = destination ∨ bank.amount destination + amount < 2 ^ 64) .overflow
  pure (bank.moveTokens source destination amount)

def lamportTransfer (bank : Bank) (signers : List Pubkey) (source destination : Pubkey)
    (amount : Nat) : Except CpiError Bank := do
  require (source ∈ signers) .missingRequiredSignature
  require (amount ≤ bank.lamports source) .insufficientFunds
  pure (bank.moveLamports source destination amount)

/-- The documented behaviour as a program, with the default rent of two years. -/
def reference : Runtime where
  minimumBalance space := (128 + space) * 3480 * 2
  tokenTransfer := splTransfer
  systemTransfer := lamportTransfer
  tokenTransfer_ok {bank signers source destination authority amount bank'} h := by
    simp only [splTransfer, bind_eq_ok, load_eq_ok, require_eq_ok, pure_eq_ok] at h
    obtain ⟨s, hs, d, hd, -, hFunded, -, hMint, -, -, -, hSigned, -, -, rfl⟩ := h
    exact ⟨hSigned, ⟨s, d, hs, hd, hMint⟩, hFunded, rfl⟩
  systemTransfer_ok {bank signers source destination amount bank'} h := by
    simp only [lamportTransfer, bind_eq_ok, require_eq_ok, pure_eq_ok] at h
    obtain ⟨-, hSigned, -, hFunded, rfl⟩ := h
    exact ⟨hSigned, hFunded, rfl⟩

/-- The transfers succeed wherever nothing documented stands against them. No account is frozen. -/
structure Complete (R : Runtime) : Prop where
  tokenTransfer : ∀ {bank : Bank} {signers : List Pubkey} {source destination : Pubkey} {amount : Nat}
    {s d : TokenAccount}, bank.tokenAccount source = some s → bank.tokenAccount destination = some d →
    s.mint = d.mint → s.owner ∈ signers → amount ≤ bank.amount source →
    (source = destination ∨ bank.amount destination + amount < 2 ^ 64) →
    ∃ bank', R.tokenTransfer bank signers source destination s.owner amount = .ok bank'
  systemTransfer : ∀ {bank : Bank} {signers : List Pubkey} {source : Pubkey} (destination : Pubkey)
    {amount : Nat}, source ∈ signers → amount ≤ bank.lamports source →
    ∃ bank', R.systemTransfer bank signers source destination amount = .ok bank'

theorem reference_complete : reference.Complete := by
  constructor
  · intro bank signers source destination amount s d hSource hDestination hMint hSigned hFunded hFits
    refine ⟨bank.moveTokens source destination amount, ?_⟩
    simp only [reference, splTransfer, bind_eq_ok, load_eq_ok, require_eq_ok]
    exact ⟨s, hSource, d, hDestination, (), hFunded, (), hMint, (), rfl, (), hSigned, (), hFits, rfl⟩
  · intro bank signers source destination amount hSigned hFunded
    refine ⟨bank.moveLamports source destination amount, ?_⟩
    simp only [reference, lamportTransfer, bind_eq_ok, require_eq_ok]
    exact ⟨(), hSigned, (), hFunded, rfl⟩

end Runtime

structure World where
  poolConfig : Pubkey → Option PoolConfig
  poolState : Pubkey → Option PoolState
  userInfo : Pubkey → Option UserInfo
  platform : Pubkey → Option PlatformInfo
  mint : Pubkey → Option Mint
  bank : Bank
  events : List Event

/-- No account lives at the address, so `init` may create one. -/
def World.Vacant (w : World) (k : Pubkey) : Prop :=
  w.poolConfig k = none ∧ w.poolState k = none ∧ w.userInfo k = none ∧ w.platform k = none ∧
    w.mint k = none ∧ w.bank.tokenAccount k = none

instance (w : World) (k : Pubkey) : Decidable (w.Vacant k) :=
  inferInstanceAs (Decidable (_ ∧ _ ∧ _ ∧ _ ∧ _ ∧ _))

/-- The accounts are token accounts, as a field of type `Account<TokenAccount>` demands. -/
def Bank.AreTokenAccounts (bank : Bank) (keys : List Pubkey) : Prop :=
  ∀ k ∈ keys, (bank.tokenAccount k).isSome = true

instance (bank : Bank) (keys : List Pubkey) : Decidable (bank.AreTokenAccounts keys) :=
  inferInstanceAs (Decidable (∀ k ∈ keys, _))

structure SwapBaseIn where
  userSourceTokenAccount : Pubkey
  userDestinationTokenAccount : Pubkey
  userSourceOwner : Pubkey
  amountIn : Nat
  minimumAmountOut : Nat

/-- The slot, the signatures and the program passed as `amm_program`. That program is any
program: it may change the bank as it likes, or abort the transaction (`none`), but it cannot
write an account of the staking program. -/
structure Env where
  slot : Nat
  signers : List Pubkey
  ammProgram : SwapBaseIn → Bank → Option Bank

end StakingOnSolana
