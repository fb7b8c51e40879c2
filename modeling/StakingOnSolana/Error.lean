import StakingOnSolana.Lib.Checked

/-! # Errors, and the checked operations of the program -/
set_option autoImplicit false

namespace StakingOnSolana

open Checked

inductive BrewStakingError where
  | invalidStakeFee
  | invalidUnstakeFee
  | poolNotStarted
  | poolAlreadyStarted
  | insufficientReward
  | unstakeAmountTooSmall
  | unstakeAmountTooHigh
  | insufficientDeployFee
  deriving DecidableEq, Repr

inductive CpiError where
  | uninitializedAccount
  | insufficientFunds
  | mintMismatch
  | ownerMismatch
  | missingRequiredSignature
  | overflow
  | other (code : Nat)
  deriving DecidableEq, Repr

/-- How an instruction aborts. `arithmetic` is the panic of a build with overflow checks. -/
inductive Error where
  | brew (e : BrewStakingError)
  | arithmetic
  | accountNotInitialized
  | accountAlreadyInUse
  | accountNotSigner
  | constraintHasOne
  | constraintSeeds
  | constraintTokenOwner
  | cpi (e : CpiError)
  deriving DecidableEq, Repr

def addU64 (a b : Nat) : Except Error Nat := Checked.add 64 .arithmetic a b
def subU64 (a b : Nat) : Except Error Nat := Checked.sub .arithmetic a b
def mulU64 (a b : Nat) : Except Error Nat := Checked.mul 64 .arithmetic a b
def powU64 (a b : Nat) : Except Error Nat := Checked.pow 64 .arithmetic a b

def cpi {α : Type} : Except CpiError α → Except Error α
  | .ok a => .ok a
  | .error e => .error (.cpi e)

variable {a b c : Nat} {e : Error}

theorem addU64_eq_ok : addU64 a b = .ok c ↔ a + b < 2 ^ 64 ∧ a + b = c := add_eq_ok
theorem subU64_eq_ok : subU64 a b = .ok c ↔ b ≤ a ∧ a - b = c := sub_eq_ok
theorem mulU64_eq_ok : mulU64 a b = .ok c ↔ a * b < 2 ^ 64 ∧ a * b = c := mul_eq_ok
theorem powU64_eq_ok : powU64 a b = .ok c ↔ a ^ b < 2 ^ 64 ∧ a ^ b = c := pow_eq_ok

theorem addU64_eq_error : addU64 a b = .error e ↔ 2 ^ 64 ≤ a + b ∧ .arithmetic = e := add_eq_error
theorem subU64_eq_error : subU64 a b = .error e ↔ a < b ∧ .arithmetic = e := sub_eq_error
theorem mulU64_eq_error : mulU64 a b = .error e ↔ 2 ^ 64 ≤ a * b ∧ .arithmetic = e := mul_eq_error
theorem powU64_eq_error : powU64 a b = .error e ↔ 2 ^ 64 ≤ a ^ b ∧ .arithmetic = e := pow_eq_error

theorem cpi_eq_ok {α : Type} {x : Except CpiError α} {y : α} : cpi x = .ok y ↔ x = .ok y := by
  cases x <;> simp [cpi]

theorem cpi_eq_error {α : Type} {x : Except CpiError α} :
    cpi x = .error e ↔ ∃ e', x = .error e' ∧ .cpi e' = e := by
  cases x <;> simp [cpi]

end StakingOnSolana
