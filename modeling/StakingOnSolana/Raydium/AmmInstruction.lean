import StakingOnSolana.Lib.Checked
import StakingOnSolana.Lib.Codec

/-! # The instructions of the Raydium programs

The instruction crate describes the calls of three programs: a tag byte, and after it the
arguments in little-endian order. What follows the arguments is not read.
-/
set_option autoImplicit false

namespace StakingOnSolana.Raydium

open Checked

inductive ProgramError where
  | invalidInstructionData
  | custom (code : Nat)
  deriving DecidableEq, Repr

def u8Bytes : Codec.Fixed UInt8 1 where
  Valid _ := True
  toBytes n := [n]
  ofBytes bytes := UInt8.ofNat (Codec.fromLeBytes bytes)
  length _ := rfl
  ofBytes_toBytes n _ := by
    rw [Codec.fromLeBytes, Codec.fromLeBytes, Nat.mul_zero, Nat.add_zero, UInt8.ofNat_toNat]
  toBytes_ofBytes bytes hLength := by
    obtain ⟨b, rfl⟩ := List.length_eq_one_iff.mp hLength
    rw [Codec.fromLeBytes, Codec.fromLeBytes, Nat.mul_zero, Nat.add_zero, UInt8.ofNat_toNat]
    exact ⟨trivial, rfl⟩

def u64Bytes : Codec.Fixed UInt64 8 where
  Valid _ := True
  toBytes n := Codec.toLeBytes 8 n.toNat
  ofBytes bytes := UInt64.ofNat (Codec.fromLeBytes bytes)
  length n := Codec.toLeBytes_length 8 n.toNat
  ofBytes_toBytes n _ := by
    rw [Codec.fromLeBytes_toLeBytes 8 n.toNat n.toNat_lt, UInt64.ofNat_toNat]
  toBytes_ofBytes bytes hLength := by
    have hFits := Codec.fromLeBytes_lt bytes
    rw [hLength] at hFits
    rw [UInt64.toNat_ofNat_of_lt' hFits, ← hLength, Codec.toLeBytes_fromLeBytes]
    exact ⟨trivial, rfl⟩

def toLeBytes (n : UInt64) : List UInt8 := u64Bytes.toBytes n

variable {e : ProgramError}

def unpackU8 (e : ProgramError) (input : List UInt8) : Except ProgramError (UInt8 × List UInt8) :=
  load (u8Bytes.codec.decode input) e

def unpackU64 (e : ProgramError) (input : List UInt8) : Except ProgramError (UInt64 × List UInt8) :=
  load (u64Bytes.codec.decode input) e

theorem unpackU8_eq_ok {input rest : List UInt8} {n : UInt8} :
    unpackU8 e input = .ok (n, rest) ↔ input = n :: rest := by
  rw [unpackU8, load_eq_ok, u8Bytes.codec.decode_eq_some_iff]
  exact and_iff_right trivial

theorem unpackU64_eq_ok {input rest : List UInt8} {n : UInt64} :
    unpackU64 e input = .ok (n, rest) ↔ input = toLeBytes n ++ rest := by
  rw [unpackU64, load_eq_ok, u64Bytes.codec.decode_eq_some_iff]
  exact and_iff_right trivial

theorem unpackU8_error {input : List UInt8} {e' : ProgramError}
    (h : unpackU8 e input = .error e') : e' = e := (load_eq_error.mp h).2.symm

theorem unpackU64_error {input : List UInt8} {e' : ProgramError}
    (h : unpackU64 e input = .error e') : e' = e := (load_eq_error.mp h).2.symm

structure InitializeInstruction where
  nonce : UInt8
  openTime : UInt64
  deriving DecidableEq, Repr

structure InitializeInstruction2 where
  nonce : UInt8
  openTime : UInt64
  initPcAmount : UInt64
  initCoinAmount : UInt64
  deriving DecidableEq, Repr

structure PreInitializeInstruction where
  nonce : UInt8
  deriving DecidableEq, Repr

structure DepositInstruction where
  maxCoinAmount : UInt64
  maxPcAmount : UInt64
  baseSide : UInt64
  deriving DecidableEq, Repr

structure WithdrawInstruction where
  amount : UInt64
  deriving DecidableEq, Repr

structure SwapInstructionBaseIn where
  amountIn : UInt64
  minimumAmountOut : UInt64
  deriving DecidableEq, Repr

structure SwapInstructionBaseOut where
  maxAmountIn : UInt64
  amountOut : UInt64
  deriving DecidableEq, Repr

inductive AmmInstruction where
  | initialize_ (args : InitializeInstruction)
  | initialize2 (args : InitializeInstruction2)
  | reserved0
  | deposit (args : DepositInstruction)
  | withdraw (args : WithdrawInstruction)
  | reserved1
  | reserved2
  | reserved3
  | reserved4
  | swapBaseIn (args : SwapInstructionBaseIn)
  | preInitialize (args : PreInitializeInstruction)
  | swapBaseOut (args : SwapInstructionBaseOut)
  | reserved5
  deriving DecidableEq, Repr

namespace AmmInstruction

def unpack (input : List UInt8) : Except ProgramError AmmInstruction :=
  match input with
  | [] => .error .invalidInstructionData
  | tag :: rest =>
    match tag with
    | 0 => do
      let (nonce, rest) ← unpackU8 .invalidInstructionData rest
      let (openTime, _) ← unpackU64 .invalidInstructionData rest
      pure (initialize_ { nonce, openTime })
    | 1 => do
      let (nonce, rest) ← unpackU8 .invalidInstructionData rest
      let (openTime, rest) ← unpackU64 .invalidInstructionData rest
      let (initPcAmount, rest) ← unpackU64 .invalidInstructionData rest
      let (initCoinAmount, _) ← unpackU64 .invalidInstructionData rest
      pure (initialize2 { nonce, openTime, initPcAmount, initCoinAmount })
    | 3 => do
      let (maxCoinAmount, rest) ← unpackU64 .invalidInstructionData rest
      let (maxPcAmount, rest) ← unpackU64 .invalidInstructionData rest
      let (baseSide, _) ← unpackU64 .invalidInstructionData rest
      pure (deposit { maxCoinAmount, maxPcAmount, baseSide })
    | 4 => do
      let (amount, _) ← unpackU64 .invalidInstructionData rest
      pure (withdraw { amount })
    | 9 => do
      let (amountIn, rest) ← unpackU64 .invalidInstructionData rest
      let (minimumAmountOut, _) ← unpackU64 .invalidInstructionData rest
      pure (swapBaseIn { amountIn, minimumAmountOut })
    | 10 => do
      let (nonce, _) ← unpackU8 .invalidInstructionData rest
      pure (preInitialize { nonce })
    | 11 => do
      let (maxAmountIn, rest) ← unpackU64 .invalidInstructionData rest
      let (amountOut, _) ← unpackU64 .invalidInstructionData rest
      pure (swapBaseOut { maxAmountIn, amountOut })
    | _ => .error .invalidInstructionData

/-- A reserved instruction packs to the empty buffer. -/
def pack : AmmInstruction → Except ProgramError (List UInt8)
  | initialize_ { nonce, openTime } => pure ([0, nonce] ++ toLeBytes openTime)
  | initialize2 { nonce, openTime, initPcAmount, initCoinAmount } =>
    pure ([1, nonce] ++ toLeBytes openTime ++ toLeBytes initPcAmount ++ toLeBytes initCoinAmount)
  | deposit { maxCoinAmount, maxPcAmount, baseSide } =>
    pure ([3] ++ toLeBytes maxCoinAmount ++ toLeBytes maxPcAmount ++ toLeBytes baseSide)
  | withdraw { amount } => pure ([4] ++ toLeBytes amount)
  | swapBaseIn { amountIn, minimumAmountOut } =>
    pure ([9] ++ toLeBytes amountIn ++ toLeBytes minimumAmountOut)
  | preInitialize { nonce } => pure [10, nonce]
  | swapBaseOut { maxAmountIn, amountOut } =>
    pure ([11] ++ toLeBytes maxAmountIn ++ toLeBytes amountOut)
  | reserved0 | reserved1 | reserved2 | reserved3 | reserved4 | reserved5 => pure []

theorem unpack_pack {i : AmmInstruction} {bytes : List UInt8} (h : i.pack = .ok bytes)
    (hSome : bytes ≠ []) (rest : List UInt8) : unpack (bytes ++ rest) = .ok i := by
  cases i <;> cases h <;> first
    | exact absurd rfl hSome
    | simp only [List.cons_append, List.nil_append, List.append_assoc, unpack, bind_eq_ok,
        unpackU8_eq_ok, unpackU64_eq_ok, pure_eq_ok, Prod.exists]
  · exact ⟨_, _, rfl, _, _, rfl, rfl⟩
  · exact ⟨_, _, rfl, _, _, rfl, _, _, rfl, _, _, rfl, rfl⟩
  · exact ⟨_, _, rfl, _, _, rfl, _, _, rfl, rfl⟩
  · exact ⟨_, _, rfl, rfl⟩
  · exact ⟨_, _, rfl, _, _, rfl, rfl⟩
  · exact ⟨_, _, rfl, rfl⟩
  · exact ⟨_, _, rfl, _, _, rfl, rfl⟩

theorem pack_of_unpack {i : AmmInstruction} {input : List UInt8} (h : unpack input = .ok i) :
    ∃ bytes rest, i.pack = .ok bytes ∧ bytes ≠ [] ∧ input = bytes ++ rest := by
  unfold unpack at h
  split at h
  · cases h
  · split at h
    case h_8 => cases h
    all_goals simp only [bind_eq_ok, unpackU8_eq_ok, unpackU64_eq_ok, pure_eq_ok, Prod.exists] at h
    · obtain ⟨nonce, _, rfl, openTime, rest, rfl, rfl⟩ := h
      exact ⟨_, rest, rfl, List.cons_ne_nil _ _, rfl⟩
    · obtain ⟨nonce, _, rfl, openTime, _, rfl, pc, _, rfl, coin, rest, rfl, rfl⟩ := h
      refine ⟨_, rest, rfl, List.cons_ne_nil _ _, ?_⟩
      simp only [List.cons_append, List.nil_append, List.append_assoc]
    · obtain ⟨coin, _, rfl, pc, _, rfl, base, rest, rfl, rfl⟩ := h
      refine ⟨_, rest, rfl, List.cons_ne_nil _ _, ?_⟩
      simp only [List.cons_append, List.nil_append, List.append_assoc]
    · obtain ⟨amount, rest, rfl, rfl⟩ := h
      exact ⟨_, rest, rfl, List.cons_ne_nil _ _, rfl⟩
    · obtain ⟨amountIn, _, rfl, minimum, rest, rfl, rfl⟩ := h
      refine ⟨_, rest, rfl, List.cons_ne_nil _ _, ?_⟩
      simp only [List.cons_append, List.nil_append, List.append_assoc]
    · obtain ⟨nonce, rest, rfl, rfl⟩ := h
      exact ⟨_, rest, rfl, List.cons_ne_nil _ _, rfl⟩
    · obtain ⟨maximum, _, rfl, amountOut, rest, rfl, rfl⟩ := h
      refine ⟨_, rest, rfl, List.cons_ne_nil _ _, ?_⟩
      simp only [List.cons_append, List.nil_append, List.append_assoc]

/-- The only error of a call that cannot be read. -/
theorem unpack_error {input : List UInt8} {e : ProgramError} (h : unpack input = .error e) :
    e = .invalidInstructionData := by
  have hByte : ∀ {input : List UInt8} {e : ProgramError},
      unpackU8 .invalidInstructionData input = .error e → e = .invalidInstructionData := unpackU8_error
  have hWord : ∀ {input : List UInt8} {e : ProgramError},
      unpackU64 .invalidInstructionData input = .error e → e = .invalidInstructionData := unpackU64_error
  unfold unpack at h
  split at h
  · cases h
    rfl
  · split at h
    case h_8 =>
      cases h
      rfl
    all_goals
      simp only [bind_eq_error, pure_ne_error, and_false, exists_false, or_false] at h
      grind

/-- The instructions read from the front of an input are those that are not reserved and pack to
what stands there; every other input is refused with one error. -/
theorem unpack_accepts_packed (input : List UInt8) :
    (∀ i, unpack input = .ok i ↔
      ∃ bytes rest, i.pack = .ok bytes ∧ bytes ≠ [] ∧ input = bytes ++ rest) ∧
    ((∃ i, unpack input = .ok i) ∨ unpack input = .error .invalidInstructionData) := by
  constructor
  · intro i
    constructor
    · exact pack_of_unpack
    · rintro ⟨bytes, rest, hPack, hSome, rfl⟩
      exact unpack_pack hPack hSome rest
  · cases h : unpack input with
    | ok i => exact Or.inl ⟨i, rfl⟩
    | error e => exact Or.inr (congrArg Except.error (unpack_error h))

end AmmInstruction

end StakingOnSolana.Raydium
