import StakingOnSolana.Raydium.AmmInstruction

/-! # The instructions of the stable program

Its calls are those of the AMM program under the same tags, without the second way to
initialize. Unlike there, a reserved instruction cannot be packed.
-/
set_option autoImplicit false

namespace StakingOnSolana.Raydium

open Checked

inductive StableInstruction where
  | initialize_ (args : InitializeInstruction)
  | reserved
  | reserved1
  | deposit (args : DepositInstruction)
  | withdraw (args : WithdrawInstruction)
  | reserved2
  | reserved3
  | reserved4
  | reserved5
  | swapBaseIn (args : SwapInstructionBaseIn)
  | preInitialize (args : PreInitializeInstruction)
  | swapBaseOut (args : SwapInstructionBaseOut)
  | reserved6
  deriving DecidableEq, Repr

namespace StableInstruction

def unpack (input : List UInt8) : Except ProgramError StableInstruction :=
  match input with
  | [] => .error .invalidInstructionData
  | tag :: rest =>
    match tag with
    | 0 => do
      let (nonce, rest) ← unpackU8 .invalidInstructionData rest
      let (openTime, _) ← unpackU64 .invalidInstructionData rest
      pure (initialize_ { nonce, openTime })
    | 3 => do
      let (maxCoinAmount, rest) ← unpackU64 .invalidInstructionData rest
      let (maxPcAmount, rest) ← unpackU64 .invalidInstructionData rest
      let (baseSide, _) ← unpackU64 .invalidInstructionData rest
      pure (deposit { maxCoinAmount, maxPcAmount, baseSide })
    | 4 => do
      let (amount, _) ← unpackU64 .invalidInstructionData rest
      pure (withdraw { amount })
    | 9 => do
      let (amountIn, rest) ← unpackU64 .invalidInstructionData rest
      let (minimumAmountOut, _) ← unpackU64 .invalidInstructionData rest
      pure (swapBaseIn { amountIn, minimumAmountOut })
    | 10 => do
      let (nonce, _) ← unpackU8 .invalidInstructionData rest
      pure (preInitialize { nonce })
    | 11 => do
      let (maxAmountIn, rest) ← unpackU64 .invalidInstructionData rest
      let (amountOut, _) ← unpackU64 .invalidInstructionData rest
      pure (swapBaseOut { maxAmountIn, amountOut })
    | _ => .error .invalidInstructionData

def pack : StableInstruction → Except ProgramError (List UInt8)
  | initialize_ { nonce, openTime } => pure ([0, nonce] ++ toLeBytes openTime)
  | deposit { maxCoinAmount, maxPcAmount, baseSide } =>
    pure ([3] ++ toLeBytes maxCoinAmount ++ toLeBytes maxPcAmount ++ toLeBytes baseSide)
  | withdraw { amount } => pure ([4] ++ toLeBytes amount)
  | swapBaseIn { amountIn, minimumAmountOut } =>
    pure ([9] ++ toLeBytes amountIn ++ toLeBytes minimumAmountOut)
  | preInitialize { nonce } => pure [10, nonce]
  | swapBaseOut { maxAmountIn, amountOut } =>
    pure ([11] ++ toLeBytes maxAmountIn ++ toLeBytes amountOut)
  | reserved | reserved1 | reserved2 | reserved3 | reserved4 | reserved5 | reserved6 =>
    .error .invalidInstructionData

/-- What the same call is for the AMM program. -/
def ofAmm : AmmInstruction → Except ProgramError StableInstruction
  | .initialize_ args => pure (initialize_ args)
  | .deposit args => pure (deposit args)
  | .withdraw args => pure (withdraw args)
  | .swapBaseIn args => pure (swapBaseIn args)
  | .preInitialize args => pure (preInitialize args)
  | .swapBaseOut args => pure (swapBaseOut args)
  | .initialize2 _ | .reserved0 | .reserved1 | .reserved2 | .reserved3 | .reserved4 | .reserved5 =>
    .error .invalidInstructionData

theorem pack_ofAmm {i : AmmInstruction} {j : StableInstruction} (h : ofAmm i = .ok j) :
    j.pack = i.pack := by
  cases i <;> cases h <;> rfl

theorem ofAmm_of_pack {j : StableInstruction} {bytes : List UInt8} (h : j.pack = .ok bytes) :
    ∃ i, ofAmm i = .ok j ∧ i.pack = .ok bytes ∧ bytes ≠ [] := by
  cases j with
  | initialize_ args => exact ⟨.initialize_ args, rfl, h, by cases h; exact List.cons_ne_nil _ _⟩
  | deposit args => exact ⟨.deposit args, rfl, h, by cases h; exact List.cons_ne_nil _ _⟩
  | withdraw args => exact ⟨.withdraw args, rfl, h, by cases h; exact List.cons_ne_nil _ _⟩
  | swapBaseIn args => exact ⟨.swapBaseIn args, rfl, h, by cases h; exact List.cons_ne_nil _ _⟩
  | preInitialize args => exact ⟨.preInitialize args, rfl, h, by cases h; exact List.cons_ne_nil _ _⟩
  | swapBaseOut args => exact ⟨.swapBaseOut args, rfl, h, by cases h; exact List.cons_ne_nil _ _⟩
  | _ => cases h

theorem ofAmm_initialize2 (rest : List UInt8) :
    AmmInstruction.unpack (1 :: rest) >>= ofAmm = .error .invalidInstructionData := by
  cases h : AmmInstruction.unpack (1 :: rest) with
  | error e => exact congrArg Except.error (AmmInstruction.unpack_error h)
  | ok i =>
    simp only [AmmInstruction.unpack, bind_eq_ok, pure_eq_ok, Prod.exists] at h
    obtain ⟨_, _, -, _, _, -, _, _, -, _, _, -, rfl⟩ := h
    rfl

theorem unpack_eq_ofAmm (input : List UInt8) :
    unpack input = AmmInstruction.unpack input >>= ofAmm := by
  cases input with
  | nil => rfl
  | cons tag rest =>
    by_cases hTag : tag = 1
    · subst hTag
      exact (ofAmm_initialize2 rest).symm
    · simp only [unpack, AmmInstruction.unpack]
      split
      case h_7 =>
        split
        case h_2 => exact absurd rfl hTag
        all_goals first | contradiction | rfl
      all_goals
        simp only [bind_assoc, pure_bind]
        rfl

theorem unpack_eq_ok_iff (input : List UInt8) (j : StableInstruction) :
    unpack input = .ok j ↔ ∃ bytes rest, j.pack = .ok bytes ∧ input = bytes ++ rest := by
  rw [unpack_eq_ofAmm, bind_eq_ok]
  constructor
  · rintro ⟨i, hRead, hSame⟩
    obtain ⟨bytes, rest, hPack, -, hInput⟩ := AmmInstruction.pack_of_unpack hRead
    exact ⟨bytes, rest, (pack_ofAmm hSame).trans hPack, hInput⟩
  · rintro ⟨bytes, rest, hPack, rfl⟩
    obtain ⟨i, hSame, hPacked, hSome⟩ := ofAmm_of_pack hPack
    exact ⟨i, AmmInstruction.unpack_pack hPacked hSome rest, hSame⟩

/-- The stable program reads every input as the AMM program does, less the instructions that it
does not have, and the two write the instructions that they share in the same way. -/
theorem unpack_agrees_with_amm :
    (∀ input, unpack input = AmmInstruction.unpack input >>= ofAmm) ∧
    (∀ j bytes, j.pack = .ok bytes ↔ ∃ i, ofAmm i = .ok j ∧ i.pack = .ok bytes) ∧
    ∀ input j, unpack input = .ok j ↔ ∃ bytes rest, j.pack = .ok bytes ∧ input = bytes ++ rest := by
  refine ⟨unpack_eq_ofAmm, fun j bytes => ⟨fun hPack => ?_, ?_⟩, unpack_eq_ok_iff⟩
  · obtain ⟨i, hSame, hPacked, -⟩ := ofAmm_of_pack hPack
    exact ⟨i, hSame, hPacked⟩
  · rintro ⟨i, hSame, hPacked⟩
    exact (pack_ofAmm hSame).trans hPacked

end StableInstruction

end StakingOnSolana.Raydium
