import StakingOnSolana.Raydium.AmmInstruction

/-! # The instructions of the route program

A swap over two pools takes two calls. The first of each pair brings the amounts, the second
takes what the first left behind and has no arguments.
-/
set_option autoImplicit false

namespace StakingOnSolana.Raydium

open Checked

/-- `RouteError::InvalidInstruction` as a program error: its position in the enumeration. -/
def invalidInstruction : ProgramError := .custom 6

structure RouteSwapBaseInArgs where
  amountIn : UInt64
  minimumAmountOut : UInt64
  deriving DecidableEq, Repr

inductive RouteInstruction where
  | routeSwapIn (args : RouteSwapBaseInArgs)
  | routeSwapMinOut
  | routeStableSwapIn (args : RouteSwapBaseInArgs)
  | routeStableSwapMinOut
  | routeSwapBaseInIn (args : RouteSwapBaseInArgs)
  | routeSwapBaseInMinOut
  deriving DecidableEq, Repr

namespace RouteInstruction

def unpackArgs (rest : List UInt8) : Except ProgramError RouteSwapBaseInArgs := do
  let (amountIn, rest) ← unpackU64 invalidInstruction rest
  let (minimumAmountOut, _) ← unpackU64 invalidInstruction rest
  pure { amountIn, minimumAmountOut }

def unpack (input : List UInt8) : Except ProgramError RouteInstruction :=
  match input with
  | [] => .error invalidInstruction
  | tag :: rest =>
    match tag with
    | 0 => return routeSwapIn (← unpackArgs rest)
    | 1 => pure routeSwapMinOut
    | 2 => return routeStableSwapIn (← unpackArgs rest)
    | 3 => pure routeStableSwapMinOut
    | 4 => return routeSwapBaseInIn (← unpackArgs rest)
    | 5 => pure routeSwapBaseInMinOut
    | _ => .error invalidInstruction

def packArgs (args : RouteSwapBaseInArgs) : List UInt8 :=
  toLeBytes args.amountIn ++ toLeBytes args.minimumAmountOut

def pack : RouteInstruction → Except ProgramError (List UInt8)
  | routeSwapIn args => pure (0 :: packArgs args)
  | routeSwapMinOut => pure [1]
  | routeStableSwapIn args => pure (2 :: packArgs args)
  | routeStableSwapMinOut => pure [3]
  | routeSwapBaseInIn args => pure (4 :: packArgs args)
  | routeSwapBaseInMinOut => pure [5]

theorem unpackArgs_eq_ok {input : List UInt8} {args : RouteSwapBaseInArgs} :
    unpackArgs input = .ok args ↔ ∃ rest, input = packArgs args ++ rest := by
  simp only [unpackArgs, bind_eq_ok, unpackU64_eq_ok, pure_eq_ok, Prod.exists, packArgs,
    List.append_assoc]
  constructor
  · rintro ⟨amountIn, _, rfl, minimum, rest, rfl, rfl⟩
    exact ⟨rest, rfl⟩
  · rintro ⟨rest, rfl⟩
    exact ⟨_, _, rfl, _, rest, rfl, rfl⟩

theorem unpackArgs_error {input : List UInt8} {e : ProgramError} (h : unpackArgs input = .error e) :
    e = invalidInstruction := by
  simp only [unpackArgs, bind_eq_error, pure_ne_error, and_false, exists_false, or_false] at h
  rcases h with hFirst | ⟨_, -, hSecond⟩
  · exact unpackU64_error hFirst
  · exact unpackU64_error hSecond

theorem unpack_pack {i : RouteInstruction} {bytes : List UInt8} (h : i.pack = .ok bytes)
    (rest : List UInt8) : unpack (bytes ++ rest) = .ok i := by
  cases i <;> cases h
  case routeSwapMinOut | routeStableSwapMinOut | routeSwapBaseInMinOut => rfl
  all_goals
    simp only [List.cons_append, unpack, bind_eq_ok, pure_eq_ok, unpackArgs_eq_ok]
    exact ⟨_, ⟨rest, rfl⟩, rfl⟩

theorem pack_of_unpack {i : RouteInstruction} {input : List UInt8} (h : unpack input = .ok i) :
    ∃ bytes rest, i.pack = .ok bytes ∧ input = bytes ++ rest := by
  unfold unpack at h
  split at h
  · cases h
  · split at h
    case h_7 => cases h
    case h_2 | h_4 | h_6 =>
      cases h
      exact ⟨_, _, rfl, rfl⟩
    all_goals
      simp only [bind_eq_ok, pure_eq_ok, unpackArgs_eq_ok] at h
      obtain ⟨args, ⟨rest, rfl⟩, rfl⟩ := h
      exact ⟨_, rest, rfl, rfl⟩

theorem unpack_error {input : List UInt8} {e : ProgramError} (h : unpack input = .error e) :
    e = invalidInstruction := by
  unfold unpack at h
  split at h
  · cases h
    rfl
  · split at h
    case h_7 =>
      cases h
      rfl
    case h_2 | h_4 | h_6 => cases h
    all_goals
      simp only [bind_eq_error, pure_ne_error, and_false, exists_false, or_false] at h
      exact unpackArgs_error h

/-- The calls read from the front of an input are those that pack to what stands there; every
other input is refused with `InvalidInstruction`. -/
theorem unpack_accepts_packed_route (input : List UInt8) :
    (∀ i, unpack input = .ok i ↔ ∃ bytes rest, i.pack = .ok bytes ∧ input = bytes ++ rest) ∧
    ((∃ i, unpack input = .ok i) ∨ unpack input = .error invalidInstruction) := by
  constructor
  · intro i
    constructor
    · exact pack_of_unpack
    · rintro ⟨bytes, rest, hPack, rfl⟩
      exact unpack_pack hPack rest
  · cases h : unpack input with
    | ok i => exact Or.inl ⟨i, rfl⟩
    | error e => exact Or.inr (congrArg Except.error (unpack_error h))

end RouteInstruction

end StakingOnSolana.Raydium
