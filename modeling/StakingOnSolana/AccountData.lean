import StakingOnSolana.Lib.Codec
import StakingOnSolana.Lifecycle
import StakingOnSolana.Widths

/-! # The accounts as bytes

On the ledger an account is a string of bytes: eight that tell its type, and the fields in their
order with little-endian numbers. The handlers work on typed accounts. In every reachable world the
bytes are as many as the size that the account was created with, and reading them gives back the
typed account, of its own type and of no other.
-/
set_option autoImplicit false

namespace StakingOnSolana

variable {R : Runtime} {w g : World} {k : Pubkey}

namespace AccountKind

def Data : AccountKind → Type
  | platform => PlatformInfo
  | poolConfig => PoolConfig
  | poolState => PoolState
  | userInfo => UserInfo

def size : AccountKind → Nat
  | platform => platformInfoSize
  | poolConfig => poolConfigSize
  | poolState => poolStateSize
  | userInfo => userInfoSize

end AccountKind

def u8 : Codec Nat := .nat 1
def u16 : Codec Nat := .nat 2
def u64 : Codec Nat := .nat 8

def PlatformInfo.fields : ℕ × ℕ × Pubkey ≃ PlatformInfo where
  toFun := fun (deployFee, performanceFee, treasury) => { deployFee, performanceFee, treasury }
  invFun info := (info.deployFee, info.performanceFee, info.treasury)
  left_inv _ := rfl
  right_inv _ := rfl

def PoolConfig.fields : Pubkey × ℕ × ℕ × ℕ × ℕ × ℕ × ℕ × Pubkey × Pubkey × ℕ × ℕ × Pubkey × Pubkey ×
    Pubkey ≃ PoolConfig where
  toFun := fun (owner, duration, startSlot, endSlot, rewardPerSlot, stakeFee, unstakeFee, stakeMint,
    rewardMint, stakeMintDecimals, rewardMintDecimals, poolStakeTokenVault, poolRewardTokenVault,
    stateAddr) =>
    { owner, duration, startSlot, endSlot, rewardPerSlot, stakeFee, unstakeFee, stakeMint, rewardMint,
      stakeMintDecimals, rewardMintDecimals, poolStakeTokenVault, poolRewardTokenVault, stateAddr }
  invFun c := (c.owner, c.duration, c.startSlot, c.endSlot, c.rewardPerSlot, c.stakeFee, c.unstakeFee,
    c.stakeMint, c.rewardMint, c.stakeMintDecimals, c.rewardMintDecimals, c.poolStakeTokenVault,
    c.poolRewardTokenVault, c.stateAddr)
  left_inv _ := rfl
  right_inv _ := rfl

def PoolState.fields : ℕ × ℕ × ℕ × ℕ × ℕ × ℕ × ℕ ≃ PoolState where
  toFun := fun (totalStaked, lastRewardSlot, accTokenPerShare, rewardAmount, shouldTotalPaid,
    paidRewards, totalEarned) =>
    { totalStaked, lastRewardSlot, accTokenPerShare, rewardAmount, shouldTotalPaid, paidRewards,
      totalEarned }
  invFun s := (s.totalStaked, s.lastRewardSlot, s.accTokenPerShare, s.rewardAmount, s.shouldTotalPaid,
    s.paidRewards, s.totalEarned)
  left_inv _ := rfl
  right_inv _ := rfl

def UserInfo.fields : ℕ × ℕ × ℕ ≃ UserInfo where
  toFun := fun (stakedAmount, rewardDebt, depositSlot) => { stakedAmount, rewardDebt, depositSlot }
  invFun info := (info.stakedAmount, info.rewardDebt, info.depositSlot)
  left_inv _ := rfl
  right_inv _ := rfl

/-- What the account types leave to the framework: the 32 bytes of a key, and the eight bytes before
the fields, which tell the types apart. -/
structure Format where
  key : Codec Pubkey
  key_size : key.HasSize 32
  discriminator : AccountKind → List UInt8
  discriminator_length : ∀ kind, (discriminator kind).length = 8
  discriminator_inj : ∀ kind kind', discriminator kind = discriminator kind' → kind = kind'

namespace Format

variable (F : Format)

def fields : (kind : AccountKind) → Codec kind.Data
  | .platform => (u64.pair (u64.pair F.key)).iso PlatformInfo.fields
  | .poolConfig => (F.key.pair (u16.pair (u64.pair (u64.pair (u64.pair (u16.pair (u16.pair (F.key.pair
      (F.key.pair (u8.pair (u8.pair (F.key.pair (F.key.pair F.key))))))))))))).iso PoolConfig.fields
  | .poolState => (u64.pair (u64.pair (u64.pair (u64.pair (u64.pair (u64.pair u64)))))).iso
      PoolState.fields
  | .userInfo => (u64.pair (u64.pair u64)).iso UserInfo.fields

def account (kind : AccountKind) : Codec kind.Data := (F.fields kind).tagged (F.discriminator kind)

theorem account_size (kind : AccountKind) : (F.account kind).HasSize kind.size := by
  have h8 : u8.HasSize 1 := Codec.Fixed.hasSize _
  have h16 : u16.HasSize 2 := Codec.Fixed.hasSize _
  have h64 : u64.HasSize 8 := Codec.Fixed.hasSize _
  have hKey := F.key_size
  have hFields : (F.fields kind).HasSize (kind.size - 8) := by
    cases kind with
    | platform => exact (h64.pair (h64.pair hKey)).iso _
    | poolConfig =>
      exact (hKey.pair (h16.pair (h64.pair (h64.pair (h64.pair (h16.pair (h16.pair (hKey.pair
        (hKey.pair (h8.pair (h8.pair (hKey.pair (hKey.pair hKey))))))))))))).iso _
    | poolState => exact (h64.pair (h64.pair (h64.pair (h64.pair (h64.pair (h64.pair h64)))))).iso _
    | userInfo => exact (h64.pair (h64.pair h64)).iso _
  have hTagged := hFields.tagged (F.discriminator kind)
  rw [F.discriminator_length] at hTagged
  have hSize : 8 + (kind.size - 8) = kind.size := by cases kind <;> rfl
  rwa [hSize] at hTagged

def read (kind : AccountKind) (data : List UInt8) : Option kind.Data :=
  ((F.account kind).decode data).map Prod.fst

theorem read_encode {kind : AccountKind} {x : kind.Data} (h : (F.account kind).Valid x) :
    F.read kind ((F.account kind).encode x) = some x := by
  have hDecode := (F.account kind).decode_encode h []
  rw [List.append_nil] at hDecode
  rw [read, hDecode]
  rfl

theorem read_encode_of_ne {kind kind' : AccountKind} {x : kind.Data} (h : (F.account kind).Valid x)
    (hNe : kind ≠ kind') : F.read kind' ((F.account kind).encode x) = none := by
  have hDecode := (F.account kind).decode_encode h []
  rw [List.append_nil] at hDecode
  have hLength := (F.discriminator_length kind).trans (F.discriminator_length kind').symm
  rw [read, account, Codec.tagged_disjoint _ _ hLength (fun hSame => hNe (F.discriminator_inj _ _ hSame))
    hDecode]
  rfl

end Format

def World.account (w : World) (k : Pubkey) : (kind : AccountKind) → Option kind.Data
  | .platform => w.platform k
  | .poolConfig => w.poolConfig k
  | .poolState => w.poolState k
  | .userInfo => w.userInfo k

/-- The bytes of the account at the address. -/
def World.data (F : Format) (w : World) (k : Pubkey) : Option (List UInt8) :=
  [AccountKind.platform, .poolConfig, .poolState, .userInfo].findSome? fun kind =>
    (w.account k kind).map (F.account kind).encode

theorem World.has_iff (kind : AccountKind) : w.Has k kind ↔ ∃ x, w.account k kind = some x := by
  cases kind <;> exact Option.isSome_iff_exists

variable {F : Format}

theorem World.WellFormed.data_eq (h : w.WellFormed) {kind : AccountKind} {x : kind.Data}
    (hx : w.account k kind = some x) : w.data F k = some ((F.account kind).encode x) := by
  have hOther : ∀ kind', kind' ≠ kind → w.account k kind' = none := by
    intro kind' hNe
    cases hy : w.account k kind' with
    | none => rfl
    | some y =>
      exact absurd (h.oneKind k kind' kind ((w.has_iff kind').mpr ⟨y, hy⟩)
        ((w.has_iff kind).mpr ⟨x, hx⟩)) hNe
  cases kind <;> simp [World.data, hx, hOther]

theorem World.data_eq_some {data : List UInt8} (h : w.data F k = some data) :
    ∃ kind x, w.account k kind = some x ∧ data = (F.account kind).encode x := by
  obtain ⟨kind, -, hKind⟩ := List.exists_of_findSome?_eq_some h
  obtain ⟨x, hx, rfl⟩ := Option.map_eq_some_iff.mp hKind
  exact ⟨kind, x, hx, rfl⟩

theorem u64_valid {n : Nat} (h : n < 2 ^ 64) : u64.Valid n := h
theorem u16_valid {n : Nat} (h : n < 2 ^ 16) : u16.Valid n := h
theorem u8_valid {n : Nat} (h : n < 2 ^ 8) : u8.Valid n := h

theorem World.FieldsFit.valid (h : w.FieldsFit F.key.Valid) {kind : AccountKind} {x : kind.Data}
    (hx : w.account k kind = some x) : (F.account kind).Valid x := by
  cases kind with
  | platform =>
    have hFits := h.platform k x hx
    exact ⟨u64_valid hFits.deployFee, u64_valid hFits.performanceFee, hFits.treasury⟩
  | poolConfig =>
    have hFits := h.poolConfig k x hx
    exact ⟨hFits.owner, u16_valid hFits.duration, u64_valid hFits.startSlot, u64_valid hFits.endSlot,
      u64_valid hFits.rewardPerSlot, u16_valid hFits.stakeFee, u16_valid hFits.unstakeFee,
      hFits.stakeMint, hFits.rewardMint, u8_valid hFits.stakeMintDecimals,
      u8_valid hFits.rewardMintDecimals, hFits.poolStakeTokenVault, hFits.poolRewardTokenVault,
      hFits.stateAddr⟩
  | poolState =>
    have hFits := h.poolState k x hx
    exact ⟨u64_valid hFits.totalStaked, u64_valid hFits.lastRewardSlot, u64_valid hFits.accTokenPerShare,
      u64_valid hFits.rewardAmount, u64_valid hFits.shouldTotalPaid, u64_valid hFits.paidRewards,
      u64_valid hFits.totalEarned⟩
  | userInfo =>
    have hFits := h.userInfo k x hx
    exact ⟨u64_valid hFits.stakedAmount, u64_valid hFits.rewardDebt, u64_valid hFits.depositSlot⟩

/-- The typed accounts are what is read from the bytes, and the bytes fill the space created. -/
def World.Stored (F : Format) (w : World) : Prop :=
  ∀ k, (∀ kind, (w.data F k).bind (F.read kind) = w.account k kind) ∧
    ∀ kind data, w.Has k kind → w.data F k = some data → data.length = kind.size

theorem World.WellFormed.stored (h : w.WellFormed) (hFit : w.FieldsFit F.key.Valid) : w.Stored F := by
  intro k
  constructor
  · intro kind
    cases hData : w.data F k with
    | none =>
      cases hx : w.account k kind with
      | none => rfl
      | some x => cases hData.symm.trans (h.data_eq hx)
    | some data =>
      obtain ⟨kind', x, hx, rfl⟩ := World.data_eq_some hData
      by_cases hSame : kind' = kind
      · subst hSame
        rw [hx]
        exact F.read_encode (hFit.valid hx)
      · rw [Option.bind_some, F.read_encode_of_ne (hFit.valid hx) hSame]
        cases hy : w.account k kind with
        | none => rfl
        | some y =>
          exact absurd (h.oneKind k kind' kind (w.has_iff kind' |>.mpr ⟨x, hx⟩)
            (w.has_iff kind |>.mpr ⟨y, hy⟩)) hSame
  · intro kind data hHas hData
    obtain ⟨x, hx⟩ := (w.has_iff kind).mp hHas
    rw [h.data_eq hx, Option.some.injEq] at hData
    rw [← hData]
    exact F.account_size kind x

/-- Over every run of calls whose arguments are of their types, with any accounts, the typed world is
what the bytes on the ledger say. -/
theorem run_stored {actions : List Action} (hGenesis : g.Genesis) (hMints : g.MintsFit)
    (hTyped : ∀ x ∈ actions, x.Typed F.key.Valid) : (Run.run (next R) g actions).Stored F := by
  have hRun := Run.run_invariant (I := fun w : World => w.WellFormed ∧ w.FieldsFit F.key.Valid ∧ w.MintsFit)
    (fun w x hAll hx => ⟨?_, next_fieldsFit (R := R) hAll.2 hx⟩)
    ⟨.of_genesis hGenesis, .of_genesis hGenesis, hMints⟩ (Run.along_of_forall fun x hx _ => hTyped x hx)
  · exact hRun.1.stored hRun.2.1
  · exact next_of_exec (I := World.WellFormed) hAll.1 hAll.1.outside hAll.1.exec x

namespace Localnet

/-- The 32 bytes of an address are its number; other keys are not written into these accounts. -/
def keyFormat : Codec.Fixed Pubkey 32 where
  Valid k := ∃ n < 256 ^ 32, k = .address n
  toBytes
    | .address n => Codec.toLeBytes 32 n
    | .platformPda _ | .userInfoPda .. => Codec.toLeBytes 32 0
  ofBytes bytes := .address (Codec.fromLeBytes bytes)
  length k := by cases k <;> exact Codec.toLeBytes_length 32 _
  ofBytes_toBytes := by
    rintro k ⟨n, hn, rfl⟩
    exact congrArg Pubkey.address (Codec.fromLeBytes_toLeBytes 32 n hn)
  toBytes_ofBytes bytes hLength := by
    refine ⟨⟨_, hLength ▸ Codec.fromLeBytes_lt bytes, rfl⟩, ?_⟩
    exact hLength ▸ Codec.toLeBytes_fromLeBytes bytes

/-- The discriminators are the hashes of the account types' names, cut to eight bytes. -/
def format : Format where
  key := keyFormat.codec
  key_size := keyFormat.hasSize
  discriminator
    | .platform => [93, 162, 193, 73, 92, 231, 117, 59]
    | .poolConfig => [26, 108, 14, 123, 116, 230, 129, 43]
    | .poolState => [247, 237, 227, 245, 215, 195, 222, 70]
    | .userInfo => [83, 134, 200, 56, 144, 56, 10, 62]
  discriminator_length kind := by cases kind <;> rfl
  discriminator_inj kind kind' := by cases kind <;> cases kind' <;> decide

end Localnet

open Localnet in
theorem run_stored_firstReward : (run (genesis coin 9) firstReward).Stored format :=
  run_stored (genesis_genesis coin 9) (genesis_mintsFit coin (by decide)) firstReward_typed

end StakingOnSolana
