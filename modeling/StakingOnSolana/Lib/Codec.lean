import Mathlib.Algebra.Group.Nat.Defs
import Mathlib.Data.List.Basic
import Mathlib.Logic.Equiv.Defs

/-! # Byte formats that are read off the front of an input

A codec writes a value as bytes and reads it back from any input that starts with them. The
law says that reading accepts exactly what writing produces. It gives the round trip in both
directions, and that no encoding is a proper prefix of another.
-/
set_option autoImplicit false

structure Codec (α : Type) where
  Valid : α → Prop
  encode : α → List UInt8
  decode : List UInt8 → Option (α × List UInt8)
  decode_eq_some_iff : ∀ {input : List UInt8} {x : α} {rest : List UInt8},
    decode input = some (x, rest) ↔ Valid x ∧ input = encode x ++ rest

namespace Codec

variable {α β : Type} (c : Codec α)

theorem decode_encode {x : α} (hValid : c.Valid x) (rest : List UInt8) :
    c.decode (c.encode x ++ rest) = some (x, rest) :=
  c.decode_eq_some_iff.mpr ⟨hValid, rfl⟩

def toLeBytes : Nat → Nat → List UInt8
  | 0, _ => []
  | width + 1, n => UInt8.ofNat n :: toLeBytes width (n / 256)

def fromLeBytes : List UInt8 → Nat
  | [] => 0
  | b :: rest => b.toNat + 256 * fromLeBytes rest

@[simp] theorem toLeBytes_length (width n : Nat) : (toLeBytes width n).length = width := by
  induction width generalizing n with
  | zero => rfl
  | succ width ih => exact congrArg Nat.succ (ih (n / 256))

theorem fromLeBytes_toLeBytes (width n : Nat) (h : n < 256 ^ width) :
    fromLeBytes (toLeBytes width n) = n := by
  induction width generalizing n with
  | zero => exact (Nat.lt_one_iff.mp h).symm
  | succ width ih =>
    have hRest : n / 256 < 256 ^ width := by
      rw [Nat.div_lt_iff_lt_mul (by decide)]
      exact h
    rw [toLeBytes, fromLeBytes, ih _ hRest, UInt8.toNat_ofNat']
    exact Nat.mod_add_div n 256

theorem toLeBytes_fromLeBytes (bytes : List UInt8) :
    toLeBytes bytes.length (fromLeBytes bytes) = bytes := by
  induction bytes with
  | nil => rfl
  | cons b rest ih =>
    have hByte : b.toNat < 256 := b.toNat_lt
    have hDiv : (b.toNat + 256 * fromLeBytes rest) / 256 = fromLeBytes rest := by omega
    have hMod : UInt8.ofNat (b.toNat + 256 * fromLeBytes rest) = b := by
      apply UInt8.toNat_inj.mp
      rw [UInt8.toNat_ofNat']
      omega
    rw [List.length_cons, fromLeBytes, toLeBytes, hDiv, hMod, ih]

theorem fromLeBytes_lt (bytes : List UInt8) : fromLeBytes bytes < 256 ^ bytes.length := by
  induction bytes with
  | nil => exact Nat.one_pos
  | cons b rest ih =>
    have hByte : b.toNat < 256 := b.toNat_lt
    rw [List.length_cons, Nat.pow_succ, fromLeBytes]
    omega

/-- A type whose values are the lists of `width` bytes. -/
structure Fixed (α : Type) (width : Nat) where
  Valid : α → Prop
  toBytes : α → List UInt8
  ofBytes : List UInt8 → α
  length : ∀ x, (toBytes x).length = width
  ofBytes_toBytes : ∀ x, Valid x → ofBytes (toBytes x) = x
  toBytes_ofBytes : ∀ bytes, bytes.length = width →
    Valid (ofBytes bytes) ∧ toBytes (ofBytes bytes) = bytes

def Fixed.codec {width : Nat} (f : Fixed α width) : Codec α where
  Valid := f.Valid
  encode := f.toBytes
  decode input :=
    if width ≤ input.length then some (f.ofBytes (input.take width), input.drop width) else none
  decode_eq_some_iff {input x rest} := by
    constructor
    · intro h
      split at h
      · rename_i hLong
        have hTake : (input.take width).length = width := by
          rw [List.length_take]
          omega
        obtain ⟨hValid, hBytes⟩ := f.toBytes_ofBytes _ hTake
        cases h
        rw [hBytes, List.take_append_drop]
        exact ⟨hValid, rfl⟩
      · cases h
    · rintro ⟨hValid, rfl⟩
      have hLength := f.length x
      have hLong : width ≤ (f.toBytes x ++ rest).length := by
        rw [List.length_append]
        omega
      rw [if_pos hLong, List.take_left' hLength, List.drop_left' hLength, f.ofBytes_toBytes x hValid]

def natBytes (width : Nat) : Fixed Nat width where
  Valid n := n < 256 ^ width
  toBytes := toLeBytes width
  ofBytes := fromLeBytes
  length := toLeBytes_length width
  ofBytes_toBytes := fromLeBytes_toLeBytes width
  toBytes_ofBytes bytes hLength := by
    subst hLength
    exact ⟨fromLeBytes_lt bytes, toLeBytes_fromLeBytes bytes⟩

def nat (width : Nat) : Codec Nat := (natBytes width).codec

def pair (d : Codec β) : Codec (α × β) where
  Valid x := c.Valid x.1 ∧ d.Valid x.2
  encode x := c.encode x.1 ++ d.encode x.2
  decode input := do
    let (first, rest) ← c.decode input
    let (second, rest) ← d.decode rest
    pure ((first, second), rest)
  decode_eq_some_iff {input x rest} := by
    simp only [Option.bind_eq_bind, Option.bind_eq_some_iff, Option.pure_def, Option.some.injEq,
      Prod.exists, c.decode_eq_some_iff, d.decode_eq_some_iff]
    constructor
    · rintro ⟨first, _, ⟨hFirst, rfl⟩, second, _, ⟨hSecond, rfl⟩, hEq⟩
      cases hEq
      exact ⟨⟨hFirst, hSecond⟩, (List.append_assoc _ _ _).symm⟩
    · rintro ⟨⟨hFirst, hSecond⟩, rfl⟩
      exact ⟨x.1, _, ⟨hFirst, List.append_assoc _ _ _⟩, x.2, rest, ⟨hSecond, rfl⟩, rfl⟩

/-- The same bytes, read as values of another type. -/
def iso (e : α ≃ β) : Codec β where
  Valid y := c.Valid (e.symm y)
  encode y := c.encode (e.symm y)
  decode input := (c.decode input).map fun read => (e read.1, read.2)
  decode_eq_some_iff {input y rest} := by
    simp only [Option.map_eq_some_iff, Prod.exists, Prod.mk.injEq, c.decode_eq_some_iff]
    constructor
    · rintro ⟨x, _, hRead, rfl, rfl⟩
      rwa [Equiv.symm_apply_apply]
    · exact fun hRead => ⟨e.symm y, rest, hRead, e.apply_symm_apply y, rfl⟩

/-- The bytes of a value behind fixed bytes that tell what is there. -/
def tagged (tag : List UInt8) : Codec α where
  Valid := c.Valid
  encode x := tag ++ c.encode x
  decode input := if tag <+: input then c.decode (input.drop tag.length) else none
  decode_eq_some_iff {input x rest} := by
    constructor
    · intro h
      split at h
      · rename_i hTag
        obtain ⟨body, rfl⟩ := hTag
        rw [List.drop_left, c.decode_eq_some_iff] at h
        obtain ⟨hValid, rfl⟩ := h
        exact ⟨hValid, (List.append_assoc _ _ _).symm⟩
      · cases h
    · rintro ⟨hValid, rfl⟩
      rw [List.append_assoc, if_pos (List.prefix_append _ _), List.drop_left]
      exact c.decode_encode hValid rest

/-- Two formats with different tags of one length have no input in common. -/
theorem tagged_disjoint {tag tag' : List UInt8} (d : Codec β) (hLength : tag.length = tag'.length)
    (hTag : tag ≠ tag') {input : List UInt8} {x : α × List UInt8}
    (h : (c.tagged tag).decode input = some x) : (d.tagged tag').decode input = none := by
  obtain ⟨x, rest⟩ := x
  obtain ⟨-, rfl⟩ := (c.tagged tag).decode_eq_some_iff.mp h
  refine if_neg ?_
  rintro ⟨body, hBody⟩
  rw [tagged, List.append_assoc] at hBody
  exact hTag (List.append_inj hBody.symm hLength).1

def HasSize (n : Nat) : Prop := ∀ x, (c.encode x).length = n

variable {c}

theorem Fixed.hasSize {width : Nat} (f : Fixed α width) : f.codec.HasSize width := f.length

theorem HasSize.pair {d : Codec β} {n m : Nat} (hc : c.HasSize n) (hd : d.HasSize m) :
    (c.pair d).HasSize (n + m) := by
  intro x
  exact (List.length_append).trans (congrArg₂ (· + ·) (hc x.1) (hd x.2))

theorem HasSize.iso {n : Nat} (hc : c.HasSize n) (e : α ≃ β) : (c.iso e).HasSize n :=
  fun y => hc (e.symm y)

theorem HasSize.tagged {n : Nat} (hc : c.HasSize n) (tag : List UInt8) :
    (c.tagged tag).HasSize (tag.length + n) :=
  fun x => (List.length_append).trans (congrArg (tag.length + ·) (hc x))

end Codec
