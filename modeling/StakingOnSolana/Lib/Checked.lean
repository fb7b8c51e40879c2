import Mathlib.Algebra.Group.Nat.Defs
import Mathlib.Logic.Basic
import Mathlib.Tactic.Basic

/-! # Checked machine arithmetic and inversion of fallible computations

A build with overflow checks aborts where a fixed-width result does not fit.
Here such a computation is an `Except`, the values are naturals, and each operation
has one lemma that says when it succeeds and with which result.
-/
set_option autoImplicit false

namespace Checked

universe u v

variable {ε : Type u} {α : Type v} {β : Type v}

theorem bind_eq_ok {x : Except ε α} {f : α → Except ε β} {b : β} :
    x >>= f = .ok b ↔ ∃ a, x = .ok a ∧ f a = .ok b := by
  cases x <;> simp [Bind.bind, Except.bind]

theorem bind_eq_error {x : Except ε α} {f : α → Except ε β} {e : ε} :
    x >>= f = .error e ↔ x = .error e ∨ ∃ a, x = .ok a ∧ f a = .error e := by
  cases x <;> simp [Bind.bind, Except.bind]

theorem pure_eq_ok {a b : α} : (pure a : Except ε α) = .ok b ↔ a = b := by
  simp only [pure, Except.pure, Except.ok.injEq]

theorem pure_ne_error {a : α} {e : ε} : (pure a : Except ε α) ≠ .error e := by
  simp only [pure, Except.pure, ne_eq, reduceCtorEq, not_false_eq_true]

theorem ite_eq_ok {p : Prop} [Decidable p] {e : ε} {a b : α} :
    (if p then .ok a else .error e : Except ε α) = .ok b ↔ p ∧ a = b := by
  split
  · rename_i h
    rw [Except.ok.injEq, and_iff_right h]
  · rename_i h
    simp only [reduceCtorEq, h, false_and]

theorem ite_eq_error {p : Prop} [Decidable p] {e e' : ε} {a : α} :
    (if p then .ok a else .error e : Except ε α) = .error e' ↔ ¬p ∧ e = e' := by
  split
  · rename_i h
    simp only [reduceCtorEq, h, not_true, false_and]
  · rename_i h
    rw [Except.error.injEq, and_iff_right h]

def require (p : Prop) [Decidable p] (e : ε) : Except ε PUnit.{v + 1} :=
  if p then .ok ⟨⟩ else .error e

theorem require_eq_ok {p : Prop} [Decidable p] {e : ε} {x : PUnit.{v + 1}} :
    require p e = .ok x ↔ p :=
  ite_eq_ok.trans (and_iff_left rfl)

theorem require_eq_error {p : Prop} [Decidable p] {e e' : ε} :
    (require p e : Except ε PUnit.{v + 1}) = .error e' ↔ ¬p ∧ e = e' := ite_eq_error

def load (o : Option α) (e : ε) : Except ε α :=
  match o with
  | some a => .ok a
  | none => .error e

theorem load_eq_ok {o : Option α} {e : ε} {a : α} : load o e = .ok a ↔ o = some a := by
  cases o <;> simp [load]

theorem load_eq_error {o : Option α} {e e' : ε} : load o e = .error e' ↔ o = none ∧ e = e' := by
  cases o <;> simp [load]

def add (width : Nat) (overflow : ε) (a b : Nat) : Except ε Nat :=
  if a + b < 2 ^ width then .ok (a + b) else .error overflow

def sub (underflow : ε) (a b : Nat) : Except ε Nat :=
  if b ≤ a then .ok (a - b) else .error underflow

def mul (width : Nat) (overflow : ε) (a b : Nat) : Except ε Nat :=
  if a * b < 2 ^ width then .ok (a * b) else .error overflow

def pow (width : Nat) (overflow : ε) (a b : Nat) : Except ε Nat :=
  if a ^ b < 2 ^ width then .ok (a ^ b) else .error overflow

variable {width : Nat} {a b c : Nat} {e e' : ε}

theorem add_eq_ok : add width e a b = .ok c ↔ a + b < 2 ^ width ∧ a + b = c := ite_eq_ok
theorem sub_eq_ok : sub e a b = .ok c ↔ b ≤ a ∧ a - b = c := ite_eq_ok
theorem mul_eq_ok : mul width e a b = .ok c ↔ a * b < 2 ^ width ∧ a * b = c := ite_eq_ok
theorem pow_eq_ok : pow width e a b = .ok c ↔ a ^ b < 2 ^ width ∧ a ^ b = c := ite_eq_ok

theorem add_eq_error : add width e a b = .error e' ↔ 2 ^ width ≤ a + b ∧ e = e' :=
  ite_eq_error.trans (and_congr_left' Nat.not_lt)

theorem sub_eq_error : sub e a b = .error e' ↔ a < b ∧ e = e' :=
  ite_eq_error.trans (and_congr_left' Nat.not_le)

theorem mul_eq_error : mul width e a b = .error e' ↔ 2 ^ width ≤ a * b ∧ e = e' :=
  ite_eq_error.trans (and_congr_left' Nat.not_lt)

theorem pow_eq_error : pow width e a b = .error e' ↔ 2 ^ width ≤ a ^ b ∧ e = e' :=
  ite_eq_error.trans (and_congr_left' Nat.not_lt)

end Checked
