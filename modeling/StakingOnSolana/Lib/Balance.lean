import Mathlib.Algebra.Ring.Int.Defs
import Mathlib.Logic.Function.Basic

/-! # Moving an amount between two entries of a table of balances -/
set_option autoImplicit false

namespace Balance

universe u

variable {K : Type u} [DecidableEq K]

/-- Move `n` from the entry `s` to the entry `d`; moving to itself changes nothing. -/
def move (b : K → Nat) (s d : K) (n : Nat) : K → Nat :=
  if s = d then b else Function.update (Function.update b s (b s - n)) d (b d + n)

variable (b : K → Nat) {s d k : K} (n : Nat)

@[simp] theorem move_self : move b s s n = b := by
  simp [move]

@[simp] theorem move_zero : move b s d 0 = b := by
  simp [move]

theorem move_source (h : s ≠ d) : move b s d n s = b s - n := by
  simp [move, h]

theorem sub_le_move_source (s d : K) : b s - n ≤ move b s d n s := by
  by_cases h : s = d
  · subst h
    rw [move_self]
    exact Nat.sub_le _ _
  · rw [move_source b n h]

theorem move_destination (h : s ≠ d) : move b s d n d = b d + n := by
  simp [move, h]

theorem move_of_ne (hs : k ≠ s) (hd : k ≠ d) : move b s d n k = b k := by
  unfold move
  split
  · rfl
  · simp [hs, hd]

theorem le_move_of_ne_source (h : k ≠ s) : b k ≤ move b s d n k := by
  by_cases hd : k = d
  · subst hd
    rw [move_destination b n h.symm]
    exact Nat.le_add_right _ _
  · exact Nat.le_of_eq (move_of_ne b n h hd).symm

def moveAll (b : K → Nat) (moves : List ((K × K) × Nat)) : K → Nat :=
  moves.foldl (fun b m => move b m.1.1 m.1.2 m.2) b

variable {moves : List ((K × K) × Nat)}

theorem moveAll_of_not_mem (h : ∀ m ∈ moves, k ≠ m.1.1 ∧ k ≠ m.1.2) : moveAll b moves k = b k := by
  induction moves generalizing b with
  | nil => rfl
  | cons m rest ih =>
    obtain ⟨hSource, hDestination⟩ := h m List.mem_cons_self
    have hRest := ih (move b m.1.1 m.1.2 m.2) fun m' hm => h m' (List.mem_cons_of_mem m hm)
    exact hRest.trans (move_of_ne b m.2 hSource hDestination)

theorem le_moveAll_of_not_source (h : ∀ m ∈ moves, k ≠ m.1.1) : b k ≤ moveAll b moves k := by
  induction moves generalizing b with
  | nil => exact Nat.le_refl _
  | cons m rest ih =>
    have hRest := ih (move b m.1.1 m.1.2 m.2) fun m' hm => h m' (List.mem_cons_of_mem m hm)
    exact Nat.le_trans (le_move_of_ne_source b m.2 (h m List.mem_cons_self)) hRest

/-- Every move takes from an entry no more than it holds when its turn comes. -/
def Funded : (K → Nat) → List ((K × K) × Nat) → Prop
  | _, [] => True
  | b, m :: rest => m.2 ≤ b m.1.1 ∧ Funded (move b m.1.1 m.1.2 m.2) rest

/-- What the moves bring to the entry `k`, less what they take from it. -/
def flow (moves : List ((K × K) × Nat)) (k : K) : Int :=
  (moves.map fun m => (if m.1.2 = k then (m.2 : Int) else 0) - if m.1.1 = k then (m.2 : Int) else 0).sum

@[simp] theorem flow_nil : flow [] k = 0 := rfl

@[simp] theorem flow_cons (m : (K × K) × Nat) : flow (m :: moves) k =
    ((if m.1.2 = k then (m.2 : Int) else 0) - if m.1.1 = k then (m.2 : Int) else 0) + flow moves k := by
  rw [flow, List.map_cons, List.sum_cons]
  rfl

theorem move_eq_of_funded (h : n ≤ b s) (k : K) : (move b s d n k : Int) =
    b k + ((if d = k then (n : Int) else 0) - if s = k then (n : Int) else 0) := by
  by_cases hSelf : s = d
  · subst hSelf
    rw [move_self]
    omega
  · by_cases hs : s = k
    · subst hs
      rw [move_source b n hSelf, if_neg (Ne.symm hSelf), if_pos rfl]
      omega
    · by_cases hd : d = k
      · subst hd
        rw [move_destination b n hSelf, if_pos rfl, if_neg hs]
        omega
      · rw [move_of_ne b n (Ne.symm hs) (Ne.symm hd), if_neg hd, if_neg hs]
        omega

theorem moveAll_eq_flow (h : Funded b moves) (k : K) : (moveAll b moves k : Int) = b k + flow moves k := by
  induction moves generalizing b with
  | nil => exact (Int.add_zero _).symm
  | cons m rest ih =>
    have hRest := ih (move b m.1.1 m.1.2 m.2) h.2
    rw [move_eq_of_funded b m.2 h.1] at hRest
    rw [flow_cons, ← Int.add_assoc]
    exact hRest

/-- Two moves out of one entry are the same where they move the same amount to the same entry, or
where neither moves anything away. -/
theorem flow_eq_iff (s d d' : K) (n n' : Nat) :
    (∀ k, flow [((s, d), n)] k = flow [((s, d'), n')] k) ↔
      n = n' ∧ d = d' ∨ (n = 0 ∨ d = s) ∧ (n' = 0 ∨ d' = s) := by
  simp only [flow_cons, flow_nil, Int.add_zero]
  constructor
  · intro h
    by_cases hNone : n = 0 ∨ d = s
    · refine Or.inr ⟨hNone, ?_⟩
      have hAt := h d'
      by_cases hSelf : d' = s
      · exact Or.inr hSelf
      · have hSource : ¬s = d' := fun hEq => hSelf hEq.symm
        simp only [hSource, if_true, if_false] at hAt
        rcases hNone with rfl | rfl
        · rw [Int.ofNat_zero, ite_self] at hAt
          omega
        · rw [if_neg hSource] at hAt
          omega
    · obtain ⟨hSome, hAway⟩ := not_or.mp hNone
      have hAt := h d
      rw [if_pos rfl, if_neg (Ne.symm hAway), if_neg (Ne.symm hAway)] at hAt
      by_cases hSame : d' = d
      · rw [if_pos hSame] at hAt
        exact Or.inl ⟨by omega, hSame.symm⟩
      · rw [if_neg hSame] at hAt
        omega
  · rintro (⟨rfl, rfl⟩ | ⟨hNone, hNone'⟩) k
    · rfl
    · have hZero : ∀ (m : Nat) (e : K), m = 0 ∨ e = s →
          (if e = k then (m : Int) else 0) - (if s = k then (m : Int) else 0) = 0 := by
        rintro m e (rfl | rfl)
        · simp
        · exact Int.sub_self _
      rw [hZero n d hNone, hZero n' d' hNone']

theorem flow_redirect_iff (s d d' : K) (n : Nat) :
    (∀ k, flow [((s, d), n)] k = flow [((s, d'), n)] k) ↔ n = 0 ∨ d = d' := by
  rw [flow_eq_iff]
  constructor
  · rintro (⟨-, hSame⟩ | ⟨hNone | rfl, hNone' | rfl⟩)
    · exact Or.inr hSame
    · exact Or.inl hNone
    · exact Or.inl hNone
    · exact Or.inl hNone'
    · exact Or.inr rfl
  · rintro (hNone | rfl)
    · exact Or.inr ⟨Or.inl hNone, Or.inl hNone⟩
    · exact Or.inl ⟨rfl, rfl⟩

end Balance
