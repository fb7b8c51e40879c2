import Mathlib.Data.Finset.Basic
import Mathlib.Logic.Relation

/-! # Runs of a deterministic transition function

A system is a function `next` from a state and an action to the next state; an action
that is refused leaves the state as it is. The rules below turn a fact about one action
into a fact about every run.
-/
set_option autoImplicit false

namespace Run

universe u v w

variable {S : Type u} {A : Type v} {T : Type w} (next : S → A → S)

def run (s : S) (actions : List A) : S := actions.foldl next s

/-- Every action of the run satisfies `Q` in the state that it meets. -/
def Along (Q : S → A → Prop) : S → List A → Prop
  | _, [] => True
  | s, a :: rest => Q s a ∧ Along Q (next s a) rest

/-- The costs of the actions of a run added up, each taken in the state that it meets. -/
def tally (cost : S → A → Nat) : S → List A → Nat
  | _, [] => 0
  | s, a :: rest => cost s a + tally cost (next s a) rest

variable {next}

theorem run_append (s : S) (before after : List A) :
    run next s (before ++ after) = run next (run next s before) after := List.foldl_append

theorem tally_append (cost : S → A → Nat) (s : S) (before after : List A) :
    tally next cost s (before ++ after) =
      tally next cost s before + tally next cost (run next s before) after := by
  induction before generalizing s with
  | nil => exact (Nat.zero_add _).symm
  | cons a rest ih =>
    simp only [List.cons_append, tally, ih, Nat.add_assoc]
    rfl

theorem Along.mono {Q Q' : S → A → Prop} (h : ∀ s a, Q s a → Q' s a) {s : S} {actions : List A}
    (hRun : Along next Q s actions) : Along next Q' s actions := by
  induction actions generalizing s with
  | nil => trivial
  | cons a rest ih => exact ⟨h _ _ hRun.1, ih hRun.2⟩

theorem Along.and {Q Q' : S → A → Prop} {s : S} {actions : List A} (h : Along next Q s actions)
    (h' : Along next Q' s actions) : Along next (fun s a => Q s a ∧ Q' s a) s actions := by
  induction actions generalizing s with
  | nil => trivial
  | cons a rest ih => exact ⟨⟨h.1, h'.1⟩, ih h.2 h'.2⟩

theorem along_append {Q : S → A → Prop} {s : S} {before after : List A} :
    Along next Q s (before ++ after) ↔
      Along next Q s before ∧ Along next Q (run next s before) after := by
  induction before generalizing s with
  | nil => exact (and_iff_right trivial).symm
  | cons a rest ih =>
    simp only [List.cons_append, Along, ih, and_assoc]
    rfl

theorem along_of_forall {Q : S → A → Prop} {s : S} {actions : List A}
    (h : ∀ a ∈ actions, ∀ s, Q s a) : Along next Q s actions := by
  induction actions generalizing s with
  | nil => trivial
  | cons a rest ih =>
    exact ⟨h a List.mem_cons_self s, ih fun b hb => h b (List.mem_cons_of_mem a hb)⟩

theorem run_invariant {I : S → Prop} {Q : S → A → Prop}
    (hStep : ∀ s a, I s → Q s a → I (next s a)) {s : S} {actions : List A} (hs : I s)
    (hRun : Along next Q s actions) : I (run next s actions) := by
  induction actions generalizing s with
  | nil => exact hs
  | cons a rest ih => exact ih (hStep s a hs hRun.1) hRun.2

theorem run_invariant_tally {I : Nat → S → Prop} {Q : S → A → Prop} {cost : S → A → Nat}
    (hStep : ∀ n s a, I n s → Q s a → I (n + cost s a) (next s a)) {n : Nat} {s : S}
    {actions : List A} (hs : I n s) (hRun : Along next Q s actions) :
    I (n + tally next cost s actions) (run next s actions) := by
  induction actions generalizing n s with
  | nil => exact hs
  | cons a rest ih =>
    have h := ih (hStep n s a hs hRun.1) hRun.2
    rwa [Nat.add_assoc] at h

theorem along_iff_of_invariant {I : S → Prop} {Q F G : S → A → Prop}
    (hStep : ∀ s a, I s → Q s a → I (next s a)) (hIff : ∀ s a, I s → Q s a → (F s a ↔ G s a))
    {s : S} {actions : List A} (hs : I s) (hRun : Along next Q s actions) :
    Along next F s actions ↔ Along next G s actions := by
  induction actions generalizing s with
  | nil => exact Iff.rfl
  | cons a rest ih =>
    exact and_congr (hIff s a hs hRun.1) (ih (hStep s a hs hRun.1) hRun.2)

/-- A property that holds of the present state is kept along a run exactly when no action
breaks it: `Good` says of an action that it does not, wherever the invariant `I` holds. -/
theorem along_iff_of_step {I H : S → Prop} {Q Good : S → A → Prop}
    (hStep : ∀ s a, I s → Q s a → I (next s a))
    (hIff : ∀ s a, I s → Q s a → H s → (H (next s a) ↔ Good s a))
    {s : S} {actions : List A} (hs : I s) (hH : H s) (hRun : Along next Q s actions) :
    Along next (fun s a => H (next s a)) s actions ↔ Along next Good s actions := by
  induction actions generalizing s with
  | nil => exact Iff.rfl
  | cons a rest ih =>
    simp only [Along]
    constructor
    · rintro ⟨hNext, hRest⟩
      exact ⟨(hIff s a hs hRun.1 hH).mp hNext,
        (ih (hStep s a hs hRun.1) hNext hRun.2).mp hRest⟩
    · rintro ⟨hGood, hRest⟩
      have hNext := (hIff s a hs hRun.1 hH).mpr hGood
      exact ⟨hNext, (ih (hStep s a hs hRun.1) hNext hRun.2).mpr hRest⟩

section Visible

variable {Rel : S → S → Prop} {Q : S → A → Prop} {visible : A → Bool} {cost : T → S → A → Nat}

theorem rel_of_silent
    (hSilent : ∀ s t a, visible a = false → Q t a → Rel s t →
      Rel s (next t a) ∧ ∀ i, cost i t a = 0)
    {s t : S} {actions : List A} (hRel : Rel s t) (hRun : Along next Q t actions)
    (hNone : ∀ a ∈ actions, visible a = false) :
    Rel s (run next t actions) ∧ ∀ i, tally next (cost i) t actions = 0 := by
  induction actions generalizing t with
  | nil => exact ⟨hRel, fun _ => rfl⟩
  | cons a rest ih =>
    obtain ⟨hNext, hFree⟩ := hSilent s t a (hNone a List.mem_cons_self) hRun.1 hRel
    obtain ⟨hRest, hZero⟩ := ih hNext hRun.2 fun b hb => hNone b (List.mem_cons_of_mem a hb)
    refine ⟨hRest, fun i => ?_⟩
    rw [tally, hFree, hZero]

/-- Silent actions keep the relation on the side where they happen and cost nothing; a visible
action that happens on both sides keeps it and costs the same on both. -/
theorem rel_of_filter_eq
    (hLeft : ∀ s t a, visible a = false → Q s a → Rel s t →
      Rel (next s a) t ∧ ∀ i, cost i s a = 0)
    (hRight : ∀ s t a, visible a = false → Q t a → Rel s t →
      Rel s (next t a) ∧ ∀ i, cost i t a = 0)
    (hBoth : ∀ s t a, visible a = true → Q s a → Q t a → Rel s t →
      Rel (next s a) (next t a) ∧ ∀ i, cost i s a = cost i t a)
    {s t : S} {left right : List A} (hRel : Rel s t) (hRun : Along next Q s left)
    (hRun' : Along next Q t right) (hSame : left.filter visible = right.filter visible) :
    Rel (run next s left) (run next t right) ∧
      ∀ i, tally next (cost i) s left = tally next (cost i) t right := by
  induction left generalizing s t right with
  | nil =>
    have hNone : ∀ a ∈ right, visible a = false := by
      intro a ha
      have hNot := List.filter_eq_nil_iff.mp hSame.symm a ha
      rwa [Bool.not_eq_true] at hNot
    obtain ⟨hLast, hZero⟩ := rel_of_silent hRight hRel hRun' hNone
    exact ⟨hLast, fun i => (hZero i).symm⟩
  | cons a rest ih =>
    cases hVisible : visible a with
    | false =>
      obtain ⟨hNext, hFree⟩ := hLeft s t a hVisible hRun.1 hRel
      rw [List.filter_cons_of_neg (by rw [hVisible]; decide)] at hSame
      obtain ⟨hLast, hCost⟩ := ih hNext hRun.2 hRun' hSame
      refine ⟨hLast, fun i => ?_⟩
      rw [tally, hFree, Nat.zero_add]
      exact hCost i
    | true =>
      -- On the right, silent actions may come before the same action.
      rw [List.filter_cons_of_pos hVisible] at hSame
      obtain ⟨before, after, rfl, hBefore, -, hAfter⟩ := List.filter_eq_cons_iff.mp hSame.symm
      obtain ⟨hRunBefore, hQ, hRunAfter⟩ := along_append.mp hRun'
      have hNone : ∀ b ∈ before, visible b = false := by
        intro b hb
        have hNot := hBefore b hb
        rwa [Bool.not_eq_true] at hNot
      obtain ⟨hMet, hZero⟩ := rel_of_silent hRight hRel hRunBefore hNone
      obtain ⟨hNext, hCost⟩ := hBoth _ _ a hVisible hRun.1 hQ hMet
      obtain ⟨hLast, hCosts⟩ := ih hNext hRun.2 hRunAfter hAfter.symm
      rw [run_append]
      refine ⟨hLast, fun i => ?_⟩
      rw [tally_append, hZero, Nat.zero_add, tally, tally, hCost, hCosts]

end Visible

end Run
