import Mathlib.Data.List.TakeWhile
import Mathlib.Order.Interval.Finset.Nat
import StakingOnSolana.RewardAccounting

/-! # The reward slot by slot

The reward is accrued piecewise, at whatever slots the pool happens to be updated. Over a run in
the order of its slots it adds up to the rate for each slot of the schedule in which somebody was
staked: no slot is left out and none is counted twice.
-/
set_option autoImplicit false

namespace StakingOnSolana

variable {R : Runtime} {env : Env} {w w₀ w₁ : World} {P : PoolAddress} {p q : Pool} {op : PoolOp}
  {staked : Nat → Nat}

/-- The slots between the start and the last update, up to the end, that found a stake. -/
def PoolConfig.stakedSlots (c : PoolConfig) (last : Nat) (staked : Nat → Nat) : Finset Nat :=
  (Finset.Ioc c.startSlot (min last c.endSlot)).filter fun t => 0 < staked t

theorem card_filter_Ioc (staked staked' : Nat → Nat) {a b c n : Nat} (hab : a ≤ b) (hbc : b ≤ c)
    (hOld : ∀ t, a < t → t ≤ b → staked' t = staked t) (hNew : ∀ t, b < t → t ≤ c → staked' t = n) :
    ((Finset.Ioc a c).filter fun t => 0 < staked' t).card =
      ((Finset.Ioc a b).filter fun t => 0 < staked t).card + if n = 0 then 0 else c - b := by
  have hDisjoint : Disjoint (Finset.Ioc a b) (Finset.Ioc b c) :=
    Finset.Ioc_disjoint_Ioc_of_le (Nat.le_refl b)
  rw [← Finset.Ioc_union_Ioc_eq_Ioc hab hbc, Finset.filter_union,
    Finset.card_union_of_disjoint (Finset.disjoint_filter_filter hDisjoint)]
  congr 1
  · refine congrArg Finset.card (Finset.filter_congr fun t ht => ?_)
    obtain ⟨hFrom, hTo⟩ := Finset.mem_Ioc.mp ht
    rw [hOld t hFrom hTo]
  · have hConst : ∀ t ∈ Finset.Ioc b c, 0 < staked' t ↔ 0 < n := by
      intro t ht
      obtain ⟨hFrom, hTo⟩ := Finset.mem_Ioc.mp ht
      rw [hNew t hFrom hTo]
    rw [Finset.filter_congr hConst]
    split
    · rename_i hZero
      rw [hZero]
      simp
    · rename_i hSome
      rw [Finset.filter_true_of_mem fun _ _ => Nat.pos_of_ne_zero hSome, Nat.card_Ioc]

namespace Pool

/-- The reward accrued is the rate for each of the slots in which, by `staked`, there was a stake;
from the last update on that is the present total. -/
structure Emission (staked : Nat → Nat) (p : Pool) : Prop where
  should_eq : p.state.shouldTotalPaid =
    p.config.rewardPerSlot * (p.config.stakedSlots p.state.lastRewardSlot staked).card
  since : ∀ t, p.state.lastRewardSlot < t → staked t = p.state.totalStaked
  idle : p.config.startSlot = 0 → p.state.totalStaked = 0 ∧ ∀ u, p.staked u = 0

theorem step_idle (hOp : p.Enabled op) (hStart : ∀ slot, op ≠ .start slot)
    (hIdle : p.config.startSlot = 0) (hTotal : p.state.totalStaked = 0) (hNone : ∀ u, p.staked u = 0) :
    (p.step op).state.totalStaked = 0 ∧ ∀ u, (p.step op).staked u = 0 := by
  cases op with
  | start slot => exact absurd rfl (hStart slot)
  | stop slot => exact ⟨hTotal, hNone⟩
  | stake slot u amount => exact absurd hIdle (Nat.ne_of_gt hOp.1)
  | unstake slot u amount =>
    have hLt := hOp.2.1
    rw [hNone u] at hLt
    exact absurd hLt (Nat.not_lt_zero _)
  | claim slot u =>
    rw [step_claim_of_unstaked slot (hNone u)]
    exact ⟨hTotal, hNone⟩
  | compound slot u =>
    rw [step_compound_of_unstaked slot (hNone u)]
    exact ⟨hTotal, hNone⟩

theorem Scheduled.start_le (h : p.Scheduled) :
    p.config.startSlot ≤ min p.state.lastRewardSlot p.config.endSlot := by
  rcases Nat.eq_zero_or_pos p.config.startSlot with hIdle | hRun
  · exact hIdle ▸ Nat.zero_le _
  · have hBegun := h.begun hRun
    have hEnds := h.ends hRun
    omega

theorem Scheduled.step_last_le (h : p.Scheduled) {bound : Nat} (hSlot : op.slot ≤ bound)
    (hLast : p.state.lastRewardSlot ≤ max p.config.startSlot bound) :
    (p.step op).state.lastRewardSlot ≤ max (p.step op).config.startSlot bound := by
  rcases op.start_or with ⟨slot, rfl⟩ | hNot
  · exact Nat.le_max_left _ _
  · obtain ⟨hConfig, hStep⟩ := p.step_schedule hNot
    rw [hStep, hConfig]
    rcases h.last_tick op.slot with ⟨-, hZero, -⟩ | ⟨-, -, hMax⟩
    · exact hZero ▸ Nat.zero_le _
    · omega

theorem Emission.start (slot : Nat) (hScheduled : p.Scheduled) (hIdle : p.config.startSlot = 0) :
    (p.step (.start slot)).Emission fun t =>
      if slot < t then (p.step (.start slot)).state.totalStaked else staked t := by
  refine ⟨?_, fun t ht => ?_, fun hNone => absurd hNone (Nat.succ_ne_zero _)⟩
  · -- From the start to the start there is no slot.
    have hEmpty : Finset.Ioc (slot + 10)
        (min (slot + 10) (slot + 10 + p.config.duration * slotsPerDay)) = ∅ :=
      Finset.Ioc_eq_empty (by omega)
    have hNone : (p.step (.start slot)).config.stakedSlots (p.step (.start slot)).state.lastRewardSlot
        (fun t => if slot < t then (p.step (.start slot)).state.totalStaked else staked t) = ∅ :=
      (congrArg (Finset.filter _) hEmpty).trans (Finset.filter_empty _)
    rw [hNone]
    exact (hScheduled.idle hIdle).2
  · change slot + 10 < t at ht
    rw [if_pos (by omega)]

theorem Emission.advance (h : p.Emission staked) (hScheduled : p.Scheduled) {slot n : Nat}
    (hLast : p.state.lastRewardSlot ≤ max p.config.startSlot slot) :
    (p.tick slot).state.shouldTotalPaid = p.config.rewardPerSlot *
      (p.config.stakedSlots (p.tick slot).state.lastRewardSlot
        fun t => if slot < t then n else staked t).card := by
  have hFrom := hScheduled.start_le
  have hEmitted : p.state.accruing p.config slot = p.config.rewardPerSlot *
      if p.state.totalStaked = 0 then 0 else
        min (p.tick slot).state.lastRewardSlot p.config.endSlot -
          min p.state.lastRewardSlot p.config.endSlot := by
    unfold PoolState.accruing PoolConfig.emittingSlots
    rcases hScheduled.last_tick slot with ⟨-, hZero, hNone⟩ | ⟨hRun, hBegun, hMax⟩
    · rw [if_pos (Or.inr (Or.inl hNone)), hZero, hNone, Nat.sub_self, ite_self, Nat.mul_zero]
    · rw [hMax]
      split
      · split
        · rfl
        · have hLate : max p.state.lastRewardSlot slot = p.state.lastRewardSlot := by omega
          rw [hLate, Nat.sub_self, Nat.mul_zero]
      · have hLate : max p.state.lastRewardSlot slot = slot := by omega
        rw [if_neg (by omega), hLate, Nat.mul_comm]
  have hLe : min p.state.lastRewardSlot p.config.endSlot ≤
      min (p.tick slot).state.lastRewardSlot p.config.endSlot := by
    rcases hScheduled.last_tick slot with ⟨-, hZero, hNone⟩ | ⟨-, -, hMax⟩ <;> omega
  have hCount := card_filter_Ioc staked (fun t => if slot < t then n else staked t)
    (n := p.state.totalStaked) hFrom hLe (fun t hStart ht => ?_) fun t hAfter ht => ?_
  · unfold PoolConfig.stakedSlots
    rw [hCount, Nat.mul_add, ← hEmitted]
    exact congrArg (· + p.state.accruing p.config slot) h.should_eq
  · -- A slot that was counted before lies before this call.
    exact if_neg (by omega)
  · have hWithin : p.state.lastRewardSlot < t ∧ t ≤ slot := by
      rcases hScheduled.last_tick slot with ⟨-, hZero, hNone⟩ | ⟨-, -, hMax⟩ <;> omega
    rw [if_neg (by omega)]
    exact h.since t hWithin.1

theorem Emission.step (h : p.Emission staked) (hScheduled : p.Scheduled) (hOp : p.Enabled op)
    (hLast : p.state.lastRewardSlot ≤ max p.config.startSlot op.slot) :
    (p.step op).Emission fun t => if op.slot < t then (p.step op).state.totalStaked else staked t := by
  rcases op.start_or with ⟨slot, rfl⟩ | hNot
  · exact Emission.start slot hScheduled hOp
  · obtain ⟨hConfig, hStep⟩ := p.step_schedule hNot
    refine ⟨?_, fun t ht => ?_, fun hIdle => ?_⟩
    · rw [(p.step_accrual hNot).2, hConfig, hStep]
      exact h.advance hScheduled hLast
    · rw [hStep] at ht
      by_cases hLate : op.slot < t
      · exact if_pos hLate
      · rw [if_neg hLate]
        -- Only a pool that has not started can still be behind its caller.
        rcases hScheduled.last_tick op.slot with ⟨hIdle, hZero, hNone⟩ | ⟨-, -, hMax⟩
        · obtain ⟨hTotal, hStakes⟩ := h.idle hIdle
          rw [h.since t (by omega), hTotal, (step_idle hOp hNot hIdle hTotal hStakes).1]
        · omega
    · rw [hConfig] at hIdle
      obtain ⟨hTotal, hStakes⟩ := h.idle hIdle
      exact step_idle hOp hNot hIdle hTotal hStakes

end Pool

def Action.slot : Action → Option Nat
  | .call tx => some tx.env.slot
  | .outside .. => none

def slots (actions : List Action) : List Nat := actions.filterMap Action.slot

/-- The calls of a run that come before the slot `t`, with what happens outside of the program
until the first of the others. -/
def callsBefore (t : Nat) (actions : List Action) : List Action :=
  actions.takeWhile fun a => a.slot.all (· < t)

def World.totalStaked (P : PoolAddress) (w : World) : Nat :=
  ((w.poolState P.state).getD .zero).totalStaked

/-- The total staked while the slot before `t` passes to `t`. -/
def stakedUntil (R : Runtime) (P : PoolAddress) (w : World) (actions : List Action) (t : Nat) : Nat :=
  (Run.run (next R) w (callsBefore t actions)).totalStaked P

theorem World.Holds.totalStaked_eq (h : w.Holds P p) : w.totalStaked P = p.state.totalStaked := by
  rw [World.totalStaked, h.state]
  rfl

theorem slots_append_call (actions : List Action) (tx : Tx) :
    slots (actions ++ [.call tx]) = slots actions ++ [tx.env.slot] := by
  rw [slots, List.filterMap_append]
  rfl

theorem callsBefore_eq_self {actions : List Action} {t : Nat} (h : ∀ slot ∈ slots actions, slot < t) :
    callsBefore t actions = actions := by
  refine List.takeWhile_eq_self_iff.mpr fun a ha => ?_
  cases a with
  | outside bank mint => rfl
  | call tx => exact decide_eq_true (h _ (List.mem_filterMap.mpr ⟨.call tx, ha, rfl⟩))

theorem callsBefore_append_of_le {actions : List Action} {tx : Tx} {t : Nat} (h : t ≤ tx.env.slot) :
    callsBefore t (actions ++ [.call tx]) = callsBefore t actions := by
  have hNot : ([.call tx] : List Action).takeWhile (fun a => a.slot.all (· < t)) = [] :=
    List.takeWhile_cons_of_neg (by simp [Action.slot, h])
  unfold callsBefore
  rw [List.takeWhile_append, hNot, List.append_nil]
  split
  · rename_i hAll
    exact ((List.takeWhile_prefix _).eq_of_length hAll).symm
  · rfl

theorem stakedUntil_append_same {actions : List Action} {a : Action} {t : Nat}
    (h : (next R (Run.run (next R) w actions) a).totalStaked P =
      (Run.run (next R) w actions).totalStaked P) :
    stakedUntil R P w (actions ++ [a]) t = stakedUntil R P w actions t := by
  unfold stakedUntil callsBefore
  rw [List.takeWhile_append]
  split
  · rename_i hAll
    have hWhole := (List.takeWhile_prefix (l := actions) fun a => a.slot.all (· < t)).eq_of_length hAll
    rw [hWhole, List.takeWhile_cons]
    split
    · rw [Run.run_append]
      exact h
    · rw [List.append_nil]
  · rfl

theorem stakedUntil_append_call {actions : List Action} {tx : Tx}
    (h : ∀ slot ∈ slots actions, slot ≤ tx.env.slot) :
    stakedUntil R P w (actions ++ [.call tx]) = fun t =>
      if tx.env.slot < t then (Run.run (next R) w (actions ++ [.call tx])).totalStaked P
      else stakedUntil R P w actions t := by
  funext t
  unfold stakedUntil
  split
  · rename_i hLate
    rw [callsBefore_eq_self]
    intro slot hSlot
    rw [slots_append_call, List.mem_append, List.mem_singleton] at hSlot
    rcases hSlot with hOld | rfl
    · exact Nat.lt_of_le_of_lt (h slot hOld) hLate
    · exact hLate
  · rename_i hEarly
    rw [callsBefore_append_of_le (Nat.le_of_not_lt hEarly)]

theorem Pool.fresh_emission (c : PoolConfig) (funding : Nat) :
    (Pool.fresh c funding).Emission fun _ => 0 := by
  refine ⟨?_, fun t _ => rfl, fun _ => ⟨rfl, fun u => rfl⟩⟩
  have hNone : c.stakedSlots 0 (fun _ => 0) = ∅ := Finset.filter_false_of_mem fun t _ => Nat.lt_irrefl 0
  exact (congrArg (fun s => c.rewardPerSlot * Finset.card s) hNone).symm

/-- By induction on the last action: the pool accrued what `stakedUntil` says, and was last
updated at a slot of the run, if not at its start. -/
theorem run_emission {kinds : List Instruction.Kind} {actions : List Action}
    (hHolds : w.Holds P p) (hScheduled : p.Scheduled) (hEmission : p.Emission fun _ => p.state.totalStaked)
    (hLast : p.state.lastRewardSlot ≤ p.config.startSlot)
    (hRun : ∀ x ∈ actions, x.OnPool P kinds) (hOrder : (slots actions).Pairwise (· ≤ ·)) :
    ∃ q, (Run.run (next R) w actions).Holds P q ∧ q.Scheduled ∧
      q.Emission (stakedUntil R P w actions) ∧
      ∀ bound, (∀ slot ∈ slots actions, slot ≤ bound) →
        q.state.lastRewardSlot ≤ max q.config.startSlot bound := by
  induction actions using List.reverseRecOn with
  | nil =>
    refine ⟨p, hHolds, hScheduled, ?_, fun bound _ => Nat.le_trans hLast (Nat.le_max_left _ _)⟩
    have hStart : stakedUntil R P w [] = fun _ => p.state.totalStaked :=
      funext fun t => hHolds.totalStaked_eq
    rwa [hStart]
  | append_singleton actions a ih =>
    have hPrefix : (slots actions).Pairwise (· ≤ ·) := by
      rw [slots, List.filterMap_append] at hOrder
      exact (List.pairwise_append.mp hOrder).1
    obtain ⟨q, hQ, hSchedule, hEmitted, hBound⟩ :=
      ih (fun x hx => hRun x (List.mem_append_left [a] hx)) hPrefix
    have hOn := hRun a (List.mem_append_right actions List.mem_cons_self)
    have hStep : Run.run (next R) w (actions ++ [a]) = next R (Run.run (next R) w actions) a :=
      Run.run_append _ _ _
    rcases next_holds (R := R) hQ hOn with
      ⟨hSame, -⟩ | ⟨tx, op, rfl, hMatched, -, hOk, hOp, hEnabled, hAfter⟩
    · rw [hStep]
      refine ⟨q, hSame, hSchedule, ?_, fun bound hAll => hBound bound fun slot hSlot => ?_⟩
      · have hKept : stakedUntil R P w (actions ++ [a]) = stakedUntil R P w actions :=
          funext fun t => stakedUntil_append_same (hSame.totalStaked_eq.trans hQ.totalStaked_eq.symm)
        rwa [hKept]
      · refine hAll slot ?_
        rw [slots, List.filterMap_append]
        exact List.mem_append_left _ hSlot
    · have hSlot := Instruction.slot_op hOp
      rw [slots_append_call] at hOrder ⊢
      have hEarlier : ∀ slot ∈ slots actions, slot ≤ tx.env.slot := fun slot hMem =>
        (List.pairwise_append.mp hOrder).2.2 slot hMem _ List.mem_cons_self
      have hEmits := hEmitted.step hSchedule hEnabled (by
        rw [hSlot]
        exact hBound _ hEarlier)
      refine ⟨q.step op, hStep ▸ hAfter, hSchedule.step hEnabled, ?_, fun bound hAll => ?_⟩
      · rw [stakedUntil_append_call hEarlier, hStep, hAfter.totalStaked_eq]
        rwa [hSlot] at hEmits
      · refine hSchedule.step_last_le ?_ (hBound bound fun slot hMem => hAll slot
          (List.mem_append_left _ hMem))
        rw [hSlot]
        exact hAll _ (List.mem_append_right _ List.mem_cons_self)

/-- Over every run in the order of its slots the reward accrued is the rate for each slot of the
schedule in which there was a stake, and within the budget. -/
theorem emitted_eq_stakedSlots {a : CreatePool} {args : CreatePoolArgs} {actions : List Action}
    (hReach : w₀.Reachable R) (hCreate : createPool R env a args w₀ = .ok w₁)
    (hRun : ∀ x ∈ actions, x.OnPool a.pool [.startReward, .stake, .unstake, .claimReward,
      .compoundReward]) (hOrder : (slots actions).Pairwise (· ≤ ·)) :
    ∃ c s, (Run.run (next R) w₁ actions).poolConfig a.pool.config = some c ∧
      (Run.run (next R) w₁ actions).poolState a.pool.state = some s ∧
      s.shouldTotalPaid = c.rewardPerSlot *
        (c.stakedSlots s.lastRewardSlot (stakedUntil R a.pool w₁ actions)).card ∧
      s.shouldTotalPaid ≤ c.rewardPerSlot * (c.duration * slotsPerDay) := by
  obtain ⟨stakeMint, rewardMint, -, hHolds⟩ := createPool_holds hReach hCreate
  obtain ⟨p, hAfter, hScheduled, hEmission, -⟩ := run_emission (R := R) hHolds
    (Pool.fresh_scheduled rfl _) (Pool.fresh_emission _ _) (Nat.le_refl 0) hRun hOrder
  exact ⟨p.config, p.state, hAfter.config, hAfter.state, hEmission.should_eq, hScheduled.should_le⟩

namespace Localnet

def gappyRun : List Tx := [start 0 0, claim 0 5 0, stake 0 61 0 30, claim 0 111 0,
  stake 0 111 1 10, unstake 0 216005 1 4, claim 0 216100 0]

end Localnet

open Localnet in
theorem emitted_eq_stakedSlots_gappyRun : ∃ c s,
    (run (dayPoolCreated coin 9 216000) gappyRun).poolConfig (config 0) = some c ∧
      (run (dayPoolCreated coin 9 216000) gappyRun).poolState (state 0) = some s ∧
      s.shouldTotalPaid = c.rewardPerSlot * (c.stakedSlots s.lastRewardSlot (stakedUntil .reference
        (createAccounts coin 0).pool (dayPoolCreated coin 9 216000) (gappyRun.map .call))).card ∧
      s.shouldTotalPaid ≤ c.rewardPerSlot * (c.duration * slotsPerDay) :=
  emitted_eq_stakedSlots (reachable_run coin 9 [open_]) (dayPool_created coin 9 216000 rfl)
    (onPool_of_matched (by decide)) (by decide)

end StakingOnSolana
