import StakingOnSolana.SameSlot
import StakingOnSolana.UserRewards

/-! # Two runs that differ in what some users do

A run of successful calls is a run of the pool. Two runs of the pool that agree on the operations
of all users but some have the same accumulator at the end of each slot, as long as these users
end the slot with the same stake together; nobody else notices the difference.
-/
set_option autoImplicit false

namespace StakingOnSolana

open RewardShare

variable {R : Runtime} {w : World} {P : PoolAddress} {p q : Pool} {op : PoolOp} {ops ops' : List PoolOp}
  {u : Pubkey} {c : PoolConfig} {slot : Nat} {people : Finset Pubkey}

/-- The operation that a successful call does to the pool. -/
def Action.poolOp (P : PoolAddress) (c : PoolConfig) : Action → Option PoolOp
  | .call tx => if tx.instruction.Matched P then tx.instruction.op c tx.env.slot else none
  | .outside .. => none

def poolRun (p : Pool) (ops : List PoolOp) : Pool := Run.run Pool.step p ops

def poolPayouts (u : Pubkey) (p : Pool) (ops : List PoolOp) : Nat :=
  Run.tally Pool.step (fun p op => p.payout u op) p ops

theorem poolOp_of_passes {a : Action} (hPasses : a.Passes R P w) (hOk : a.Succeeds R w) :
    a.poolOp P c = none := by
  cases a with
  | outside bank mint => rfl
  | call tx =>
    rcases hPasses with hFails | hForeign
    · exact absurd hOk hFails
    · exact if_neg fun hMatched => hForeign.1 hMatched.poolConfigAccount

theorem accounts_of_passes {a : Action} (hPasses : a.Passes R P w) :
    (next R w a).userInfo (.userInfoPda P.config u) = w.userInfo (.userInfoPda P.config u) := by
  cases a with
  | outside bank mint => rfl
  | call tx =>
    rcases next_call R w tx with ⟨-, hSame⟩ | ⟨w', hOk, hNext⟩
    · rw [hSame]
    · rcases hPasses with hFails | hForeign
      · exact absurd ⟨w', hOk⟩ hFails
      · rw [hNext]
        exact Instruction.exec_userInfo hOk (hForeign.2.2 u)

theorem run_ops {kinds : List Instruction.Kind} {actions : List Action}
    (hKinds : Instruction.Kind.startReward ∉ kinds) (hHolds : w.Holds P p)
    (hRun : ∀ a ∈ actions, a.OnPool P kinds) (hOk : Run.Along (next R) (Action.Succeeds R) w actions) :
    (Run.run (next R) w actions).Holds P (poolRun p (actions.filterMap (Action.poolOp P p.config))) ∧
      Run.Along Pool.step (fun p op => p.Enabled op ∧ op.kind ∈ kinds) p
        (actions.filterMap (Action.poolOp P p.config)) ∧
      (∀ u, Run.tally (next R) (payouts R P u) w actions =
        poolPayouts u p (actions.filterMap (Action.poolOp P p.config))) ∧
      ∀ u, ((Run.run (next R) w actions).userInfo (.userInfoPda P.config u)).isSome =
        ((w.userInfo (.userInfoPda P.config u)).isSome ||
          (actions.filterMap (Action.poolOp P p.config)).any fun op => op.caller = some u) := by
  induction actions generalizing w p with
  | nil => exact ⟨hHolds, trivial, fun _ => rfl, fun u => (Bool.or_false _).symm⟩
  | cons a rest ih =>
    have hRest : ∀ b ∈ rest, b.OnPool P kinds := fun b hb => hRun b (List.mem_cons_of_mem a hb)
    rcases next_holds (R := R) hHolds (hRun a List.mem_cons_self) with
      ⟨hSame, hPasses⟩ | ⟨tx, op, rfl, hMatched, hKind, hExec, hOp, hEnabled, hAfter⟩
    · obtain ⟨hLast, hAlong, hPaid, hExists⟩ := ih hSame hRest hOk.2
      rw [List.filterMap_cons_none (poolOp_of_passes hPasses hOk.1)]
      refine ⟨hLast, hAlong, fun u => ?_, fun u => ?_⟩
      · rw [Run.tally, payouts_of_passes hPasses, Nat.zero_add, hPaid]
      · rw [← accounts_of_passes (R := R) hPasses]
        exact hExists u
    · obtain ⟨hLast, hAlong, hPaid, hExists⟩ := ih hAfter hRest hOk.2
      have hOpKind := Instruction.kind_op hOp
      have hNot : ∀ slot, op ≠ .start slot := by
        rintro slot rfl
        rw [← hOpKind] at hKind
        exact hKinds hKind
      have hCons : Action.poolOp P p.config (.call tx) = some op := (if_pos hMatched).trans hOp
      rw [(p.step_schedule hNot).1] at hLast hAlong hPaid hExists
      rw [List.filterMap_cons_some hCons]
      refine ⟨hLast, ⟨⟨hEnabled, hOpKind ▸ hKind⟩, hAlong⟩, fun u => ?_, fun u => ?_⟩
      · rw [Run.tally, payouts_of_ok hHolds hMatched hOp hExec, hPaid]
        rfl
      · have hCaller := Instruction.caller_op hOp
        have hStep := hExists u
        rw [List.any_cons]
        by_cases hu : op.caller = some u
        · have hNow := (exec_account hHolds hMatched (hCaller ▸ hu) hExec).2
          rw [hNow, Bool.true_or] at hStep
          rw [decide_eq_true hu, Bool.true_or, Bool.or_true]
          exact hStep
        · rw [exec_account_of_ne hHolds hMatched (hCaller ▸ hu) hExec] at hStep
          rw [decide_eq_false hu, Bool.false_or]
          exact hStep

def PoolOp.isOf (people : Finset Pubkey) (op : PoolOp) : Bool := op.caller.any (· ∈ people)

theorem PoolOp.isOf_iff : op.isOf people = true ↔ ∃ u ∈ people, op.caller = some u := by
  simp only [isOf, Option.any_eq_true, decide_eq_true_eq]
  exact ⟨fun ⟨u, hCaller, hu⟩ => ⟨u, hu, hCaller⟩, fun ⟨u, hu, hCaller⟩ => ⟨u, hCaller, hu⟩⟩

theorem PoolOp.caller_notMem (h : op.isOf people = false) (hCaller : op.caller = some u) : u ∉ people := by
  intro hu
  rw [PoolOp.isOf_iff.mpr ⟨u, hu, hCaller⟩] at h
  cases h

namespace Pool

@[simp] theorem staked_reopen (p : Pool) (u : Pubkey) (staked : Nat) :
    (p.reopen u staked).staked u = staked := by
  simp only [Pool.staked, reopen, Function.update_self]

theorem step_staked (hCaller : op.caller = some u) (hOp : p.Enabled op) :
    (p.step op).state.totalStaked + p.staked u = p.state.totalStaked + (p.step op).staked u := by
  cases op with
  | start slot => cases hCaller
  | stop slot => cases hCaller
  | stake slot v amount =>
    cases hCaller
    have hTotal : (p.step (.stake slot u amount)).state.totalStaked = p.state.totalStaked + amount :=
      p.step_totalStaked _ hOp
    rw [hTotal, Pool.step, staked_reopen]
    omega
  | unstake slot v amount =>
    cases hCaller
    have hTotal : (p.step (.unstake slot u amount)).state.totalStaked = p.state.totalStaked - amount :=
      p.step_totalStaked _ hOp
    obtain ⟨-, hLt, hLe, -⟩ := hOp
    rw [hTotal, Pool.step, staked_reopen]
    omega
  | claim slot v =>
    cases hCaller
    have hTotal : (p.step (.claim slot u)).state.totalStaked = p.state.totalStaked :=
      p.step_totalStaked _ hOp
    rw [hTotal]
    simp only [Pool.step]
    split
    · rfl
    · rw [staked_reopen]
  | compound slot v =>
    cases hCaller
    have hTotal : (p.step (.compound slot u)).state.totalStaked =
        p.state.totalStaked + p.config.credited ((p.tick slot).owed u) := p.step_totalStaked _ hOp
    rw [hTotal]
    simp only [Pool.step]
    split
    · rename_i hNone
      rw [owed_of_unstaked hNone, PoolConfig.credited_zero]
      rfl
    · rw [staked_reopen]
      omega

theorem sum_staked_step (hCaller : op.caller = some u) (hu : u ∈ people) :
    ∑ v ∈ people, (p.step op).staked v + p.staked u =
      ∑ v ∈ people, p.staked v + (p.step op).staked u := by
  have hRest : ∑ v ∈ people.erase u, (p.step op).staked v = ∑ v ∈ people.erase u, p.staked v := by
    refine Finset.sum_congr rfl fun v hv => ?_
    have hNot : op.caller ≠ some v := by
      rw [hCaller]
      exact fun hEq => Finset.ne_of_mem_erase hv (Option.some.inj hEq).symm
    exact congrArg UserInfo.stakedAmount (p.step_user_of_ne hNot)
  rw [← Finset.add_sum_erase people _ hu, ← Finset.add_sum_erase people p.staked hu, hRest]
  omega

/-- Brought up to date at the slot, the pools differ in the accounts of `people` and in what these
have at stake. -/
structure Mirrors (people : Finset Pubkey) (slot : Nat) (p q : Pool) : Prop where
  config : q.config = p.config
  lastRewardSlot : (q.tick slot).state.lastRewardSlot = (p.tick slot).state.lastRewardSlot
  accTokenPerShare : (q.tick slot).state.accTokenPerShare = (p.tick slot).state.accTokenPerShare
  total : q.state.totalStaked + ∑ u ∈ people, p.staked u = p.state.totalStaked + ∑ u ∈ people, q.staked u
  user : ∀ v, v ∉ people → q.user v = p.user v

theorem Mirrors.symm (h : Mirrors people slot p q) : Mirrors people slot q p :=
  ⟨h.config.symm, h.lastRewardSlot.symm, h.accTokenPerShare.symm, h.total.symm,
    fun v hv => (h.user v hv).symm⟩

theorem step_ticked (p : Pool) (hNot : ∀ slot, op ≠ .start slot) :
    (p.step op).config = p.config ∧
      ((p.step op).tick op.slot).state.lastRewardSlot = (p.tick op.slot).state.lastRewardSlot ∧
      ((p.step op).tick op.slot).state.accTokenPerShare = (p.tick op.slot).state.accTokenPerShare := by
  obtain ⟨hConfig, hLast⟩ := p.step_schedule hNot
  rw [p.tick_step hNot]
  exact ⟨hConfig, hLast, (p.step_accrual hNot).1⟩

theorem Mirrors.own (h : Mirrors people op.slot p q) (hNot : ∀ slot, op ≠ .start slot)
    (hOp : p.Enabled op) (hOwn : op.isOf people = true) :
    Mirrors people op.slot (p.step op) q ∧ ∀ v, v ∉ people → p.payout v op = 0 := by
  obtain ⟨u, hu, hCaller⟩ := PoolOp.isOf_iff.mp hOwn
  obtain ⟨hConfig, hLast, hAcc⟩ := p.step_ticked hNot
  have hOther : ∀ v, v ∉ people → op.caller ≠ some v := by
    rintro v hv hEq
    cases hCaller.symm.trans hEq
    exact hv hu
  refine ⟨⟨h.config.trans hConfig.symm, h.lastRewardSlot.trans hLast.symm,
    h.accTokenPerShare.trans hAcc.symm, ?_, fun v hv => ?_⟩, fun v hv => payout_of_ne (hOther v hv)⟩
  · have hStaked := step_staked hCaller hOp
    have hSum := sum_staked_step (p := p) hCaller hu
    have hTotal := h.total
    omega
  · rw [p.step_user_of_ne (hOther v hv)]
    exact h.user v hv

theorem Mirrors.step (h : Mirrors people op.slot p q) (hNot : ∀ slot, op ≠ .start slot)
    (hOp : p.Enabled op) (hOp' : q.Enabled op) (hOther : op.isOf people = false) :
    Mirrors people op.slot (p.step op) (q.step op) ∧
      ∀ v, v ∉ people → p.payout v op = q.payout v op := by
  obtain ⟨hConfig, hLast, hAcc⟩ := p.step_ticked hNot
  obtain ⟨hConfig', hLast', hAcc'⟩ := q.step_ticked hNot
  have hUser : ∀ v, v ∉ people → (q.step op).user v = (p.step op).user v := by
    intro v hv
    by_cases hCaller : op.caller = some v
    · exact step_user_congr hCaller h.config h.accTokenPerShare (h.user v hv)
    · rw [q.step_user_of_ne hCaller, p.step_user_of_ne hCaller]
      exact h.user v hv
  refine ⟨⟨?_, ?_, ?_, ?_, hUser⟩, fun v hv => ?_⟩
  · rw [hConfig, hConfig']
    exact h.config
  · rw [hLast, hLast']
    exact h.lastRewardSlot
  · rw [hAcc, hAcc']
    exact h.accTokenPerShare
  · have hSums : ∀ r : Pool, ∑ u ∈ people, (r.step op).staked u = ∑ u ∈ people, r.staked u := by
      refine fun r => Finset.sum_congr rfl fun u hu => congrArg UserInfo.stakedAmount ?_
      exact r.step_user_of_ne fun hCaller => PoolOp.caller_notMem hOther hCaller hu
    have hTotal := h.total
    rw [hSums, hSums]
    cases hCaller : op.caller with
    | none =>
      cases op with
      | start slot => exact absurd rfl (hNot slot)
      | stop slot => exact hTotal
      | _ => cases hCaller
    | some v =>
      have hv := PoolOp.caller_notMem hOther hCaller
      have hBefore : q.staked v = p.staked v := congrArg UserInfo.stakedAmount (h.user v hv)
      have hAfter : (q.step op).staked v = (p.step op).staked v :=
        congrArg UserInfo.stakedAmount (hUser v hv)
      have hLeft := step_staked hCaller hOp
      have hRight := step_staked hCaller hOp'
      omega
  · refine (payout_congr (fun u hCaller => ?_) v).symm
    exact owed_congr h.config h.accTokenPerShare (h.user u (PoolOp.caller_notMem hOther hCaller))

/-- An operation of the slot, which does not set the schedule. -/
structure At (slot : Nat) (p : Pool) (op : PoolOp) : Prop where
  enabled : p.Enabled op
  slot_eq : op.slot = slot
  not_start : ∀ slot, op ≠ .start slot

/-- In one slot it does not matter when and how often the people do something. -/
theorem Mirrors.run (h : Mirrors people slot p q) (hRun : Run.Along Pool.step (At slot) p ops)
    (hRun' : Run.Along Pool.step (At slot) q ops')
    (hSame : ops.filter (fun op => !op.isOf people) = ops'.filter fun op => !op.isOf people) :
    Mirrors people slot (poolRun p ops) (poolRun q ops') ∧
      ∀ v : { v // v ∉ people }, poolPayouts v p ops = poolPayouts v q ops' := by
  refine Run.rel_of_filter_eq (fun p q op hOwn hAt h => ?_) (fun p q op hOwn hAt h => ?_)
    (fun p q op hOther hAt hAt' h => ?_) h hRun hRun' hSame
  · obtain ⟨hOp, rfl, hNot⟩ := hAt
    obtain ⟨hNext, hNone⟩ := h.own hNot hOp (by simpa using hOwn)
    exact ⟨hNext, fun v => hNone v v.2⟩
  · obtain ⟨hOp, rfl, hNot⟩ := hAt
    obtain ⟨hNext, hNone⟩ := h.symm.own hNot hOp (by simpa using hOwn)
    exact ⟨hNext.symm, fun v => hNone v v.2⟩
  · obtain ⟨hOp, rfl, hNot⟩ := hAt
    obtain ⟨hNext, hSame⟩ := h.step hNot hOp hAt'.enabled (by simpa using hOther)
    exact ⟨hNext, fun v => hSame v v.2⟩

theorem tick_poolRun (hRun : Run.Along Pool.step (At slot) p ops) (h : ops = [] → p.tick slot = p) :
    (poolRun p ops).tick slot = poolRun p ops := by
  induction ops generalizing p with
  | nil => exact h rfl
  | cons op rest ih =>
    obtain ⟨-, hSlot, hNot⟩ := hRun.1
    exact ih hRun.2 fun _ => hSlot ▸ p.tick_step hNot

theorem acc_poolRun (hRun : Run.Along Pool.step (At slot) p ops) :
    ((poolRun p ops).tick slot).state.accTokenPerShare = (p.tick slot).state.accTokenPerShare := by
  induction ops generalizing p with
  | nil => rfl
  | cons op rest ih =>
    obtain ⟨-, hSlot, hNot⟩ := hRun.1
    obtain ⟨-, -, hAcc⟩ := p.step_ticked hNot
    rw [hSlot] at hAcc
    exact (ih hRun.2).trans hAcc

/-- At the end of a slot the pools differ in the accounts of `people` only. -/
structure Alike (people : Finset Pubkey) (p q : Pool) : Prop where
  config : q.config = p.config
  lastRewardSlot : q.state.lastRewardSlot = p.state.lastRewardSlot
  accTokenPerShare : q.state.accTokenPerShare = p.state.accTokenPerShare
  totalStaked : q.state.totalStaked = p.state.totalStaked
  stakes : ∑ u ∈ people, q.staked u = ∑ u ∈ people, p.staked u
  user : ∀ v, v ∉ people → q.user v = p.user v

theorem Alike.refl (people : Finset Pubkey) (p : Pool) : Alike people p p :=
  ⟨rfl, rfl, rfl, rfl, rfl, fun _ _ => rfl⟩

theorem Alike.mirrors (h : Alike people p q) (slot : Nat) : Mirrors people slot p q := by
  have hAccruing : q.state.accruing q.config slot = p.state.accruing p.config slot := by
    unfold PoolState.accruing
    rw [h.config, h.lastRewardSlot, h.totalStaked]
  refine ⟨h.config, ?_, ?_, ?_, h.user⟩
  · simp only [tick, PoolState.accrue, h.lastRewardSlot]
  · simp only [tick, PoolState.accrue, hAccruing]
    rw [h.accTokenPerShare, h.config, h.totalStaked]
  · rw [h.totalStaked, h.stakes]

/-- A slot in which both runs do something or neither does, and the people end with as much. -/
theorem Alike.run (h : Alike people p q) (hRun : Run.Along Pool.step (At slot) p ops)
    (hRun' : Run.Along Pool.step (At slot) q ops')
    (hSame : ops.filter (fun op => !op.isOf people) = ops'.filter fun op => !op.isOf people)
    (hNone : ops = [] ↔ ops' = []) (hStakes : ∑ u ∈ people, (poolRun q ops').staked u =
      ∑ u ∈ people, (poolRun p ops).staked u) :
    Alike people (poolRun p ops) (poolRun q ops') ∧
      ∀ v, v ∉ people → poolPayouts v p ops = poolPayouts v q ops' := by
  obtain ⟨hMirrors, hPaid⟩ := (h.mirrors slot).run hRun hRun' hSame
  refine ⟨?_, fun v hv => hPaid ⟨v, hv⟩⟩
  by_cases hNil : ops = []
  · obtain rfl := hNone.mp hNil
    obtain rfl := hNil
    exact h
  · have hTicked := tick_poolRun hRun fun hEq => absurd hEq hNil
    have hTicked' := tick_poolRun hRun' fun hEq => absurd (hNone.mpr hEq) hNil
    have hTotal := hMirrors.total
    refine ⟨hMirrors.config, ?_, ?_, ?_, hStakes, hMirrors.user⟩
    · have hLast := hMirrors.lastRewardSlot
      rwa [hTicked, hTicked'] at hLast
    · have hAcc := hMirrors.accTokenPerShare
      rwa [hTicked, hTicked'] at hAcc
    · omega

end Pool

end StakingOnSolana
