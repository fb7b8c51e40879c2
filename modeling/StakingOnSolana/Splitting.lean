import StakingOnSolana.TwoRuns

/-! # One position or several

Two runs that agree on the operations of all other users, where one fresh user stakes in the first
what several fresh users stake together in the second. The rewards of each are what his stake earns
from then on, however often he claims.
-/
set_option autoImplicit false

namespace StakingOnSolana

open RewardShare

variable {R : Runtime} {viewer : Env} {w : World} {P : PoolAddress} {p q : Pool} {op : PoolOp}
  {ops ops' : List PoolOp} {k u v : Pubkey} {c : PoolConfig} {slot : Nat} {people : Finset Pubkey}

def PoolOp.deposit (u : Pubkey) : PoolOp → Option Nat
  | .stake _ v amount => if v = u then some amount else none
  | .start _ | .stop _ | .unstake .. | .claim .. | .compound .. => none

namespace Pool

theorem step_staked_of_deposit
    (hOwn : op.caller = some u → op.kind ∈ [.stake, .claimReward]) :
    (p.step op).staked u = p.staked u + (op.deposit u).getD 0 := by
  by_cases hCaller : op.caller = some u
  · have hKind := hOwn hCaller
    cases op with
    | stake slot v amount =>
      cases hCaller
      rw [Pool.step, staked_reopen, PoolOp.deposit, if_pos rfl]
      rfl
    | claim slot v =>
      cases hCaller
      simp only [Pool.step]
      split
      · rfl
      · rw [staked_reopen]
        rfl
    | _ => simp [PoolOp.kind] at hKind
  · have hNone : op.deposit u = none := by
      cases op with
      | stake slot v amount => exact if_neg fun hEq => hCaller (congrArg some hEq)
      | _ => rfl
    rw [hNone]
    exact congrArg UserInfo.stakedAmount (p.step_user_of_ne hCaller)

theorem not_compound_of_kind {kinds : List Instruction.Kind} (hKinds : .compoundReward ∉ kinds)
    (hOwn : op.caller = some u → op.kind ∈ kinds) (slot : Nat) : op ≠ .compound slot u := by
  rintro rfl
  exact hKinds (hOwn rfl)

theorem rewardDebt_of_fresh (hFresh : p.user u = .zero) (slot : Nat) : (p.user u).rewardDebt =
    earned p.config.precisionFactor (p.tick slot).state.accTokenPerShare (p.staked u) := by
  have hNone : p.staked u = 0 := congrArg UserInfo.stakedAmount hFresh
  rw [hFresh, hNone, earned, Nat.zero_mul, Nat.zero_div]
  rfl

/-- In the slot of his stakes a user is paid nothing, and his debt is what his stake has earned. -/
theorem opening_user (hRun : Run.Along Pool.step (At slot) p ops)
    (hOwn : ∀ op ∈ ops, op.caller = some u → op.kind ∈ [.stake, .claimReward])
    (hDebt : (p.user u).rewardDebt =
      earned p.config.precisionFactor (p.tick slot).state.accTokenPerShare (p.staked u)) :
    (poolRun p ops).staked u = p.staked u + (ops.filterMap (PoolOp.deposit u)).sum ∧
      ((poolRun p ops).user u).rewardDebt = earned p.config.precisionFactor
        (p.tick slot).state.accTokenPerShare ((poolRun p ops).staked u) ∧
      poolPayouts u p ops = 0 := by
  induction ops generalizing p with
  | nil => exact ⟨rfl, hDebt, rfl⟩
  | cons op rest ih =>
    obtain ⟨-, hSlot, hNot⟩ := hRun.1
    have hKind := hOwn op List.mem_cons_self
    obtain ⟨hConfig, -, hAcc⟩ := p.step_ticked hNot
    have hTicked := p.tick_step hNot
    rw [hSlot] at hAcc hTicked
    have hStaked := step_staked_of_deposit (p := p) hKind
    have hNext : ((p.step op).user u).rewardDebt = earned p.config.precisionFactor
        (p.tick slot).state.accTokenPerShare ((p.step op).staked u) ∧ p.payout u op = 0 := by
      rcases step_user (hSlot.symm ▸ Nat.le_of_eq hDebt)
        (not_compound_of_kind (by decide) hKind) with ⟨hUser, hZero⟩ | hSettles
      · have hSame : (p.step op).staked u = p.staked u := congrArg UserInfo.stakedAmount hUser
        rw [hUser, hSame]
        exact ⟨hDebt, hZero⟩
      · have hPaid := hSettles.paid_eq
        have hNew := hSettles.debt_eq
        rw [← hAcc, hTicked]
        rw [← hAcc, hTicked] at hDebt
        exact ⟨hNew, by omega⟩
    obtain ⟨hLast, hLastDebt, hPaid⟩ := ih hRun.2 (fun op' hMem => hOwn op' (List.mem_cons_of_mem op hMem))
      (by rw [hConfig, hAcc]; exact hNext.1)
    refine ⟨?_, ?_, ?_⟩
    · change (poolRun (p.step op) rest).staked u = _
      rw [hLast, hStaked, List.filterMap_cons, Nat.add_assoc]
      cases op.deposit u with
      | none => rw [Option.getD_none, Nat.zero_add]
      | some amount => rw [Option.getD_some, List.sum_cons]
    · rw [hConfig, hAcc] at hLastDebt
      exact hLastDebt
    · change p.payout u op + poolPayouts u (p.step op) rest = 0
      rw [hNext.2, hPaid]

theorem precisionFactor_poolRun (p : Pool) (ops : List PoolOp) :
    (poolRun p ops).config.precisionFactor = p.config.precisionFactor := by
  induction ops generalizing p with
  | nil => rfl
  | cons op rest ih => exact (ih (p.step op)).trans (p.step_precisionFactor op)

theorem step_staked_of_claim (hOwn : op.caller = some u → op.kind = .claimReward) :
    (p.step op).staked u = p.staked u := by
  have hNone : op.deposit u = none := by
    cases op with
    | stake slot v amount =>
      refine if_neg ?_
      rintro rfl
      cases hOwn rfl
    | _ => rfl
  have hKind : op.caller = some u → op.kind ∈ [.stake, .claimReward] := by
    intro hCaller
    rw [hOwn hCaller]
    decide
  rw [step_staked_of_deposit hKind, hNone]
  rfl

theorem staked_of_claims (hOwn : ∀ op ∈ ops, op.caller = some u → op.kind = .claimReward) :
    (poolRun p ops).staked u = p.staked u := by
  induction ops generalizing p with
  | nil => rfl
  | cons op rest ih =>
    have hRest := ih (p := p.step op) fun op' hMem => hOwn op' (List.mem_cons_of_mem op hMem)
    exact hRest.trans (step_staked_of_claim (hOwn op List.mem_cons_self))

theorem payouts_of_claims (hOwn : ∀ op ∈ ops, op.caller = some u → op.kind = .claimReward)
    (hDebt : (p.user u).rewardDebt ≤
      earned p.config.precisionFactor p.state.accTokenPerShare (p.staked u)) :
    poolPayouts u p ops + (p.user u).rewardDebt = ((poolRun p ops).user u).rewardDebt ∧
      ((poolRun p ops).user u).rewardDebt ≤ earned p.config.precisionFactor
        (poolRun p ops).state.accTokenPerShare (p.staked u) := by
  induction ops generalizing p with
  | nil => exact ⟨Nat.zero_add _, hDebt⟩
  | cons op rest ih =>
    have hKind := hOwn op List.mem_cons_self
    have hTick : (p.user u).rewardDebt ≤ UserInfo.earned p.config (p.tick op.slot).state (p.staked u) :=
      hDebt.trans (earned_mono _ _ (PoolState.acc_le_accrue _ _ _))
    have hNot : ∀ slot, op ≠ .compound slot u := by
      rintro slot rfl
      cases hKind rfl
    have hSame := step_staked_of_claim (p := p) hKind
    have hNext : p.payout u op + (p.user u).rewardDebt = ((p.step op).user u).rewardDebt ∧
        ((p.step op).user u).rewardDebt ≤ earned p.config.precisionFactor
          (p.step op).state.accTokenPerShare (p.staked u) := by
      rcases step_user hTick hNot with ⟨hUser, hZero⟩ | hSettles
      · rw [hUser, hZero, Nat.zero_add]
        exact ⟨rfl, hDebt.trans (earned_mono _ _ (p.acc_le_step op))⟩
      · have hPaid := hSettles.paid_eq
        have hNew := hSettles.debt_eq
        rw [hSame] at hNew
        omega
    have hPrecision := p.step_precisionFactor op
    obtain ⟨hPaid, hBound⟩ := ih (p := p.step op)
      (fun op' hMem => hOwn op' (List.mem_cons_of_mem op hMem)) (by rw [hPrecision, hSame]; exact hNext.2)
    rw [hPrecision, hSame] at hBound
    refine ⟨?_, hBound⟩
    have hFirst := hNext.1
    change p.payout u op + poolPayouts u (p.step op) rest + (p.user u).rewardDebt =
      ((poolRun (p.step op) rest).user u).rewardDebt
    omega

theorem owed_tick_add_debt (hDebt : (p.user u).rewardDebt ≤
    earned p.config.precisionFactor p.state.accTokenPerShare (p.staked u)) (slot : Nat) :
    (p.tick slot).owed u + (p.user u).rewardDebt =
      earned p.config.precisionFactor (p.tick slot).state.accTokenPerShare (p.staked u) :=
  Nat.sub_add_cancel (hDebt.trans (earned_mono _ _ (PoolState.acc_le_accrue _ _ _)))

/-- A fresh user who stakes in one slot and claims later gets what his stake earns from then on. -/
theorem fresh_rewards {later : List PoolOp} (hFresh : p.user u = .zero)
    (hRun : Run.Along Pool.step (At slot) p ops)
    (hOpening : ∀ op ∈ ops, op.caller = some u → op.kind ∈ [.stake, .claimReward])
    (hLater : ∀ op ∈ later, op.caller = some u → op.kind = .claimReward) (slot' : Nat) :
    poolPayouts u p (ops ++ later) + ((poolRun p (ops ++ later)).tick slot').owed u +
        earned p.config.precisionFactor (p.tick slot).state.accTokenPerShare
          (ops.filterMap (PoolOp.deposit u)).sum =
      earned p.config.precisionFactor ((poolRun p (ops ++ later)).tick slot').state.accTokenPerShare
        (ops.filterMap (PoolOp.deposit u)).sum := by
  have hNone : p.staked u = 0 := congrArg UserInfo.stakedAmount hFresh
  obtain ⟨hStaked, hDebt, hFree⟩ := opening_user hRun hOpening (rewardDebt_of_fresh hFresh slot)
  rw [hNone, Nat.zero_add] at hStaked
  rw [hStaked] at hDebt
  have hPrecision := precisionFactor_poolRun p ops
  have hBound : ((poolRun p ops).user u).rewardDebt ≤ earned (poolRun p ops).config.precisionFactor
      (poolRun p ops).state.accTokenPerShare ((poolRun p ops).staked u) := by
    rw [hPrecision, hStaked, hDebt]
    by_cases hNil : ops = []
    · simp [hNil, earned]
    · rw [← acc_poolRun hRun, tick_poolRun hRun fun hEq => absurd hEq hNil]
  obtain ⟨hPaid, hLast⟩ := payouts_of_claims hLater hBound
  have hStake := staked_of_claims (p := poolRun p ops) hLater
  rw [hStaked] at hStake hLast
  rw [hPrecision] at hLast
  have hRuns : poolRun p (ops ++ later) = poolRun (poolRun p ops) later := Run.run_append _ _ _
  have hPayouts : poolPayouts u p (ops ++ later) = poolPayouts u (poolRun p ops) later :=
    (Run.tally_append _ _ _ _).trans ((congrArg (· + _) hFree).trans (Nat.zero_add _))
  have hFactor := (precisionFactor_poolRun (poolRun p ops) later).trans hPrecision
  have hOwed := owed_tick_add_debt (p := poolRun (poolRun p ops) later)
    (by rw [hFactor, hStake]; exact hLast) slot'
  rw [hFactor, hStake] at hOwed
  rw [hRuns, hPayouts]
  omega

end Pool

/-- What both runs do in one slot. -/
structure Round where
  slot : Nat
  first : List Action
  second : List Action

namespace Round

def firstOps (P : PoolAddress) (c : PoolConfig) (r : Round) : List PoolOp :=
  r.first.filterMap (Action.poolOp P c)

def secondOps (P : PoolAddress) (c : PoolConfig) (r : Round) : List PoolOp :=
  r.second.filterMap (Action.poolOp P c)

def kinds : List Instruction.Kind := [.stake, .unstake, .claimReward, .compoundReward, .stopReward]

/-- The calls of all users but `people` are the same in both runs and in the same order. -/
structure Agrees (P : PoolAddress) (c : PoolConfig) (people : Finset Pubkey) (r : Round) : Prop where
  onPool : ∀ a ∈ r.first ++ r.second, a.OnPool P kinds
  slot_eq : ∀ op ∈ r.firstOps P c ++ r.secondOps P c, op.slot = r.slot
  others : (r.firstOps P c).filter (fun op => !op.isOf people) =
    (r.secondOps P c).filter fun op => !op.isOf people

/-- The slot of the stakes: `single` stakes in the first run what `several` stake in the second. -/
structure Opens (P : PoolAddress) (c : PoolConfig) (single : Pubkey) (several : Finset Pubkey)
    (share : Pubkey → Nat) (r : Round) : Prop extends r.Agrees P c (insert single several) where
  own : ∀ op ∈ r.firstOps P c ++ r.secondOps P c, op.isOf (insert single several) = true →
    op.kind ∈ [.stake, .claimReward]
  stake : ∀ u ∈ insert single several, (r.firstOps P c).filterMap (PoolOp.deposit u) =
    if u = single then [∑ u ∈ several, share u] else []
  stakes : ∀ u ∈ insert single several, (r.secondOps P c).filterMap (PoolOp.deposit u) =
    if u ∈ several then [share u] else []

/-- A later slot: `single` claims in the first run and all of `several` in the second, or nobody
of them does anything. -/
structure Claims (P : PoolAddress) (c : PoolConfig) (single : Pubkey) (several : Finset Pubkey)
    (r : Round) : Prop extends r.Agrees P c (insert single several) where
  own : ∀ op ∈ r.firstOps P c ++ r.secondOps P c, op.isOf (insert single several) = true →
    op.kind = .claimReward
  claims : ((∃ op ∈ r.firstOps P c, op.caller = some single) ∧
      ∀ u ∈ several, ∃ op ∈ r.secondOps P c, op.caller = some u) ∨
    ∀ op ∈ r.firstOps P c ++ r.secondOps P c, op.isOf (insert single several) = false

variable {r : Round} {single : Pubkey} {several : Finset Pubkey} {share : Pubkey → Nat}

theorem Agrees.first_eq (h : r.Agrees P c people)
    (hNone : ∀ op ∈ r.firstOps P c ++ r.secondOps P c, op.isOf people = false) :
    r.firstOps P c = r.secondOps P c := by
  have hSame := h.others
  have hKept : ∀ ops : List PoolOp, (∀ op ∈ ops, op.isOf people = false) →
      ops.filter (fun op => !op.isOf people) = ops := by
    intro ops hOps
    refine List.filter_eq_self.mpr fun op hMem => ?_
    rw [hOps op hMem]
    rfl
  rwa [hKept _ fun op hMem => hNone op (List.mem_append_left _ hMem),
    hKept _ fun op hMem => hNone op (List.mem_append_right _ hMem)] at hSame

theorem Claims.nil_iff (h : r.Claims P c single several) (hSome : several.Nonempty) :
    r.firstOps P c = [] ↔ r.secondOps P c = [] := by
  rcases h.claims with ⟨⟨op, hMem, -⟩, hAll⟩ | hNone
  · obtain ⟨u, hu⟩ := hSome
    obtain ⟨op', hMem', -⟩ := hAll u hu
    exact iff_of_false (List.ne_nil_of_mem hMem) (List.ne_nil_of_mem hMem')
  · rw [h.first_eq hNone]

theorem Opens.nil_iff (h : r.Opens P c single several share) (hSome : several.Nonempty) :
    r.firstOps P c = [] ↔ r.secondOps P c = [] := by
  obtain ⟨u, hu⟩ := hSome
  have hFirst := h.stake single (Finset.mem_insert_self _ _)
  have hSecond := h.stakes u (Finset.mem_insert_of_mem hu)
  rw [if_pos rfl] at hFirst
  rw [if_pos hu] at hSecond
  apply iff_of_false
  · intro hNil
    rw [hNil] at hFirst
    cases hFirst
  · intro hNil
    rw [hNil] at hSecond
    cases hSecond

end Round

theorem along_at {kinds : List Instruction.Kind} (hKinds : Instruction.Kind.startReward ∉ kinds)
    (hSlot : ∀ op ∈ ops, op.slot = slot)
    (hRun : Run.Along Pool.step (fun p op => p.Enabled op ∧ op.kind ∈ kinds) p ops) :
    Run.Along Pool.step (Pool.At slot) p ops := by
  have hSlots : Run.Along Pool.step (fun _ op => op.slot = slot) p ops :=
    Run.along_of_forall fun op hMem _ => hSlot op hMem
  refine (hRun.and hSlots).mono fun p op => ?_
  rintro ⟨⟨hOp, hKind⟩, hSlot⟩
  refine ⟨hOp, hSlot, ?_⟩
  rintro slot rfl
  exact hKinds hKind

theorem Round.Claims.staked {r : Round} {single : Pubkey} {several : Finset Pubkey}
    (h : r.Claims P c single several) (hOps : ∀ op ∈ ops, op ∈ r.firstOps P c ++ r.secondOps P c)
    (hu : u ∈ insert single several) : (poolRun p ops).staked u = p.staked u := by
  refine Pool.staked_of_claims fun op hMem hCaller => h.own op (hOps op hMem) ?_
  exact PoolOp.isOf_iff.mpr ⟨u, hu, hCaller⟩

/-- By induction on the rounds: the pools stay alike, and the others are paid the same. -/
theorem Pool.Alike.rounds {single : Pubkey} {several : Finset Pubkey} {rounds : List Round}
    (h : Pool.Alike (insert single several) p q) (hSome : several.Nonempty)
    (hRounds : ∀ r ∈ rounds, r.Claims P c single several)
    (hRun : Run.Along Pool.step (fun p op => p.Enabled op ∧ op.kind ∈ Round.kinds) p
      (rounds.flatMap (Round.firstOps P c)))
    (hRun' : Run.Along Pool.step (fun p op => p.Enabled op ∧ op.kind ∈ Round.kinds) q
      (rounds.flatMap (Round.secondOps P c))) :
    Pool.Alike (insert single several) (poolRun p (rounds.flatMap (Round.firstOps P c)))
        (poolRun q (rounds.flatMap (Round.secondOps P c))) ∧
      ∀ v, v ∉ insert single several → poolPayouts v p (rounds.flatMap (Round.firstOps P c)) =
        poolPayouts v q (rounds.flatMap (Round.secondOps P c)) := by
  induction rounds generalizing p q with
  | nil => exact ⟨h, fun _ _ => rfl⟩
  | cons r rest ih =>
    have hClaims := hRounds r List.mem_cons_self
    simp only [List.flatMap_cons] at hRun hRun' ⊢
    obtain ⟨hNow, hLater⟩ := Run.along_append.mp hRun
    obtain ⟨hNow', hLater'⟩ := Run.along_append.mp hRun'
    have hStakes : ∑ u ∈ insert single several, (poolRun q (r.secondOps P c)).staked u =
        ∑ u ∈ insert single several, (poolRun p (r.firstOps P c)).staked u := by
      have hLeft : ∀ u ∈ insert single several, (poolRun p (r.firstOps P c)).staked u = p.staked u :=
        fun u hu => hClaims.staked (fun op hMem => List.mem_append_left _ hMem) hu
      have hRight : ∀ u ∈ insert single several, (poolRun q (r.secondOps P c)).staked u = q.staked u :=
        fun u hu => hClaims.staked (fun op hMem => List.mem_append_right _ hMem) hu
      rw [Finset.sum_congr rfl hLeft, Finset.sum_congr rfl hRight]
      exact h.stakes
    obtain ⟨hAlike, hPaid⟩ := h.run
      (along_at (by decide) (fun op hMem => hClaims.slot_eq op (List.mem_append_left _ hMem)) hNow)
      (along_at (by decide) (fun op hMem => hClaims.slot_eq op (List.mem_append_right _ hMem)) hNow')
      hClaims.others (hClaims.nil_iff hSome) hStakes
    obtain ⟨hLast, hRest⟩ := ih hAlike (fun r' hMem => hRounds r' (List.mem_cons_of_mem r hMem))
      hLater hLater'
    simp only [poolRun, Run.run_append]
    refine ⟨hLast, fun v hv => ?_⟩
    simp only [poolPayouts, Run.tally_append]
    exact congrArg₂ (· + ·) (hPaid v hv) (hRest v hv)

section Split

variable {opening : Round} {rounds : List Round} {single : Pubkey} {several : Finset Pubkey}
  {share : Pubkey → Nat}

theorem Pool.Alike.opens (hOpening : opening.Opens P c single several share)
    (hSome : several.Nonempty) (hFresh : ∀ u ∈ insert single several, p.user u = .zero)
    (hRun : Run.Along Pool.step (fun p op => p.Enabled op ∧ op.kind ∈ Round.kinds) p
      (opening.firstOps P c))
    (hRun' : Run.Along Pool.step (fun p op => p.Enabled op ∧ op.kind ∈ Round.kinds) p
      (opening.secondOps P c)) :
    Pool.Alike (insert single several) (poolRun p (opening.firstOps P c))
        (poolRun p (opening.secondOps P c)) ∧
      ∀ v, v ∉ insert single several → poolPayouts v p (opening.firstOps P c) =
        poolPayouts v p (opening.secondOps P c) := by
  have hAt := along_at (by decide)
    (fun op hMem => hOpening.slot_eq op (List.mem_append_left _ hMem)) hRun
  have hAt' := along_at (by decide)
    (fun op hMem => hOpening.slot_eq op (List.mem_append_right _ hMem)) hRun'
  have hStaked : ∀ ops, Run.Along Pool.step (Pool.At opening.slot) p ops →
      (∀ op ∈ ops, op ∈ opening.firstOps P c ++ opening.secondOps P c) →
      ∀ u ∈ insert single several, (poolRun p ops).staked u = (ops.filterMap (PoolOp.deposit u)).sum := by
    intro ops hOps hSub u hu
    have hNone : p.staked u = 0 := congrArg UserInfo.stakedAmount (hFresh u hu)
    have hOpened := (Pool.opening_user hOps (fun op hMem hCaller => hOpening.own op (hSub op hMem)
      (PoolOp.isOf_iff.mpr ⟨u, hu, hCaller⟩)) (Pool.rewardDebt_of_fresh (hFresh u hu) _)).1
    rwa [hNone, Nat.zero_add] at hOpened
  have hLeft : ∀ u ∈ insert single several, (poolRun p (opening.firstOps P c)).staked u =
      if u = single then ∑ u ∈ several, share u else 0 := by
    intro u hu
    rw [hStaked _ hAt (fun op hMem => List.mem_append_left _ hMem) u hu, hOpening.stake u hu]
    split <;> rfl
  have hRight : ∀ u ∈ insert single several, (poolRun p (opening.secondOps P c)).staked u =
      if u ∈ several then share u else 0 := by
    intro u hu
    rw [hStaked _ hAt' (fun op hMem => List.mem_append_right _ hMem) u hu, hOpening.stakes u hu]
    split <;> rfl
  refine (Pool.Alike.refl _ p).run hAt hAt' hOpening.others (hOpening.nil_iff hSome) ?_
  rw [Finset.sum_congr rfl hLeft, Finset.sum_congr rfl hRight, Finset.sum_ite_mem,
    Finset.inter_eq_right.mpr (Finset.subset_insert _ _), Finset.sum_ite_eq',
    if_pos (Finset.mem_insert_self _ _)]

theorem Pool.split_rewards {ops later : List PoolOp} (hFresh : p.user u = .zero)
    (hu : u ∈ insert single several) (hOpening : opening.Opens P c single several share)
    (hRounds : ∀ r ∈ rounds, r.Claims P c single several)
    (hOps : ∀ op ∈ ops, op ∈ opening.firstOps P c ++ opening.secondOps P c)
    (hLater : ∀ op ∈ later, ∃ r ∈ rounds, op ∈ r.firstOps P c ++ r.secondOps P c)
    (hRun : Run.Along Pool.step (fun p op => p.Enabled op ∧ op.kind ∈ Round.kinds) p ops) (slot : Nat) :
    poolPayouts u p (ops ++ later) + ((poolRun p (ops ++ later)).tick slot).owed u +
        earned p.config.precisionFactor (p.tick opening.slot).state.accTokenPerShare
          (ops.filterMap (PoolOp.deposit u)).sum =
      earned p.config.precisionFactor ((poolRun p (ops ++ later)).tick slot).state.accTokenPerShare
        (ops.filterMap (PoolOp.deposit u)).sum := by
  have hOwn : ∀ op : PoolOp, op.caller = some u → op.isOf (insert single several) = true :=
    fun op hCaller => PoolOp.isOf_iff.mpr ⟨u, hu, hCaller⟩
  refine Pool.fresh_rewards hFresh (along_at (by decide) (fun op hMem => hOpening.slot_eq op (hOps op hMem))
    hRun) (fun op hMem hCaller => hOpening.own op (hOps op hMem) (hOwn op hCaller))
    (fun op hMem hCaller => ?_) slot
  obtain ⟨r, hr, hOp⟩ := hLater op hMem
  exact (hRounds r hr).own op hOp (hOwn op hCaller)

theorem any_caller_eq (hv : v ∉ people)
    (hSame : ops.filter (fun op => !op.isOf people) = ops'.filter fun op => !op.isOf people) :
    (ops.any fun op => op.caller = some v) = ops'.any fun op => op.caller = some v := by
  have hKept : ∀ ops : List PoolOp, (ops.any fun op => op.caller = some v) =
      (ops.filter fun op => !op.isOf people).any fun op => op.caller = some v := by
    intro ops
    rw [List.any_filter]
    refine congrArg (List.any ops) (funext fun op => ?_)
    by_cases hCaller : op.caller = some v
    · have hOther : op.isOf people = false := by
        rw [← Bool.not_eq_true, PoolOp.isOf_iff]
        rintro ⟨u, hu, hEq⟩
        cases hCaller.symm.trans hEq
        exact hv hu
      rw [hOther]
      rfl
    · rw [decide_eq_false hCaller, Bool.and_false]
  rw [hKept ops, hKept ops', hSame]

theorem Pool.split_alike (hSome : several.Nonempty) (hFresh : ∀ u ∈ insert single several, p.user u = .zero)
    (hOpening : opening.Opens P c single several share)
    (hRounds : ∀ r ∈ rounds, r.Claims P c single several)
    (hRun : Run.Along Pool.step (fun p op => p.Enabled op ∧ op.kind ∈ Round.kinds) p
      ((opening :: rounds).flatMap (Round.firstOps P c)))
    (hRun' : Run.Along Pool.step (fun p op => p.Enabled op ∧ op.kind ∈ Round.kinds) p
      ((opening :: rounds).flatMap (Round.secondOps P c))) :
    Pool.Alike (insert single several) (poolRun p ((opening :: rounds).flatMap (Round.firstOps P c)))
        (poolRun p ((opening :: rounds).flatMap (Round.secondOps P c))) ∧
      ∀ v, v ∉ insert single several →
        poolPayouts v p ((opening :: rounds).flatMap (Round.firstOps P c)) =
          poolPayouts v p ((opening :: rounds).flatMap (Round.secondOps P c)) := by
  simp only [List.flatMap_cons] at hRun hRun' ⊢
  obtain ⟨hNow, hLater⟩ := Run.along_append.mp hRun
  obtain ⟨hNow', hLater'⟩ := Run.along_append.mp hRun'
  obtain ⟨hAlike, hPaid⟩ := Pool.Alike.opens hOpening hSome hFresh hNow hNow'
  obtain ⟨hLast, hRest⟩ := hAlike.rounds hSome hRounds hLater hLater'
  simp only [poolRun, Run.run_append]
  refine ⟨hLast, fun v hv => ?_⟩
  simp only [poolPayouts, Run.tally_append]
  exact congrArg₂ (· + ·) (hPaid v hv) (hRest v hv)

/-- The errors of rounding at the beginning and at the end are all that is left: those in between
telescope in the debts. -/
theorem Pool.split_dust (hSome : several.Nonempty) (hFresh : ∀ u ∈ insert single several, p.user u = .zero)
    (hOpening : opening.Opens P c single several share)
    (hRounds : ∀ r ∈ rounds, r.Claims P c single several)
    (hRun : Run.Along Pool.step (fun p op => p.Enabled op ∧ op.kind ∈ Round.kinds) p
      ((opening :: rounds).flatMap (Round.firstOps P c)))
    (hRun' : Run.Along Pool.step (fun p op => p.Enabled op ∧ op.kind ∈ Round.kinds) p
      ((opening :: rounds).flatMap (Round.secondOps P c)))
    {alone : Nat} {part : Pubkey → Nat} (slot : Nat)
    (hAlone : alone = poolPayouts single p ((opening :: rounds).flatMap (Round.firstOps P c)) +
      ((poolRun p ((opening :: rounds).flatMap (Round.firstOps P c))).tick slot).owed single)
    (hPart : ∀ u ∈ several,
      part u = poolPayouts u p ((opening :: rounds).flatMap (Round.secondOps P c)) +
        ((poolRun p ((opening :: rounds).flatMap (Round.secondOps P c))).tick slot).owed u) :
    alone ≤ ∑ u ∈ several, part u + (several.card - 1) ∧
      ∑ u ∈ several, part u ≤ alone + (several.card - 1) := by
  have hAcc := ((Pool.split_alike hSome hFresh hOpening hRounds hRun hRun').1.mirrors slot).accTokenPerShare
  simp only [List.flatMap_cons] at hRun hRun' hAlone hPart hAcc
  have hSingle := Finset.mem_insert_self single several
  have hWhole := Pool.split_rewards (hFresh single hSingle) hSingle hOpening hRounds
    (fun op hMem => List.mem_append_left _ hMem) (fun op hMem => by
      obtain ⟨r, hr, hOp⟩ := List.mem_flatMap.mp hMem
      exact ⟨r, hr, List.mem_append_left _ hOp⟩) (Run.along_append.mp hRun).1 slot
  rw [hOpening.stake single hSingle, if_pos rfl, List.sum_singleton, ← hAlone] at hWhole
  have hParts : ∀ u ∈ several, part u +
      earned p.config.precisionFactor (p.tick opening.slot).state.accTokenPerShare (share u) =
        earned p.config.precisionFactor ((poolRun p (opening.firstOps P c ++
          rounds.flatMap (Round.firstOps P c))).tick slot).state.accTokenPerShare (share u) := by
    intro u hu
    have hMem := Finset.mem_insert_of_mem (b := single) hu
    have hOne := Pool.split_rewards (hFresh u hMem) hMem hOpening hRounds
      (fun op hOp => List.mem_append_right _ hOp) (fun op hOp => by
        obtain ⟨r, hr, hIn⟩ := List.mem_flatMap.mp hOp
        exact ⟨r, hr, List.mem_append_right _ hIn⟩) (Run.along_append.mp hRun').1 slot
    rw [hOpening.stakes u hMem, if_pos hu, List.sum_singleton, ← hPart u hu, hAcc] at hOne
    exact hOne
  have hSum := Finset.sum_congr rfl hParts
  rw [Finset.sum_add_distrib] at hSum
  have hFirst := sum_earned p.config.precisionFactor (p.tick opening.slot).state.accTokenPerShare
    several share
  have hLast := sum_earned p.config.precisionFactor ((poolRun p (opening.firstOps P c ++
    rounds.flatMap (Round.firstOps P c))).tick slot).state.accTokenPerShare several share
  omega

theorem rounds_ops {side : Round → List Action} (hHolds : w.Holds P p)
    (hOn : ∀ r ∈ rounds, ∀ a ∈ side r, a.OnPool P Round.kinds)
    (hOk : Run.Along (next R) (Action.Succeeds R) w (rounds.flatMap side)) :
    ∃ ops, ops = rounds.flatMap (fun r => (side r).filterMap (Action.poolOp P p.config)) ∧
      (Run.run (next R) w (rounds.flatMap side)).Holds P (poolRun p ops) ∧
      Run.Along Pool.step (fun p op => p.Enabled op ∧ op.kind ∈ Round.kinds) p ops ∧
      (∀ u, Run.tally (next R) (payouts R P u) w (rounds.flatMap side) = poolPayouts u p ops) ∧
      ∀ u, ((Run.run (next R) w (rounds.flatMap side)).userInfo (.userInfoPda P.config u)).isSome =
        ((w.userInfo (.userInfoPda P.config u)).isSome || ops.any fun op => op.caller = some u) := by
  have hKinds : Instruction.Kind.startReward ∉ Round.kinds := by decide
  refine ⟨_, List.filterMap_flatMap, run_ops hKinds hHolds (fun a ha => ?_) hOk⟩
  obtain ⟨r, hr, hMem⟩ := List.mem_flatMap.mp ha
  exact hOn r hr a hMem

theorem account_eq {account account' : Option UserInfo} (hSome : account'.isSome = account.isSome)
    (hInfo : account'.getD .zero = account.getD .zero) : account' = account := by
  cases account with
  | none => exact Option.isNone_iff_eq_none.mp (Option.isSome_eq_false_iff.mp hSome)
  | some info =>
    obtain ⟨info', rfl⟩ := Option.isSome_iff_exists.mp hSome
    exact congrArg some hInfo

/-- Splitting a position gains or loses less than one unit for each part but one, however often the
parts are claimed, and nobody else's rewards change. By `payouts_transferred` the payouts, which are
read off the events, are what the first token transfer of each call moves. -/
theorem splitting_gains_dust {pending : Nat} {pendings : Pubkey → Nat} (hReach : w.Reachable R)
    (hConfig : w.poolConfig k = some c) (hSome : several.Nonempty)
    (hFresh : ∀ u ∈ insert single several, w.userInfo (.userInfoPda k u) = none)
    (hOpening : opening.Opens (c.address k) c single several share)
    (hRounds : ∀ r ∈ rounds, r.Claims (c.address k) c single several)
    (hFirst : Run.Along (next R) (Action.Succeeds R) w ((opening :: rounds).flatMap Round.first))
    (hSecond : Run.Along (next R) (Action.Succeeds R) w ((opening :: rounds).flatMap Round.second))
    (hView : pendingReward viewer ((c.address k).view single)
      (Run.run (next R) w ((opening :: rounds).flatMap Round.first)) = .ok pending)
    (hViews : ∀ u ∈ several, pendingReward viewer ((c.address k).view u)
      (Run.run (next R) w ((opening :: rounds).flatMap Round.second)) = .ok (pendings u)) :
    (Run.tally (next R) (payouts R (c.address k) single) w ((opening :: rounds).flatMap Round.first) +
        pending ≤ ∑ u ∈ several, (Run.tally (next R) (payouts R (c.address k) u) w
          ((opening :: rounds).flatMap Round.second) + pendings u) + (several.card - 1)) ∧
      (∑ u ∈ several, (Run.tally (next R) (payouts R (c.address k) u) w
          ((opening :: rounds).flatMap Round.second) + pendings u) ≤
        Run.tally (next R) (payouts R (c.address k) single) w
          ((opening :: rounds).flatMap Round.first) + pending + (several.card - 1)) ∧
      ∀ v, v ∉ insert single several →
        Run.tally (next R) (payouts R (c.address k) v) w ((opening :: rounds).flatMap Round.first) =
          Run.tally (next R) (payouts R (c.address k) v) w ((opening :: rounds).flatMap Round.second) ∧
        pendingReward viewer ((c.address k).view v)
            (Run.run (next R) w ((opening :: rounds).flatMap Round.second)) =
          pendingReward viewer ((c.address k).view v)
            (Run.run (next R) w ((opening :: rounds).flatMap Round.first)) := by
  obtain ⟨p, hHolds, rfl⟩ := World.Holds.of_reachable hReach hConfig
  have hZero : ∀ u ∈ insert single several, p.user u = .zero := by
    intro u hu
    have hUser := hHolds.user u
    change (w.userInfo (.userInfoPda k u)).getD .zero = p.user u at hUser
    rw [hFresh u hu] at hUser
    exact hUser.symm
  have hOn : ∀ r ∈ opening :: rounds, r.Agrees (p.config.address k) p.config (insert single several) := by
    intro r hr
    rcases List.mem_cons.mp hr with rfl | hMem
    · exact hOpening.toAgrees
    · exact (hRounds r hMem).toAgrees
  obtain ⟨_, rfl, hQ, hRun, hPaid, hExists⟩ := rounds_ops (R := R) hHolds
    (fun r hr a ha => (hOn r hr).onPool a (List.mem_append_left _ ha)) hFirst
  obtain ⟨_, rfl, hQ', hRun', hPaid', hExists'⟩ := rounds_ops (R := R) hHolds
    (fun r hr a ha => (hOn r hr).onPool a (List.mem_append_right _ ha)) hSecond
  obtain ⟨hAlike, hOthers⟩ := Pool.split_alike hSome hZero hOpening hRounds hRun hRun'
  rw [← and_assoc]
  constructor
  · refine Pool.split_dust hSome hZero hOpening hRounds hRun hRun' viewer.slot ?_ fun u hu => ?_
    · rw [hPaid, (pendingReward_holds hQ hView).2]
      rfl
    · rw [hPaid', (pendingReward_holds hQ' (hViews u hu)).2]
      rfl
  · intro v hv
    refine ⟨?_, ?_⟩
    · rw [hPaid, hPaid']
      exact hOthers v hv
    · have hSame : ((opening :: rounds).flatMap (Round.firstOps (p.config.address k) p.config)).filter
          (fun op => !op.isOf (insert single several)) = ((opening :: rounds).flatMap
            (Round.secondOps (p.config.address k) p.config)).filter
              fun op => !op.isOf (insert single several) := by
        rw [List.filter_flatMap, List.filter_flatMap]
        exact List.flatMap_congr fun r hr => (hOn r hr).others
      have hUser : (Run.run (next R) w ((opening :: rounds).flatMap Round.second)).userInfo
          (.userInfoPda k v) = (Run.run (next R) w ((opening :: rounds).flatMap Round.first)).userInfo
          (.userInfoPda k v) := by
        have hUser := (hQ'.user v).trans ((hAlike.user v hv).trans (hQ.user v).symm)
        have hSome := (hExists' v).trans ((congrArg _ (any_caller_eq hv hSame).symm).trans (hExists v).symm)
        exact account_eq hSome hUser
      exact pendingReward_congr hUser (hQ.config) (hAlike.config ▸ hQ'.config) hQ.state hQ'.state
        hAlike.totalStaked hAlike.lastRewardSlot hAlike.accTokenPerShare

end Split

theorem agrees_of_matched {r : Round} {first second : List Tx} (hFirst : r.first = first.map .call)
    (hSecond : r.second = second.map .call)
    (hTxs : ∀ tx ∈ first ++ second, tx.instruction.Matched P ∧ tx.instruction.kind ∈ Round.kinds) :
    ∀ a ∈ r.first ++ r.second, a.OnPool P Round.kinds := by
  rw [hFirst, hSecond, ← List.map_append]
  exact onPool_of_matched hTxs

namespace Localnet

def splitPool : World :=
  run (genesis coin 6) [open_, create coin 0 (dayPool 216000), start 0 0, stake 0 11 0 10]

def splitConfig : PoolConfig :=
  { (createAccounts coin 0).poolConfig (dayPool 216000) ⟨9⟩ ⟨6⟩ with startSlot := 10, endSlot := 216010 }

def part (u : Pubkey) : Nat := if u = user 2 then 3 else 4

def splitStakes : Round := ⟨21, [stake 0 21 1 7, stake 0 21 0 5].map .call,
  [stake 0 21 2 3, stake 0 21 0 5, stake 0 21 3 4].map .call⟩

def splitClaims : List Round := [
  ⟨30, [claim 0 30 1].map .call, [claim 0 30 3, claim 0 30 2].map .call⟩,
  ⟨41, [claim 0 41 0].map .call, [claim 0 41 0].map .call⟩,
  ⟨50, [claim 0 50 0, claim 0 50 1].map .call, [claim 0 50 3, claim 0 50 0, claim 0 50 2].map .call⟩]

end Localnet

open Localnet in
theorem splitStakes_opens :
    splitStakes.Opens (splitConfig.address (config 0)) splitConfig (user 1) {user 2, user 3} part := by
  constructor
  · constructor
    · exact agrees_of_matched rfl rfl (by decide)
    · decide
    · rfl
  · decide
  · decide
  · decide

open Localnet in
theorem splitClaims_claims : ∀ r ∈ splitClaims,
    r.Claims (splitConfig.address (config 0)) splitConfig (user 1) {user 2, user 3} := by
  intro r hr
  simp only [splitClaims, List.mem_cons, List.not_mem_nil, or_false] at hr
  rcases hr with rfl | rfl | rfl
  · refine ⟨⟨agrees_of_matched rfl rfl (by decide), by decide, rfl⟩, by decide, by decide⟩
  · refine ⟨⟨agrees_of_matched rfl rfl (by decide), by decide, rfl⟩, by decide, by decide⟩
  · refine ⟨⟨agrees_of_matched rfl rfl (by decide), by decide, rfl⟩, by decide, by decide⟩

open Localnet in
theorem splitting_gains_dust_splitPool :
    (Run.tally (next .reference) (payouts .reference (splitConfig.address (config 0)) (user 1)) splitPool
          ((splitStakes :: splitClaims).flatMap Round.first) + 16 ≤
        ∑ u ∈ {user 2, user 3}, (Run.tally (next .reference)
          (payouts .reference (splitConfig.address (config 0)) u) splitPool
            ((splitStakes :: splitClaims).flatMap Round.second) + (if u = user 2 then 7 else 9)) + 1) ∧
      (∑ u ∈ {user 2, user 3}, (Run.tally (next .reference)
          (payouts .reference (splitConfig.address (config 0)) u) splitPool
            ((splitStakes :: splitClaims).flatMap Round.second) + (if u = user 2 then 7 else 9)) ≤
        Run.tally (next .reference) (payouts .reference (splitConfig.address (config 0)) (user 1)) splitPool
          ((splitStakes :: splitClaims).flatMap Round.first) + 16 + 1) ∧
      ∀ v, v ∉ ({user 1, user 2, user 3} : Finset Pubkey) →
        Run.tally (next .reference) (payouts .reference (splitConfig.address (config 0)) v) splitPool
            ((splitStakes :: splitClaims).flatMap Round.first) =
          Run.tally (next .reference) (payouts .reference (splitConfig.address (config 0)) v) splitPool
            ((splitStakes :: splitClaims).flatMap Round.second) ∧
        pendingReward (Localnet.env 100 []) ((splitConfig.address (config 0)).view v)
            (Run.run (next .reference) splitPool ((splitStakes :: splitClaims).flatMap Round.second)) =
          pendingReward (Localnet.env 100 []) ((splitConfig.address (config 0)).view v)
            (Run.run (next .reference) splitPool ((splitStakes :: splitClaims).flatMap Round.first)) :=
  have hConfig : splitPool.poolConfig (config 0) = some splitConfig := rfl
  have hSome : ({user 2, user 3} : Finset Pubkey).Nonempty := ⟨user 2, by decide⟩
  have hView : pendingReward (Localnet.env 100 []) ((splitConfig.address (config 0)).view (user 1))
      (Run.run (next .reference) splitPool ((splitStakes :: splitClaims).flatMap Round.first)) =
        .ok 16 := rfl
  have hViews : ∀ u ∈ ({user 2, user 3} : Finset Pubkey),
      pendingReward (Localnet.env 100 []) ((splitConfig.address (config 0)).view u)
        (Run.run (next .reference) splitPool ((splitStakes :: splitClaims).flatMap Round.second)) =
          .ok (if u = user 2 then 7 else 9) := by
    simp only [Finset.mem_insert, Finset.mem_singleton, forall_eq_or_imp, forall_eq]
    exact ⟨rfl, rfl⟩
  splitting_gains_dust (reachable_run coin 6 _) hConfig hSome (by decide) splitStakes_opens
    splitClaims_claims
    ⟨⟨_, exec_of_isOk rfl⟩, ⟨_, exec_of_isOk rfl⟩, ⟨_, exec_of_isOk rfl⟩, ⟨_, exec_of_isOk rfl⟩,
      ⟨_, exec_of_isOk rfl⟩, ⟨_, exec_of_isOk rfl⟩, trivial⟩
    ⟨⟨_, exec_of_isOk rfl⟩, ⟨_, exec_of_isOk rfl⟩, ⟨_, exec_of_isOk rfl⟩, ⟨_, exec_of_isOk rfl⟩,
      ⟨_, exec_of_isOk rfl⟩, ⟨_, exec_of_isOk rfl⟩, ⟨_, exec_of_isOk rfl⟩, ⟨_, exec_of_isOk rfl⟩,
      ⟨_, exec_of_isOk rfl⟩, trivial⟩ hView hViews

end StakingOnSolana
