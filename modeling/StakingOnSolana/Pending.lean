import StakingOnSolana.Debts

/-! # The pending reward between the calls of its user

Calls of others for their own accounts cannot lower what a user is owed, and within one slot nobody
earns anything: what he takes out is what he had pending when the slot began, however he and the
others stake, unstake, claim and compound in it. A call that passes the account of another user, as
`claim_reward` lets it, is not among them.
-/
set_option autoImplicit false

namespace StakingOnSolana

open RewardShare

variable {R : Runtime} {env viewer viewer' : Env} {ix : Instruction} {w w' w₀ w₁ : World} {P : PoolAddress}
  {p q : Pool} {op : PoolOp} {u : Pubkey} {slot later : Nat}

namespace PoolState

theorem acc_accrue_mono (c : PoolConfig) (s : PoolState) (h : slot ≤ later) :
    (s.accrue c slot).accTokenPerShare ≤ (s.accrue c later).accTokenPerShare := by
  have hAccruing : s.accruing c slot ≤ s.accruing c later := by
    rw [← accruing_accrue c s h]
    exact Nat.le_add_right _ _
  exact Nat.add_le_add_left (Nat.div_le_div_right (Nat.mul_le_mul_right _ hAccruing)) _

end PoolState

namespace Pool

theorem Scheduled.tick_of_idle (h : p.Scheduled) (hIdle : p.config.startSlot = 0) (slot : Nat) :
    p.tick slot = p :=
  tick_eq_self (Or.inr (h.idle hIdle).1)

theorem acc_tick_le_step (hScheduled : p.Scheduled) (hOp : p.Enabled op) (hLate : slot ≤ op.slot) :
    (p.tick slot).state.accTokenPerShare ≤ ((p.step op).tick slot).state.accTokenPerShare := by
  have hAfter : (p.step op).state.accTokenPerShare ≤ ((p.step op).tick slot).state.accTokenPerShare :=
    PoolState.acc_le_accrue _ _ _
  refine Nat.le_trans ?_ hAfter
  rcases op.start_or with ⟨at_, rfl⟩ | hNot
  · rw [hScheduled.tick_of_idle hOp]
    exact Nat.le_refl _
  · rw [(p.step_accrual hNot).1]
    exact PoolState.acc_accrue_mono _ _ hLate

/-- The user keeps his position, and the accumulator at the slot does not fall behind. -/
structure Keeps (u : Pubkey) (slot : Nat) (p q : Pool) : Prop where
  scheduled : q.Scheduled
  user : q.user u = p.user u
  precision : q.config.precisionFactor = p.config.precisionFactor
  acc : (p.tick slot).state.accTokenPerShare ≤ (q.tick slot).state.accTokenPerShare

theorem Keeps.step (h : p.Keeps u slot q) (hOp : q.Enabled op) (hOther : op.caller ≠ some u)
    (hLate : slot ≤ op.slot) : p.Keeps u slot (q.step op) where
  scheduled := h.scheduled.step hOp
  user := (q.step_user_of_ne hOther).trans h.user
  precision := (q.step_precisionFactor op).trans h.precision
  acc := h.acc.trans (acc_tick_le_step h.scheduled hOp hLate)

theorem Keeps.owed_le (h : p.Keeps u slot q) (hLate : slot ≤ later) :
    (p.tick slot).owed u ≤ (q.tick later).owed u := by
  have hAcc := h.acc.trans (PoolState.acc_accrue_mono q.config q.state hLate)
  have hUser : (q.tick later).user u = (p.tick slot).user u := h.user
  have hPrecision : (q.tick later).config.precisionFactor = (p.tick slot).config.precisionFactor :=
    h.precision
  unfold owed UserInfo.owed UserInfo.earned
  rw [hUser, hPrecision]
  exact Nat.sub_le_sub_right (Nat.div_le_div_right (Nat.mul_le_mul_left _ hAcc)) _

def taken (p : Pool) (u : Pubkey) (op : PoolOp) : Nat :=
  if op.caller = some u then (p.tick op.slot).owed u else 0

theorem owed_reopen (p : Pool) (u : Pubkey) (staked : Nat) : (p.reopen u staked).owed u = 0 := by
  simp only [owed, reopen, Function.update_self]
  exact Nat.sub_self _

theorem step_owed_of_caller (hCaller : op.caller = some u) : (p.step op).owed u = 0 := by
  cases op with
  | start at_ => cases hCaller
  | stop at_ => cases hCaller
  | stake at_ v amount =>
    cases hCaller
    exact owed_reopen _ _ _
  | unstake at_ v amount =>
    cases hCaller
    exact owed_reopen _ _ _
  | claim at_ v =>
    cases hCaller
    by_cases hNone : p.staked u = 0
    · rw [step_claim_of_unstaked at_ hNone]
      exact owed_of_unstaked hNone at_
    · rw [step_claim_of_staked at_ hNone]
      exact owed_reopen _ _ _
  | compound at_ v =>
    cases hCaller
    by_cases hNone : p.staked u = 0
    · rw [step_compound_of_unstaked at_ hNone]
      exact owed_of_unstaked hNone at_
    · rw [step_compound_of_staked at_ hNone]
      exact owed_reopen _ _ _

theorem step_owed_of_ne (hNot : ∀ at_, op ≠ .start at_) (hCaller : op.caller ≠ some u) :
    (p.step op).owed u = (p.tick op.slot).owed u := by
  have hConfig := (p.step_schedule hNot).1
  have hAcc := (p.step_accrual hNot).1
  have hUser := p.step_user_of_ne hCaller
  have hTicked : (p.tick op.slot).user u = p.user u ∧ (p.tick op.slot).config = p.config := ⟨rfl, rfl⟩
  unfold owed UserInfo.owed UserInfo.earned
  rw [hUser, hConfig, hAcc, hTicked.1, hTicked.2]

theorem step_owed_add_taken (hScheduled : p.Scheduled) (hOp : p.Enabled op) (u : Pubkey) :
    ((p.step op).tick op.slot).owed u + p.taken u op = (p.tick op.slot).owed u := by
  rcases op.start_or with ⟨at_, rfl⟩ | hNot
  · have hStarted : (p.step (.start at_)).tick at_ = p.step (.start at_) :=
      tick_eq_self (Or.inl (Nat.le_add_right at_ 10))
    change ((p.step (.start at_)).tick at_).owed u + 0 = (p.tick at_).owed u
    rw [hStarted, hScheduled.tick_of_idle hOp]
    rfl
  · rw [p.tick_step hNot, taken]
    split
    · rename_i hCaller
      rw [step_owed_of_caller hCaller, Nat.zero_add]
    · rename_i hCaller
      rw [step_owed_of_ne hNot hCaller, Nat.add_zero]

end Pool

/-- The pending reward that the view returns, and none for a user without an account. -/
def Views (viewer : Env) (P : PoolAddress) (u : Pubkey) (w : World) (pending : Nat) : Prop :=
  pendingReward viewer (P.view u) w = .ok pending ∨
    w.userInfo (.userInfoPda P.config u) = none ∧ pending = 0

theorem views_holds {pending : Nat} (hHolds : w.Holds P p) (h : Views viewer P u w pending) :
    pending = (p.tick viewer.slot).owed u := by
  rcases h with hView | ⟨hNone, rfl⟩
  · exact (pendingReward_holds hHolds hView).2
  · have hUser := hHolds.user u
    rw [hNone] at hUser
    have hUnstaked : p.staked u = 0 := by
      rw [Pool.staked, ← hUser]
      rfl
    exact (Pool.owed_of_unstaked hUnstaked viewer.slot).symm

def Action.ByOthers (u : Pubkey) (slot : Nat) : Action → Prop
  | .call tx => tx.instruction.caller ≠ some u ∧ slot ≤ tx.env.slot
  | .outside .. => True

def Action.InSlot (slot : Nat) : Action → Prop
  | .call tx => tx.env.slot = slot
  | .outside .. => True

def rewardsTaken (u : Pubkey) (events : List Event) : Nat :=
  (events.map fun
    | .rewardClaim user amount | .compound user amount => if user = u then amount else 0
    | _ => 0).sum

theorem rewardsTaken_append (u : Pubkey) (xs ys : List Event) :
    rewardsTaken u (xs ++ ys) = rewardsTaken u xs + rewardsTaken u ys := by
  simp only [rewardsTaken, List.map_append, List.sum_append]

theorem rewardsTaken_claimEvents (u claimer : Pubkey) (pending : Nat) :
    rewardsTaken u (claimEvents claimer pending) = if claimer = u then pending else 0 := by
  unfold claimEvents
  split
  · simp [rewardsTaken]
  · rename_i hNone
    simp [rewardsTaken, Nat.eq_zero_of_not_pos hNone]

theorem rewardsTaken_compoundEvents (u user : Pubkey) (pending credited : Nat) :
    rewardsTaken u (compoundEvents user pending credited) = if user = u then pending else 0 := by
  unfold compoundEvents
  split
  · simp [rewardsTaken]
  · rename_i hNone
    simp [rewardsTaken, Nat.eq_zero_of_not_pos hNone]

/-- What a call that names the pool pays to the user or compounds for him, by its events. -/
def takings (R : Runtime) (P : PoolAddress) (u : Pubkey) (w : World) : Action → Nat
  | .call tx =>
    if tx.instruction.poolConfigAccount = some P.config then
      rewardsTaken u ((next R w (.call tx)).events.drop w.events.length)
    else 0
  | .outside .. => 0

theorem takings_of_passes {a : Action} (h : a.Passes R P w) : takings R P u w a = 0 := by
  cases a with
  | outside bank mint => rfl
  | call tx =>
    rcases h with hFails | hForeign
    · simp only [takings, next_of_not_succeeds hFails, List.drop_length]
      exact ite_self _
    · exact if_neg hForeign.1

theorem Pool.taken_eq (p : Pool) {v : Pubkey} (hCaller : op.caller = some v) :
    p.taken u op = if v = u then (p.tick op.slot).owed v else 0 := by
  unfold taken
  rw [hCaller]
  by_cases hSame : v = u
  · rw [if_pos (congrArg some hSame), if_pos hSame, hSame]
  · rw [if_neg fun hEq => hSame (Option.some.inj hEq), if_neg hSame]

theorem exec_taken (hHolds : w.Holds P p) (hMatched : ix.Matched P)
    (hOp : ix.op p.config env.slot = some op) (h : ix.exec R env w = .ok w') (u : Pubkey) :
    ∃ new, w'.events = w.events ++ new ∧ rewardsTaken u new = p.taken u op := by
  cases ix with
  | initializePlatform a d f => exact hMatched.elim
  | createPool a args => exact hMatched.elim
  | startReward a =>
    cases hOp
    exact ⟨_, (startReward_matched hHolds hMatched h).events_eq, rfl⟩
  | stopReward a =>
    cases hOp
    exact ⟨_, (stopReward_matched hHolds hMatched h).events_eq, rfl⟩
  | stake a n =>
    cases hOp
    obtain ⟨-, platform, hSpec⟩ := stake_matched hHolds hMatched h
    refine ⟨_, hSpec.events_eq.trans (List.append_assoc _ _ _), ?_⟩
    rw [rewardsTaken_append, rewardsTaken_claimEvents, p.taken_eq rfl]
    exact Nat.add_zero _
  | unstake a n =>
    cases hOp
    obtain ⟨platform, hSpec⟩ := unstake_matched hHolds hMatched h
    refine ⟨_, hSpec.events_eq, ?_⟩
    rw [rewardsTaken_claimEvents, p.taken_eq rfl]
    rfl
  | claimReward a =>
    cases hOp
    obtain ⟨platform, hSpec⟩ := claimReward_matched hHolds hMatched h
    refine ⟨_, hSpec.events_eq, ?_⟩
    rw [rewardsTaken_claimEvents, p.taken_eq rfl]
    rfl
  | compoundReward a =>
    cases hOp
    obtain ⟨platform, hSpec⟩ := compoundReward_matched hHolds hMatched h
    refine ⟨_, hSpec.events_eq, ?_⟩
    rw [rewardsTaken_compoundEvents, p.taken_eq rfl]
    rfl

theorem takings_of_ok {tx : Tx} (hHolds : w.Holds P p) (hMatched : tx.instruction.Matched P)
    (hOp : tx.instruction.op p.config tx.env.slot = some op)
    (hOk : tx.instruction.exec R tx.env w = .ok w') : takings R P u w (.call tx) = p.taken u op := by
  obtain ⟨new, hEvents, hTaken⟩ := exec_taken hHolds hMatched hOp hOk u
  simp only [takings, if_pos hMatched.poolConfigAccount, next_of_ok hOk, hEvents, List.drop_left]
  exact hTaken

theorem keeps_run {actions : List Action} {kinds : List Instruction.Kind} (hHolds : w.Holds P p)
    (hScheduled : p.Scheduled) (hRun : ∀ x ∈ actions, x.OnPool P kinds ∧ x.ByOthers u slot) :
    ∃ q, (Run.run (next R) w actions).Holds P q ∧ p.Keeps u slot q := by
  refine Run.run_invariant (I := fun w' : World => ∃ q, w'.Holds P q ∧ p.Keeps u slot q)
    (Q := fun _ (x : Action) => x.OnPool P kinds ∧ x.ByOthers u slot) ?_
    ⟨p, hHolds, hScheduled, rfl, rfl, Nat.le_refl _⟩ (Run.along_of_forall fun x hx _ => hRun x hx)
  rintro w' x ⟨q, hView, hKeeps⟩ ⟨hOn, hOthers⟩
  rcases next_holds (R := R) hView hOn with
    ⟨hSame, -⟩ | ⟨tx, op, rfl, hMatched, -, hOk, hOp, hEnabled, hAfter⟩
  · exact ⟨q, hSame, hKeeps⟩
  · refine ⟨q.step op, hAfter, hKeeps.step hEnabled ?_ ?_⟩
    · rw [Instruction.caller_op hOp]
      exact hOthers.1
    · rw [Instruction.slot_op hOp]
      exact hOthers.2

theorem takings_run {actions : List Action} {kinds : List Instruction.Kind} (hHolds : w.Holds P p)
    (hScheduled : p.Scheduled) (hRun : ∀ x ∈ actions, x.OnPool P kinds ∧ x.InSlot slot) :
    ∃ q, (Run.run (next R) w actions).Holds P q ∧
      (q.tick slot).owed u + Run.tally (next R) (takings R P u) w actions = (p.tick slot).owed u := by
  have hRun : ∃ q, (Run.run (next R) w actions).Holds P q ∧ q.Scheduled ∧ (q.tick slot).owed u +
      (0 + Run.tally (next R) (takings R P u) w actions) = (p.tick slot).owed u := by
    refine Run.run_invariant_tally (I := fun n (w' : World) =>
      ∃ q, w'.Holds P q ∧ q.Scheduled ∧ (q.tick slot).owed u + n = (p.tick slot).owed u)
      (Q := fun _ (x : Action) => x.OnPool P kinds ∧ x.InSlot slot) ?_
      ⟨p, hHolds, hScheduled, rfl⟩ (Run.along_of_forall fun x hx _ => hRun x hx)
    rintro n w' x ⟨q, hView, hScheduled, hOwed⟩ ⟨hOn, hSlot⟩
    rcases next_holds (R := R) hView hOn with
      ⟨hSame, hPasses⟩ | ⟨tx, op, rfl, hMatched, -, hOk, hOp, hEnabled, hAfter⟩
    · rw [takings_of_passes hPasses]
      exact ⟨q, hSame, hScheduled, hOwed⟩
    · have hTaken := Pool.step_owed_add_taken hScheduled hEnabled u
      have hOpSlot : op.slot = slot := (Instruction.slot_op hOp).trans hSlot
      rw [hOpSlot] at hTaken
      rw [takings_of_ok hView hMatched hOp hOk]
      exact ⟨q.step op, hAfter, hScheduled.step hEnabled, by omega⟩
  obtain ⟨q, hView, -, hOwed⟩ := hRun
  rw [Nat.zero_add] at hOwed
  exact ⟨q, hView, hOwed⟩

/-- What a user has pending at a slot he still has at any later one, whatever others have called in
between for their own accounts, at the slot or after it. -/
theorem others_keep_pending {a : CreatePool} {args : CreatePoolArgs} {before after : List Action}
    {earlier pending : Nat} (hReach : w₀.Reachable R) (hCreate : createPool R env a args w₀ = .ok w₁)
    (hBefore : ∀ x ∈ before, x.OnPool a.pool [.startReward, .stopReward, .stake, .unstake, .claimReward,
      .compoundReward])
    (hAfter : ∀ x ∈ after, x.OnPool a.pool [.startReward, .stopReward, .stake, .unstake, .claimReward,
      .compoundReward] ∧ x.ByOthers u viewer.slot)
    (hSlots : viewer.slot ≤ viewer'.slot)
    (hEarlier : Views viewer a.pool u (Run.run (next R) w₁ before) earlier)
    (hPending : Views viewer' a.pool u (Run.run (next R) w₁ (before ++ after)) pending) :
    earlier ≤ pending := by
  obtain ⟨_, _, -, hHolds⟩ := createPool_holds hReach hCreate
  obtain ⟨p, hView, hScheduled⟩ := run_holds (R := R) (I := Pool.Scheduled)
    (fun p op _ hI hOp => hI.step hOp) hHolds (Pool.fresh_scheduled rfl _) hBefore
  obtain ⟨q, hView', hKeeps⟩ := keeps_run (R := R) hView hScheduled hAfter
  rw [← Run.run_append] at hView'
  rw [views_holds hView hEarlier, views_holds hView' hPending]
  exact hKeeps.owed_le hSlots

/-- Within one slot the rewards taken out by a user and what he has pending after it add up to what he
had pending before: nothing, where he had no stake. -/
theorem sameSlot_earns_nothing {a : CreatePool} {args : CreatePoolArgs} {before after : List Action}
    {earlier pending : Nat} (hReach : w₀.Reachable R) (hCreate : createPool R env a args w₀ = .ok w₁)
    (hBefore : ∀ x ∈ before, x.OnPool a.pool [.startReward, .stopReward, .stake, .unstake, .claimReward,
      .compoundReward])
    (hAfter : ∀ x ∈ after, x.OnPool a.pool [.startReward, .stopReward, .stake, .unstake, .claimReward,
      .compoundReward] ∧ x.InSlot viewer.slot)
    (hEarlier : Views viewer a.pool u (Run.run (next R) w₁ before) earlier)
    (hPending : Views viewer a.pool u (Run.run (next R) w₁ (before ++ after)) pending) :
    pending + Run.tally (next R) (takings R a.pool u) (Run.run (next R) w₁ before) after = earlier := by
  obtain ⟨_, _, -, hHolds⟩ := createPool_holds hReach hCreate
  obtain ⟨p, hView, hScheduled⟩ := run_holds (R := R) (I := Pool.Scheduled)
    (fun p op _ hI hOp => hI.step hOp) hHolds (Pool.fresh_scheduled rfl _) hBefore
  obtain ⟨q, hView', hOwed⟩ := takings_run (R := R) (u := u) hView hScheduled hAfter
  rw [← Run.run_append] at hView'
  rw [views_holds hView hEarlier, views_holds hView' hPending]
  exact hOwed

namespace Localnet

def oneStaker : List Tx := [start 0 0, stake 0 11 0 2]

def crowding : List Tx := [stake 0 50 1 8, claim 0 60 1, Localnet.unstake 0 70 1 7]

def flashStake : List Tx := [stake 0 50 1 8, claim 0 50 0, claim 0 50 1, Localnet.unstake 0 50 1 7]

end Localnet

open Localnet in
/-- At slot 50 the first user has 39 tokens pending, and at slot 80, after the crowd, 49. -/
theorem others_keep_pending_crowding : ∃ earlier pending : Nat,
    Views (Localnet.env 50 []) (createAccounts coin 0).pool (user 0)
      (Run.run (next .reference) (dayPoolCreated coin 8 216000) (oneStaker.map .call)) earlier ∧
    Views (Localnet.env 80 []) (createAccounts coin 0).pool (user 0)
      (Run.run (next .reference) (dayPoolCreated coin 8 216000)
        (oneStaker.map .call ++ crowding.map .call)) pending ∧ 0 < earlier ∧ earlier ≤ pending := by
  have hBefore : Views (Localnet.env 50 []) (createAccounts coin 0).pool (user 0)
      (Run.run (next .reference) (dayPoolCreated coin 8 216000) (oneStaker.map .call)) 39 :=
    Or.inl rfl
  have hAfter : Views (Localnet.env 80 []) (createAccounts coin 0).pool (user 0)
      (Run.run (next .reference) (dayPoolCreated coin 8 216000)
        (oneStaker.map .call ++ crowding.map .call)) 49 :=
    Or.inl rfl
  have hOthers : ∀ tx ∈ crowding, tx.instruction.caller ≠ some (user 0) ∧ 50 ≤ tx.env.slot := by decide
  refine ⟨39, 49, hBefore, hAfter, by decide, others_keep_pending (reachable_run coin 8 [open_])
    (dayPool_created coin 8 216000 rfl) (onPool_of_matched (by decide))
    (fun x hx => ⟨onPool_of_matched (by decide) x hx, ?_⟩) (by decide) hBefore hAfter⟩
  obtain ⟨tx, hMem, rfl⟩ := List.mem_map.1 hx
  exact hOthers tx hMem

open Localnet in
/-- The second user earns nothing from the slot, and the claim of the first pays all he had pending. -/
theorem sameSlot_earns_nothing_flashStake :
    0 + Run.tally (next .reference) (takings .reference (createAccounts coin 0).pool (user 1))
      (run (dayPoolCreated coin 8 216000) oneStaker) (flashStake.map .call) = 0 ∧
    0 + Run.tally (next .reference) (takings .reference (createAccounts coin 0).pool (user 0))
      (run (dayPoolCreated coin 8 216000) oneStaker) (flashStake.map .call) = 39 := by
  have hFlash : ∀ x ∈ flashStake.map Action.call, x.OnPool (createAccounts coin 0).pool [.startReward,
      .stopReward, .stake, .unstake, .claimReward, .compoundReward] ∧
      x.InSlot (Localnet.env 50 []).slot := by
    intro x hx
    have hSlot : ∀ tx ∈ flashStake, tx.env.slot = 50 := by decide
    refine ⟨onPool_of_matched (by decide) x hx, ?_⟩
    obtain ⟨tx, hMem, rfl⟩ := List.mem_map.1 hx
    exact hSlot tx hMem
  exact ⟨sameSlot_earns_nothing (reachable_run coin 8 [open_])
      (dayPool_created coin 8 216000 rfl) (onPool_of_matched (by decide)) hFlash (Or.inr ⟨rfl, rfl⟩)
      (Or.inl rfl),
    sameSlot_earns_nothing (reachable_run coin 8 [open_])
      (dayPool_created coin 8 216000 rfl) (onPool_of_matched (by decide)) hFlash (Or.inl rfl)
      (Or.inl rfl)⟩

end StakingOnSolana
