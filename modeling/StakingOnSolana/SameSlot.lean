import StakingOnSolana.View

/-! # Calls of different users in one slot

After the first call in a slot the update of the pool has nothing to do, so every further call
sees the accumulator that the first one left. What a user is paid and his new account depend on
that accumulator and his own account only, and the shared amounts are sums: the calls of different
users can come in any order in which they all succeed.
-/
set_option autoImplicit false

namespace StakingOnSolana

variable {R : Runtime} {env : Env} {ix : Instruction} {w w' : World} {P : PoolAddress} {p q q' : Pool}
  {op : PoolOp} {ops ops' : List PoolOp} {k u v : Pubkey} {c : PoolConfig} {slot : Nat}

def PoolOp.payee : PoolOp → Option Pubkey
  | .stake _ u _ | .unstake _ u _ | .claim _ u => some u
  | .start _ | .stop _ | .compound .. => none

theorem PoolOp.caller_of_payee (h : op.payee = some u) : op.caller = some u := by
  cases op <;> cases h <;> rfl

theorem PoolOp.ne_start_of_payee (h : op.payee = some u) (slot : Nat) : op ≠ .start slot := by
  rintro rfl
  cases h

namespace Pool

theorem step_state (hPayee : op.payee = some u) (hOp : p.Enabled op) :
    (p.step op).state = { (p.tick op.slot).state.pay ((p.tick op.slot).owed u) with
      totalStaked := p.state.totalStaked + op.deposited - op.withdrawn } := by
  cases op with
  | start slot => cases hPayee
  | stop slot => cases hPayee
  | stake slot v amount =>
    cases hPayee
    exact ((p.tick slot).pay u).reopen_add_state u amount
  | unstake slot v amount =>
    cases hPayee
    obtain ⟨-, hLt, hLe, -⟩ := hOp
    exact ((p.tick slot).pay u).reopen_sub_state u (Nat.le_of_lt hLt) hLe
  | claim slot v =>
    cases hPayee
    by_cases hNone : p.staked u = 0
    · rw [step_claim_of_unstaked slot hNone]
      change (p.tick slot).state = { (p.tick slot).state.pay ((p.tick slot).owed u) with
        totalStaked := p.state.totalStaked }
      rw [owed_of_unstaked hNone slot]
      rfl
    · rw [step_claim_of_staked slot hNone]
      exact ((p.tick slot).pay u).reopen_same_state u
  | compound slot v => cases hPayee

theorem Enabled.recorded (hPayee : op.payee = some u) (hOp : p.Enabled op) :
    (p.tick op.slot).owed u ≤ p.state.rewardAmount ∧ op.withdrawn ≤ p.state.totalStaked := by
  cases op with
  | start slot => cases hPayee
  | stop slot => cases hPayee
  | stake slot v amount =>
    cases hPayee
    exact ⟨hOp.2.2.recorded, Nat.zero_le _⟩
  | unstake slot v amount =>
    cases hPayee
    exact ⟨hOp.2.2.2.recorded, hOp.2.2.1⟩
  | claim slot v =>
    cases hPayee
    exact ⟨hOp.1, Nat.zero_le _⟩
  | compound slot v => cases hPayee

theorem reopen_user_congr (hConfig : q.config = p.config)
    (hAcc : q.state.accTokenPerShare = p.state.accTokenPerShare) (hUser : q.user u = p.user u)
    {staked staked' : Nat} (hStaked : staked' = staked) :
    (q.reopen u staked').user u = (p.reopen u staked).user u := by
  simp only [reopen, Function.update_self, UserInfo.earned, hConfig, hAcc, hUser, hStaked]

theorem owed_congr (hConfig : q.config = p.config)
    (hAcc : q.state.accTokenPerShare = p.state.accTokenPerShare) (hUser : q.user u = p.user u) :
    q.owed u = p.owed u := by
  unfold owed UserInfo.owed UserInfo.earned
  rw [hConfig, hAcc, hUser]

theorem step_user_congr (hCaller : op.caller = some u) (hConfig : q.config = p.config)
    (hAcc : (q.tick op.slot).state.accTokenPerShare = (p.tick op.slot).state.accTokenPerShare)
    (hUser : q.user u = p.user u) : (q.step op).user u = (p.step op).user u := by
  have hStaked : q.staked u = p.staked u := congrArg UserInfo.stakedAmount hUser
  have hOwed : (q.tick op.slot).owed u = (p.tick op.slot).owed u := owed_congr hConfig hAcc hUser
  cases op with
  | start slot => cases hCaller
  | stop slot => cases hCaller
  | stake slot v amount =>
    cases hCaller
    exact reopen_user_congr (p := (p.tick slot).pay u) (q := (q.tick slot).pay u) hConfig hAcc hUser
      (congrArg (· + amount) hStaked)
  | unstake slot v amount =>
    cases hCaller
    exact reopen_user_congr (p := (p.tick slot).pay u) (q := (q.tick slot).pay u) hConfig hAcc hUser
      (congrArg (· - amount) hStaked)
  | claim slot v =>
    cases hCaller
    simp only [Pool.step, hStaked]
    split
    · exact hUser
    · exact reopen_user_congr (p := (p.tick slot).pay u) (q := (q.tick slot).pay u) hConfig hAcc hUser rfl
  | compound slot v =>
    cases hCaller
    simp only [PoolOp.slot] at hOwed
    simp only [Pool.step, hStaked, hConfig, hOwed]
    split
    · exact hUser
    · exact reopen_user_congr (p := (p.tick slot).record u) (q := (q.tick slot).record u) hConfig hAcc
        hUser rfl

def paying (p : Pool) (op : PoolOp) : Nat := (op.payee.map p.owed).getD 0

/-- The pool `q` comes from `p`, which is up to date, by the operations in some order: each user's
account is as his operation alone would have left it, and the shared amounts are sums. -/
structure SettledBy (p : Pool) (ops : List PoolOp) (q : Pool) : Prop where
  config : q.config = p.config
  lastRewardSlot : q.state.lastRewardSlot = p.state.lastRewardSlot
  accTokenPerShare : q.state.accTokenPerShare = p.state.accTokenPerShare
  shouldTotalPaid : q.state.shouldTotalPaid = p.state.shouldTotalPaid
  rewardAmount : q.state.rewardAmount + (ops.map p.paying).sum = p.state.rewardAmount
  paidRewards : q.state.paidRewards = p.state.paidRewards + (ops.map p.paying).sum
  totalEarned : q.state.totalEarned = p.state.totalEarned - (ops.map p.paying).sum
  totalStaked : q.state.totalStaked + (ops.map PoolOp.withdrawn).sum =
    p.state.totalStaked + (ops.map PoolOp.deposited).sum
  user : ∀ op ∈ ops, ∀ u, op.payee = some u → q.user u = (p.step op).user u
  others : ∀ u, (∀ op ∈ ops, op.payee ≠ some u) → q.user u = p.user u

theorem SettledBy.nil (p : Pool) : p.SettledBy [] p :=
  ⟨rfl, rfl, rfl, rfl, rfl, rfl, rfl, rfl, nofun, fun _ _ => rfl⟩

/-- The next user's operation finds his account and the accumulator as they were before. -/
theorem SettledBy.snoc (h : p.SettledBy ops q) (hTicked : p.tick op.slot = p)
    (hPayee : op.payee = some u) (hFresh : ∀ other ∈ ops, other.payee ≠ some u) (hOp : q.Enabled op) :
    p.SettledBy (ops ++ [op]) (q.step op) := by
  have hNot := PoolOp.ne_start_of_payee hPayee
  have hCaller := PoolOp.caller_of_payee hPayee
  have hOther : ∀ v, v ≠ u → op.caller ≠ some v := fun v hNe hv => hNe (Option.some.inj (hv.symm.trans hCaller))
  have hSame : q.tick op.slot = q := by
    refine tick_of_last_eq (p := p) ?_
    rw [hTicked]
    exact h.lastRewardSlot
  have hUser := h.others u hFresh
  have hOwed : q.owed u = p.owed u := owed_congr h.config h.accTokenPerShare hUser
  have hPaying : p.paying op = q.owed u := by
    rw [paying, hPayee]
    exact hOwed.symm
  have hState := step_state hPayee hOp
  obtain ⟨hRecorded, hWithdrawn⟩ := Enabled.recorded hPayee hOp
  rw [hSame] at hState hRecorded
  have hSums : ∀ f : PoolOp → Nat, ((ops ++ [op]).map f).sum = (ops.map f).sum + f op := by
    intro f
    simp
  have hReward := h.rewardAmount
  have hEarned := h.totalEarned
  have hTotal := h.totalStaked
  constructor
  · exact (q.step_schedule hNot).1.trans h.config
  · rw [hState]
    exact h.lastRewardSlot
  · rw [hState]
    exact h.accTokenPerShare
  · rw [hState]
    exact h.shouldTotalPaid
  · rw [hState, hSums, hPaying]
    simp only [PoolState.pay]
    omega
  · rw [hState, hSums, hPaying, ← Nat.add_assoc, ← h.paidRewards]
    rfl
  · rw [hState, hSums, hPaying]
    simp only [PoolState.pay]
    omega
  · rw [hState, hSums, hSums]
    simp only
    omega
  · intro other hMem v hv
    rcases List.mem_append.mp hMem with hOld | hNew
    · rw [step_user_of_ne q (hOther v fun hEq => hFresh other hOld (hEq ▸ hv))]
      exact h.user other hOld v hv
    · obtain rfl := List.mem_singleton.mp hNew
      cases hPayee.symm.trans hv
      refine step_user_congr hCaller h.config ?_ hUser
      rw [hSame, hTicked]
      exact h.accTokenPerShare
  · intro v hv
    have hNe : v ≠ u := fun hEq => hv op (List.mem_append_right _ List.mem_cons_self) (hEq ▸ hPayee)
    rw [step_user_of_ne q (hOther v hNe)]
    exact h.others v fun other hMem => hv other (List.mem_append_left _ hMem)

theorem SettledBy.perm (h : p.SettledBy ops q) (hPerm : ops.Perm ops') : p.SettledBy ops' q := by
  have hSum : ∀ f : PoolOp → Nat, (ops'.map f).sum = (ops.map f).sum :=
    fun f => (hPerm.map f).symm.sum_eq
  constructor
  · exact h.config
  · exact h.lastRewardSlot
  · exact h.accTokenPerShare
  · exact h.shouldTotalPaid
  · rw [hSum]
    exact h.rewardAmount
  · rw [hSum]
    exact h.paidRewards
  · rw [hSum]
    exact h.totalEarned
  · rw [hSum, hSum]
    exact h.totalStaked
  · intro op hMem
    exact h.user op (hPerm.mem_iff.mpr hMem)
  · intro u hu
    exact h.others u fun op hMem => hu op (hPerm.mem_iff.mp hMem)

theorem SettledBy.unique (h : p.SettledBy ops q) (h' : p.SettledBy ops q') : q' = q := by
  have hUser : q'.user = q.user := by
    funext u
    by_cases hu : ∀ op ∈ ops, op.payee ≠ some u
    · rw [h.others u hu, h'.others u hu]
    · push Not at hu
      obtain ⟨op, hMem, hPayee⟩ := hu
      rw [h.user op hMem u hPayee, h'.user op hMem u hPayee]
  have hReward := h.rewardAmount
  have hReward' := h'.rewardAmount
  have hTotal := h.totalStaked
  have hTotal' := h'.totalStaked
  have hState : q'.state = q.state := by
    apply PoolState.ext
    · omega
    · rw [h.lastRewardSlot, h'.lastRewardSlot]
    · rw [h.accTokenPerShare, h'.accTokenPerShare]
    · omega
    · rw [h.shouldTotalPaid, h'.shouldTotalPaid]
    · rw [h.paidRewards, h'.paidRewards]
    · rw [h.totalEarned, h'.totalEarned]
  exact Pool.ext (h'.config.trans h.config.symm) hState hUser

end Pool

theorem Instruction.payee_op (hOp : ix.op c slot = some op) : op.payee = ix.payee := by
  cases ix <;> cases hOp <;> rfl

theorem Instruction.exists_payee (h : ix.kind ∈ [.stake, .unstake, .claimReward]) :
    ∃ u, ix.payee = some u := by
  cases ix with
  | stake a n => exact ⟨_, rfl⟩
  | unstake a n => exact ⟨_, rfl⟩
  | claimReward a => exact ⟨_, rfl⟩
  | _ =>
    simp only [Instruction.kind, List.mem_cons, reduceCtorEq, List.not_mem_nil, or_self] at h

theorem Instruction.transfers_congr (hPayee : ix.payee = some u) (hConfig : q.config = p.config)
    (hOwed : (q.tick slot).owed u = (p.tick slot).owed u) :
    ix.transfers q slot = ix.transfers p slot := by
  cases ix with
  | stake a n =>
    cases hPayee
    simp only [transfers, hConfig, hOwed]
  | unstake a n =>
    cases hPayee
    simp only [transfers, hConfig, hOwed]
  | claimReward a =>
    cases hPayee
    simp only [transfers, hOwed]
  | _ => cases hPayee

/-- The account of the caller is the one that the call writes, and it exists afterwards. -/
theorem exec_account (hHolds : w.Holds P p) (hMatched : ix.Matched P) (hCaller : ix.caller = some u)
    (h : ix.exec R env w = .ok w') : ix.userInfoAccount = some (.userInfoPda P.config u) ∧
      (w'.userInfo (.userInfoPda P.config u)).isSome = true := by
  have hUpdated : ∀ (k : Pubkey) (info : UserInfo), k = .userInfoPda P.config u →
      w'.userInfo = Function.update w.userInfo k (some info) →
      (w'.userInfo (.userInfoPda P.config u)).isSome = true := by
    rintro k info rfl hUser
    rw [hUser, Function.update_self]
    rfl
  cases ix with
  | stake a n =>
    cases hCaller
    obtain ⟨hKey, platform, hSpec⟩ := stake_matched hHolds hMatched h
    exact ⟨congrArg some hKey, hUpdated _ _ hKey hSpec.userInfo_eq⟩
  | unstake a n =>
    cases hCaller
    obtain ⟨platform, hSpec⟩ := unstake_matched hHolds hMatched h
    exact ⟨congrArg some hMatched.2.2, hUpdated _ _ hMatched.2.2 hSpec.userInfo_eq⟩
  | claimReward a =>
    cases hCaller
    obtain ⟨platform, hSpec⟩ := claimReward_matched hHolds hMatched h
    exact ⟨congrArg some hMatched.2.2, hUpdated _ _ hMatched.2.2 hSpec.userInfo_eq⟩
  | compoundReward a =>
    cases hCaller
    obtain ⟨platform, hSpec⟩ := compoundReward_matched hHolds hMatched h
    exact ⟨congrArg some hMatched.2.2, hUpdated _ _ hMatched.2.2 hSpec.userInfo_eq⟩
  | _ => cases hCaller

/-- A call leaves the accounts of all users but its caller alone. -/
theorem exec_account_of_ne (hHolds : w.Holds P p) (hMatched : ix.Matched P) (hNot : ix.caller ≠ some v)
    (h : ix.exec R env w = .ok w') :
    w'.userInfo (.userInfoPda P.config v) = w.userInfo (.userInfoPda P.config v) := by
  refine Instruction.exec_userInfo h fun hNamed => hNot ?_
  cases hCaller : ix.caller with
  | none => cases ix <;> cases hCaller <;> cases hNamed
  | some u =>
    rw [(exec_account hHolds hMatched hCaller h).1] at hNamed
    exact congrArg some (Pubkey.userInfoPda.inj (Option.some.inj hNamed)).2

theorem Instruction.Matched.poolStateAccount (h : ix.Matched P) : ix.poolStateAccount = some P.state := by
  cases ix with
  | initializePlatform a d f => exact h.elim
  | createPool a args => exact h.elim
  | startReward a => exact congrArg some h.2
  | _ => exact congrArg some h.2.1

def Action.Succeeds (R : Runtime) (w : World) : Action → Prop
  | .call tx => tx.Succeeds R w
  | .outside .. => True

theorem Action.Succeeds.next {tx : Tx} (h : Action.Succeeds R w (.call tx)) :
    tx.instruction.exec R tx.env w = .ok (next R w (.call tx)) := by
  obtain ⟨w', hOk⟩ := h
  rw [next_of_ok hOk]
  exact hOk

def poolOps (p : Pool) (slot : Nat) (txs : List Tx) : List PoolOp :=
  txs.filterMap fun tx => tx.instruction.op p.config slot

/-- All that a list of calls of one slot does, without the order of the calls. -/
structure Settlement (P : PoolAddress) (slot : Nat) (p : Pool) (txs : List Tx) (w w' : World) : Prop where
  pool : ∃ q, w'.Holds P q ∧ (p.tick slot).SettledBy (poolOps p slot txs) (q.tick slot) ∧
    (txs ≠ [] → q.tick slot = q)
  poolState : ∀ k, k ≠ P.state → w'.poolState k = w.poolState k
  accounts : ∀ tx ∈ txs, ∀ u, tx.instruction.payee = some u →
    (w'.userInfo (.userInfoPda P.config u)).isSome = true
  userInfo : ∀ k, (∀ tx ∈ txs, ∀ u, tx.instruction.payee = some u → k ≠ .userInfoPda P.config u) →
    w'.userInfo k = w.userInfo k
  amount : ∀ k, (w'.bank.amount k : Int) = w.bank.amount k +
    (txs.map fun tx => Balance.flow (tx.instruction.transfers p slot) k).sum
  rewards : ∀ u, rewardsPaid u w'.events = rewardsPaid u w.events +
    ((poolOps p slot txs).map (p.payout u)).sum

theorem Settlement.nil (hHolds : w.Holds P p) : Settlement P slot p [] w w := by
  constructor
  · exact ⟨p, hHolds, Pool.SettledBy.nil _, fun hNe => absurd rfl hNe⟩
  · exact fun k _ => rfl
  · exact nofun
  · exact fun k _ => rfl
  · exact fun k => (Int.add_zero _).symm
  · exact fun u => rfl

namespace Pool

theorem tick_tick (p : Pool) (slot : Nat) : (p.tick slot).tick slot = p.tick slot := tick_of_last_eq rfl

theorem Enabled.tick (hPayee : op.payee = some u) (h : p.Enabled op) : (p.tick op.slot).Enabled op := by
  have hPayable : ∀ slot v, p.Payable slot v → (p.tick slot).Payable slot v := by
    intro slot v hPayable
    refine ⟨?_, fun hPos => ?_⟩
    · rw [tick_tick]
      exact hPayable.recorded
    · rw [tick_tick]
      exact hPayable.debt_le hPos
  cases op with
  | start slot => cases hPayee
  | stop slot => cases hPayee
  | stake slot v amount => exact ⟨h.1, h.2.1, hPayable slot v h.2.2⟩
  | unstake slot v amount => exact ⟨h.1, h.2.1, h.2.2.1, hPayable slot v h.2.2.2⟩
  | claim slot v => exact hPayable slot v h
  | compound slot v => cases hPayee

theorem step_tick (hPayee : op.payee = some u) : (p.tick op.slot).step op = p.step op := by
  cases op with
  | start slot => cases hPayee
  | stop slot => cases hPayee
  | stake slot v amount =>
    simp only [PoolOp.slot, Pool.step, tick_tick]
    rfl
  | unstake slot v amount =>
    simp only [PoolOp.slot, Pool.step, tick_tick]
    rfl
  | claim slot v =>
    simp only [PoolOp.slot, Pool.step, tick_tick]
    rfl
  | compound slot v => cases hPayee

theorem payout_congr (hOwed : ∀ v, op.caller = some v →
    (q.tick op.slot).owed v = (p.tick op.slot).owed v) (u : Pubkey) : q.payout u op = p.payout u op := by
  cases op with
  | start slot => rfl
  | stop slot => rfl
  | stake slot v amount => exact congrArg (fun n => if v = u then n else 0) (hOwed v rfl)
  | unstake slot v amount => exact congrArg (fun n => if v = u then n else 0) (hOwed v rfl)
  | claim slot v => exact congrArg (fun n => if v = u then n else 0) (hOwed v rfl)
  | compound slot v => rfl

end Pool

theorem poolOps_append {tx : Tx} {txs : List Tx} (hOp : tx.instruction.op p.config slot = some op) :
    poolOps p slot (txs ++ [tx]) = poolOps p slot txs ++ [op] := by
  simp [poolOps, hOp]

theorem payee_of_mem_poolOps {txs : List Tx} (h : op ∈ poolOps p slot txs) :
    ∃ tx ∈ txs, tx.instruction.payee = op.payee := by
  obtain ⟨tx, hTx, hOp⟩ := List.mem_filterMap.mp h
  exact ⟨tx, hTx, (Instruction.payee_op hOp).symm⟩

/-- One call more, by a user who has not called yet. -/
theorem Settlement.snoc {tx : Tx} {txs : List Tx} {w'' : World} (h : Settlement P slot p txs w w')
    (hSlot : tx.env.slot = slot) (hMatched : tx.instruction.Matched P)
    (hPayee : tx.instruction.payee = some u)
    (hFresh : ∀ other ∈ txs, other.instruction.payee ≠ some u)
    (hOk : tx.instruction.exec R tx.env w' = .ok w'') : Settlement P slot p (txs ++ [tx]) w w'' := by
  subst hSlot
  obtain ⟨q, hQ, hSettled, -⟩ := h.pool
  have hConfig : q.config = p.config := hSettled.config
  obtain ⟨op, hOp, hEnabled, hAfter⟩ := exec_matched hQ hMatched hOk
  have hOpSlot := Instruction.slot_op hOp
  have hOpPayee : op.payee = some u := (Instruction.payee_op hOp).trans hPayee
  have hNot := PoolOp.ne_start_of_payee hOpPayee
  have hFreshOps : ∀ other ∈ poolOps p tx.env.slot txs, other.payee ≠ some u := by
    intro other hMem hEq
    obtain ⟨tx', hTx, hSame⟩ := payee_of_mem_poolOps hMem
    exact hFresh tx' hTx (hSame.trans hEq)
  have hOps : poolOps p tx.env.slot (txs ++ [tx]) = poolOps p tx.env.slot txs ++ [op] :=
    poolOps_append (hConfig ▸ hOp)
  have hOwed : (q.tick tx.env.slot).owed u = (p.tick tx.env.slot).owed u :=
    Pool.owed_congr hSettled.config hSettled.accTokenPerShare (hSettled.others u hFreshOps)
  have hCaller := Instruction.caller_of_payee hPayee
  obtain ⟨hAccount, hExists⟩ := exec_account hQ hMatched hCaller hOk
  constructor
  · have hTicked : (q.step op).tick tx.env.slot = q.step op := hOpSlot ▸ q.tick_step hNot
    refine ⟨q.step op, hAfter, ?_, fun _ => hTicked⟩
    have hEnabledTick := hEnabled.tick hOpPayee
    have hStep := Pool.step_tick (p := q) hOpPayee
    rw [hOpSlot] at hEnabledTick hStep
    rw [hOps, hTicked, ← hStep]
    refine hSettled.snoc ?_ hOpPayee hFreshOps hEnabledTick
    rw [hOpSlot, Pool.tick_tick]
  · intro k hk
    rw [Instruction.exec_poolState_of_ne hOk hMatched.poolStateAccount hk]
    exact h.poolState k hk
  · intro other hMem v hv
    rcases List.mem_append.mp hMem with hOld | hNew
    · have hNot : tx.instruction.caller ≠ some v := by
        rw [hCaller]
        rintro ⟨⟩
        exact hFresh other hOld hv
      rw [exec_account_of_ne hQ hMatched hNot hOk]
      exact h.accounts other hOld v hv
    · obtain rfl := List.mem_singleton.mp hNew
      cases hPayee.symm.trans hv
      exact hExists
  · intro k hk
    have hNe : some (Pubkey.userInfoPda P.config u) ≠ some k := fun hEq =>
      hk tx (List.mem_append_right _ List.mem_cons_self) u hPayee (Option.some.inj hEq).symm
    rw [Instruction.exec_userInfo hOk (hAccount ▸ hNe)]
    exact h.userInfo k fun other hMem => hk other (List.mem_append_left _ hMem)
  · intro k
    have hFlow := exec_flow hQ hMatched hPayee hOk k
    rw [Instruction.transfers_congr hPayee hConfig hOwed] at hFlow
    rw [hFlow, h.amount k, List.map_append, List.sum_append, List.map_singleton, List.sum_singleton,
      Int.add_assoc]
  · intro v
    obtain ⟨new, hEvents, hPaid⟩ := exec_events hQ hMatched hOp hOk
    have hPayout : q.payout v op = p.payout v op := by
      refine Pool.payout_congr (fun u' hu' => ?_) v
      cases (PoolOp.caller_of_payee hOpPayee).symm.trans hu'
      rw [hOpSlot]
      exact hOwed
    rw [hEvents, rewardsPaid_append, h.rewards v, hPaid, hPayout, hOps, List.map_append,
      List.sum_append, List.map_singleton, List.sum_singleton, Nat.add_assoc]

/-- By induction on the last call. -/
theorem run_settlement {txs : List Tx} (hHolds : w.Holds P p)
    (hTxs : ∀ tx ∈ txs, tx.instruction.Matched P ∧ tx.env.slot = slot ∧
      ∃ u, tx.instruction.payee = some u)
    (hDistinct : (txs.map fun tx => tx.instruction.payee).Nodup)
    (hRun : Run.Along (next R) (Action.Succeeds R) w (txs.map .call)) :
    Settlement P slot p txs w (Run.run (next R) w (txs.map .call)) := by
  induction txs using List.reverseRecOn with
  | nil => exact Settlement.nil hHolds
  | append_singleton txs tx ih =>
    rw [List.map_append, List.nodup_append] at hDistinct
    rw [List.map_append, Run.along_append] at hRun
    obtain ⟨hBefore, hLast, -⟩ := hRun
    obtain ⟨hMatched, hSlot, u, hPayee⟩ := hTxs tx (List.mem_append_right txs List.mem_cons_self)
    have hSettled := ih (fun other hMem => hTxs other (List.mem_append_left [tx] hMem)) hDistinct.1 hBefore
    have hFresh : ∀ other ∈ txs, other.instruction.payee ≠ some u := by
      intro other hMem hEq
      refine hDistinct.2.2 _ (List.mem_map_of_mem hMem) _ List.mem_cons_self ?_
      exact hEq.trans hPayee.symm
    rw [List.map_append, Run.run_append]
    exact hSettled.snoc hSlot hMatched hPayee hFresh hLast.next

theorem Settlement.perm {txs txs' : List Tx} (h : Settlement P slot p txs w w') (hPerm : txs.Perm txs') :
    Settlement P slot p txs' w w' := by
  have hOps : (poolOps p slot txs).Perm (poolOps p slot txs') := hPerm.filterMap _
  obtain ⟨q, hQ, hSettled, hTicked⟩ := h.pool
  constructor
  · refine ⟨q, hQ, hSettled.perm hOps, fun hNe => hTicked ?_⟩
    rintro rfl
    exact hNe hPerm.nil_eq.symm
  · exact h.poolState
  · exact fun tx hMem => h.accounts tx (hPerm.mem_iff.mpr hMem)
  · exact fun k hk => h.userInfo k fun tx hMem => hk tx (hPerm.mem_iff.mp hMem)
  · intro k
    rw [h.amount k, (hPerm.map _).sum_eq]
  · intro u
    rw [h.rewards u, (hOps.map _).sum_eq]

theorem Settlement.unique {txs : List Tx} {w₁ w₂ : World} (hNe : txs ≠ [])
    (h₁ : Settlement P slot p txs w w₁) (h₂ : Settlement P slot p txs w w₂) :
    w₂.poolState = w₁.poolState ∧ w₂.userInfo = w₁.userInfo ∧ w₂.bank.amount = w₁.bank.amount ∧
      ∀ u, rewardsPaid u w₂.events = rewardsPaid u w₁.events := by
  obtain ⟨q₁, hQ₁, hSettled₁, hTicked₁⟩ := h₁.pool
  obtain ⟨q₂, hQ₂, hSettled₂, hTicked₂⟩ := h₂.pool
  rw [hTicked₁ hNe] at hSettled₁
  rw [hTicked₂ hNe] at hSettled₂
  obtain rfl : q₂ = q₁ := hSettled₁.unique hSettled₂
  refine ⟨?_, ?_, ?_, fun u => ?_⟩
  · funext k
    by_cases hk : k = P.state
    · rw [hk, hQ₂.state, hQ₁.state]
    · rw [h₂.poolState k hk, h₁.poolState k hk]
  · funext k
    by_cases hk : ∀ tx ∈ txs, ∀ u, tx.instruction.payee = some u → k ≠ .userInfoPda P.config u
    · rw [h₂.userInfo k hk, h₁.userInfo k hk]
    · push Not at hk
      obtain ⟨tx, hMem, u, hPayee, rfl⟩ := hk
      obtain ⟨info₁, hInfo₁⟩ := Option.isSome_iff_exists.mp (h₁.accounts tx hMem u hPayee)
      obtain ⟨info₂, hInfo₂⟩ := Option.isSome_iff_exists.mp (h₂.accounts tx hMem u hPayee)
      rw [hInfo₁, hInfo₂, hQ₁.user_eq rfl hInfo₁, hQ₂.user_eq rfl hInfo₂]
  · funext k
    have hAmount := (h₂.amount k).trans (h₁.amount k).symm
    exact Int.ofNat_inj.mp hAmount
  · rw [h₂.rewards u, h₁.rewards u]

/-- Calls of different users in one slot end alike in any two orders in which they all succeed. -/
theorem sameSlot_perm {txs txs' : List Tx} (hReach : w.Reachable R) (hConfig : w.poolConfig k = some c)
    (hTxs : ∀ tx ∈ txs, tx.instruction.Matched (c.address k) ∧ tx.env.slot = slot ∧
      tx.instruction.kind ∈ [.stake, .unstake, .claimReward])
    (hDistinct : (txs.map fun tx => tx.instruction.payee).Nodup) (hPerm : txs.Perm txs')
    (hFirst : Run.Along (next R) (Action.Succeeds R) w (txs.map .call))
    (hSecond : Run.Along (next R) (Action.Succeeds R) w (txs'.map .call)) :
    (Run.run (next R) w (txs'.map .call)).poolState = (Run.run (next R) w (txs.map .call)).poolState ∧
      (Run.run (next R) w (txs'.map .call)).userInfo = (Run.run (next R) w (txs.map .call)).userInfo ∧
      (Run.run (next R) w (txs'.map .call)).bank.amount =
        (Run.run (next R) w (txs.map .call)).bank.amount ∧
      ∀ u, rewardsPaid u (Run.run (next R) w (txs'.map .call)).events =
        rewardsPaid u (Run.run (next R) w (txs.map .call)).events := by
  obtain ⟨p, hHolds, -⟩ := World.Holds.of_reachable hReach hConfig
  have hPaying : ∀ tx ∈ txs, tx.instruction.Matched (c.address k) ∧ tx.env.slot = slot ∧
      ∃ u, tx.instruction.payee = some u := by
    intro tx hMem
    obtain ⟨hMatched, hSlot, hKind⟩ := hTxs tx hMem
    exact ⟨hMatched, hSlot, Instruction.exists_payee hKind⟩
  rcases eq_or_ne txs [] with rfl | hNe
  · rw [hPerm.nil_eq]
    exact ⟨rfl, rfl, rfl, fun u => rfl⟩
  · have hSettled := run_settlement (R := R) hHolds hPaying hDistinct hFirst
    have hSettled' := run_settlement (R := R) hHolds
      (fun tx hMem => hPaying tx (hPerm.mem_iff.mpr hMem)) ((hPerm.map _).nodup hDistinct) hSecond
    exact hSettled.unique hNe (hSettled'.perm hPerm.symm)

namespace Localnet

def crowdedPool : World := run (genesis coin 9) [open_, create coin 0 (dayPool 216000), start 0 0,
  stake 0 11 0 10, stake 0 11 2 7]

def crowdedConfig : PoolConfig :=
  { (createAccounts coin 0).poolConfig (dayPool 216000) ⟨9⟩ ⟨9⟩ with startSlot := 10, endSlot := 216010 }

def crowd : List Tx := [unstake 0 21 0 3, stake 0 21 1 5] ++ [claim 0 21 2]

def crowd' : List Tx := [claim 0 21 2] ++ [unstake 0 21 0 3, stake 0 21 1 5]

end Localnet

open Localnet in
theorem sameSlot_perm_crowd :
    (run crowdedPool crowd').poolState = (run crowdedPool crowd).poolState ∧
      (run crowdedPool crowd').userInfo = (run crowdedPool crowd).userInfo ∧
      (run crowdedPool crowd').bank.amount = (run crowdedPool crowd).bank.amount ∧
      ∀ u, rewardsPaid u (run crowdedPool crowd').events = rewardsPaid u (run crowdedPool crowd).events :=
  have hConfig : crowdedPool.poolConfig (config 0) = some crowdedConfig := rfl
  have hTxs : ∀ tx ∈ crowd, tx.instruction.Matched (crowdedConfig.address (config 0)) ∧
      tx.env.slot = 21 ∧ tx.instruction.kind ∈ [.stake, .unstake, .claimReward] := by decide
  have hPerm : crowd.Perm crowd' := List.perm_append_comm
  sameSlot_perm (reachable_run coin 9 _) hConfig hTxs (by decide) hPerm
    ⟨⟨_, exec_of_isOk rfl⟩, ⟨_, exec_of_isOk rfl⟩, ⟨_, exec_of_isOk rfl⟩, trivial⟩
    ⟨⟨_, exec_of_isOk rfl⟩, ⟨_, exec_of_isOk rfl⟩, ⟨_, exec_of_isOk rfl⟩, trivial⟩

end StakingOnSolana
