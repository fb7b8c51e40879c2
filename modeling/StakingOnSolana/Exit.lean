import StakingOnSolana.Program

/-! # Leaving a pool

An unstake is meant to allow the whole stake: it cuts the amount to the stake that there is. But
an amount that is not below the stake was refused before, so a stake is never emptied.
-/
set_option autoImplicit false

namespace StakingOnSolana

variable {R : Runtime} {env : Env} {ix : Instruction} {w w' : World} {k u : Pubkey}

def World.HasStake (k : Pubkey) (w : World) : Prop :=
  ∃ info, w.userInfo k = some info ∧ 0 < info.stakedAmount

/-- Unstakes of the user alone empty the account `k`. -/
def FullExit (R : Runtime) (k u : Pubkey) (w : World) : Prop :=
  ∃ txs : List Tx,
    (∀ tx ∈ txs, ∃ a n, tx.instruction = .unstake a n ∧ a.user = u ∧ a.userInfo = k ∧ 0 < n) ∧
    ∃ info, (Run.run (next R) w (txs.map .call)).userInfo k = some info ∧ info.stakedAmount = 0

def ClaimPayable (R : Runtime) (k u : Pubkey) (w : World) : Prop :=
  ∃ (tx : Tx) (a : ClaimReward), tx.instruction = .claimReward a ∧ a.claimer = u ∧ a.userInfo = k ∧
    tx.Succeeds R w

theorem World.HasStake.of_update {info : UserInfo}
    (h : w'.userInfo = Function.update w.userInfo k (some info)) (hStaked : 0 < info.stakedAmount) :
    w'.HasStake k :=
  ⟨info, h ▸ Function.update_self _ _ _, hStaked⟩

theorem World.HasStake.exec (h : w.HasStake k) (hOk : ix.exec R env w = .ok w') : w'.HasStake k := by
  obtain ⟨info, hInfo, hStaked⟩ := h
  by_cases hNamed : ix.userInfoAccount = some k
  · cases ix with
    | stake a n =>
      obtain ⟨_, _, _, loaded, hSpec⟩ := stake_ok hOk
      obtain rfl : a.userInfo = k := Option.some.inj hNamed
      have hLoaded := hSpec.loadedUser
      rw [hInfo] at hLoaded
      cases hLoaded
      exact .of_update hSpec.userInfo_eq (Nat.add_pos_left hStaked _)
    | unstake a n =>
      obtain ⟨_, _, _, loaded, hSpec⟩ := unstake_ok hOk
      obtain rfl : a.userInfo = k := Option.some.inj hNamed
      exact .of_update hSpec.userInfo_eq (Nat.sub_pos_of_lt hSpec.amount_lt)
    | claimReward a =>
      obtain ⟨_, _, _, loaded, hSpec⟩ := claimReward_ok hOk
      obtain rfl : a.userInfo = k := Option.some.inj hNamed
      cases hInfo.symm.trans hSpec.loadedUser
      have hInfo' := hSpec.userInfo_eq
      rw [if_neg hStaked.ne'] at hInfo'
      exact .of_update hInfo' hStaked
    | compoundReward a =>
      obtain ⟨_, _, _, loaded, hSpec⟩ := compoundReward_ok hOk
      obtain rfl : a.userInfo = k := Option.some.inj hNamed
      cases hInfo.symm.trans hSpec.loadedUser
      have hInfo' := hSpec.userInfo_eq
      rw [if_neg hStaked.ne'] at hInfo'
      exact .of_update hInfo' (Nat.add_pos_left hStaked _)
    | _ => cases hNamed
  · exact ⟨info, (Instruction.exec_userInfo hOk hNamed).trans hInfo, hStaked⟩

theorem World.HasStake.next (h : w.HasStake k) (a : Action) : (next R w a).HasStake k :=
  next_of_exec (I := fun w => w.HasStake k) h (fun _ _ => h) h.exec a

/-- Once there is a stake there is one in every continuation, whoever calls what. -/
theorem World.HasStake.run (h : w.HasStake k) (actions : List Action) :
    (Run.run (StakingOnSolana.next R) w actions).HasStake k :=
  Run.run_invariant (Q := fun _ _ => True) (fun _ a hStake _ => hStake.next a) h
    (Run.along_of_forall fun _ _ _ => trivial)

theorem World.HasStake.not_emptied (h : w.HasStake k) : ¬FullExit R k u w := by
  rintro ⟨txs, -, info, hInfo, hEmpty⟩
  obtain ⟨left, hLeft, hStaked⟩ := h.run (R := R) (txs.map .call)
  cases hInfo.symm.trans hLeft
  exact hStaked.ne' hEmpty

theorem not_fullExit {info : UserInfo} (hInfo : w.userInfo k = some info)
    (hStaked : 0 < info.stakedAmount) : ¬FullExit R k u w :=
  World.HasStake.not_emptied ⟨info, hInfo, hStaked⟩

open Localnet in
theorem not_fullExit_stakedPool : ¬FullExit .reference (userInfo 0 0) (user 0) stakedPool :=
  have hInfo : stakedPool.userInfo (userInfo 0 0) = some ⟨10, 0, 0⟩ := rfl
  not_fullExit hInfo (by decide)

open Localnet in
/-- The user could claim, but cannot leave. -/
theorem not_fullExit_of_claimPayable : ¬ ∀ (R : Runtime) (w : World) (k u : Pubkey)
    (info : UserInfo), w.Reachable R → w.userInfo k = some info → 0 < info.stakedAmount →
    ClaimPayable R k u w → FullExit R k u w := by
  intro hAll
  have hStake : stakedPool.HasStake (userInfo 0 0) := ⟨⟨10, 0, 0⟩, rfl, by decide⟩
  exact hStake.not_emptied (hAll .reference stakedPool (userInfo 0 0) (user 0) ⟨10, 0, 0⟩
    (reachable_run coin 9 _) rfl (by decide) ⟨claim 0 21 0, _, rfl, rfl, rfl, _, exec_of_isOk rfl⟩)

open Localnet in
example : StakingOnSolana.unstake .reference (Localnet.env 21 [admin, user 0]) (unstakeAccounts 0 0) 10
    stakedPool = .error (.brew .unstakeAmountTooHigh) := rfl

end StakingOnSolana
