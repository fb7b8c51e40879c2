import StakingOnSolana.RewardAccounting

/-! # How often the pool is updated

Two runs from the same state, one without and one with claims in between, are compared at a
later slot. A claim advances the pool and settles with one user; the stakes stay, so the only
difference is that the accumulator was rounded down once more.
-/
set_option autoImplicit false

namespace StakingOnSolana

open RewardShare

variable {R : Runtime} {w w' : World} {P : PoolAddress} {p p' p'' : Pool} {env : Env}

def rewardsPaid (u : Pubkey) (events : List Event) : Nat :=
  (events.map fun
    | .rewardClaim claimer amount => if claimer = u then amount else 0
    | _ => 0).sum

theorem rewardsPaid_append (u : Pubkey) (xs ys : List Event) :
    rewardsPaid u (xs ++ ys) = rewardsPaid u xs + rewardsPaid u ys := by
  simp only [rewardsPaid, List.map_append, List.sum_append]

theorem rewardsPaid_claimEvents (u claimer : Pubkey) (pending : Nat) :
    rewardsPaid u (claimEvents claimer pending) = if claimer = u then pending else 0 := by
  unfold claimEvents
  split
  · exact Nat.add_zero _
  · rename_i hZero
    rw [Nat.eq_zero_of_not_pos hZero, ite_self]
    rfl

/-- The pool `p'` was updated up to `updates` times since `p`, and `paid` to the users meanwhile. -/
structure Updated (later updates : Nat) (p p' : Pool) (paid : Pubkey → Nat) : Prop where
  config : p'.config = p.config
  staked : ∀ u, p'.staked u = p.staked u
  acc_le : (p'.tick later).state.accTokenPerShare ≤ (p.tick later).state.accTokenPerShare
  le_acc : (p.tick later).state.accTokenPerShare ≤
    (p'.tick later).state.accTokenPerShare + updates
  settled : ∀ u, paid u + (p.user u).rewardDebt = (p'.user u).rewardDebt

namespace Updated

variable {later n m : Nat} {paid paid' : Pubkey → Nat}

theorem refl (later : Nat) (p : Pool) : Updated later 0 p p (fun _ => 0) :=
  ⟨rfl, fun _ => rfl, Nat.le_refl _, Nat.le_refl _, fun _ => Nat.zero_add _⟩

theorem trans (h : Updated later n p p' paid) (h' : Updated later m p' p'' paid') :
    Updated later (n + m) p p'' (fun u => paid u + paid' u) := by
  refine ⟨h'.config.trans h.config, fun u => (h'.staked u).trans (h.staked u),
    h'.acc_le.trans h.acc_le, ?_, fun u => ?_⟩
  · have hFirst := h.le_acc
    have hSecond := h'.le_acc
    omega
  · have hFirst := h.settled u
    have hSecond := h'.settled u
    omega

theorem tick {slot : Nat} (hSlot : slot ≤ later) (p : Pool) :
    Updated later 1 p (p.tick slot) (fun _ => 0) := by
  have hShare := share_add p.config.precisionFactor p.state.totalStaked
    (p.state.accruing p.config slot) ((p.state.accrue p.config slot).accruing p.config later)
  rw [PoolState.accruing_accrue p.config p.state hSlot] at hShare
  refine ⟨rfl, fun _ => rfl, ?_, ?_, fun _ => Nat.zero_add _⟩
  · change p.state.accTokenPerShare + _ + _ ≤ p.state.accTokenPerShare + _
    rw [Nat.add_assoc]
    exact Nat.add_le_add_left hShare.1 _
  · change p.state.accTokenPerShare + _ ≤ p.state.accTokenPerShare + _ + _ + 1
    rw [Nat.add_assoc, Nat.add_assoc]
    exact Nat.add_le_add_left hShare.2 _

theorem claim {slot : Nat} (hSlot : slot ≤ later) {v : Pubkey} (hPayable : p.Payable slot v) :
    Updated later 1 p (p.step (.claim slot v)) (fun u => if v = u then (p.tick slot).owed v else 0) := by
  have hTick := tick hSlot p
  by_cases hNone : p.staked v = 0
  · rw [Pool.step_claim_of_unstaked slot hNone, Pool.owed_of_unstaked hNone]
    simp only [ite_self]
    exact hTick
  · rw [Pool.step_claim_of_staked slot hNone]
    have hAcc : ((((p.tick slot).pay v).reopen v (p.staked v)).tick later).state.accTokenPerShare =
        ((p.tick slot).tick later).state.accTokenPerShare := by
      have hState : (((p.tick slot).pay v).reopen v (p.staked v)).state =
          ((p.tick slot).pay v).state := ((p.tick slot).pay v).reopen_same_state v
      change (PoolState.accrue p.config later
        (((p.tick slot).pay v).reopen v (p.staked v)).state).accTokenPerShare = _
      rw [hState]
      rfl
    refine ⟨rfl, fun u => ?_, hAcc ▸ hTick.acc_le, hAcc ▸ hTick.le_acc, fun u => ?_⟩
    · by_cases hu : u = v
      · subst hu
        simp [Pool.staked, Pool.reopen]
      · simp [Pool.staked, Pool.reopen, Pool.pay, Pool.tick, hu]
    · by_cases hu : u = v
      · subst hu
        have hDebt := hPayable.debt_le (Nat.pos_of_ne_zero hNone)
        rw [if_pos rfl]
        simp only [Pool.reopen, Function.update_self]
        exact Nat.sub_add_cancel hDebt
      · rw [if_neg (Ne.symm hu), Nat.zero_add]
        simp [Pool.reopen, Pool.pay, Pool.tick, hu]

end Updated

theorem next_claim_updated {a : ClaimReward} {later : Nat} (hHolds : w.Holds P p)
    (hMatched : (Instruction.claimReward a).Matched P) (hSlot : env.slot ≤ later) :
    ∃ p' paid, (next R w (.call ⟨env, .claimReward a⟩)).Holds P p' ∧ Updated later 1 p p' paid ∧
      ∀ u, rewardsPaid u (next R w (.call ⟨env, .claimReward a⟩)).events =
        rewardsPaid u w.events + paid u := by
  rcases next_call R w ⟨env, .claimReward a⟩ with ⟨-, hSame⟩ | ⟨w', hOk, hNext⟩
  · rw [hSame]
    refine ⟨p, fun _ => 0, hHolds, ?_, fun _ => rfl⟩
    have hNone := Updated.refl later p
    exact { hNone with le_acc := hNone.le_acc.trans (Nat.le_succ _) }
  · rw [hNext]
    obtain ⟨hEnabled, hAfter⟩ := claimReward_holds hHolds hMatched hOk
    refine ⟨_, _, hAfter, Updated.claim hSlot hEnabled, fun u => ?_⟩
    obtain ⟨platform, hSpec⟩ := claimReward_matched hHolds hMatched hOk
    rw [hSpec.events_eq, rewardsPaid_append, rewardsPaid_claimEvents]
    rfl

def claimActions (claims : List (Env × ClaimReward)) : List Action :=
  claims.map fun x => .call ⟨x.1, .claimReward x.2⟩

theorem run_claims_updated {claims : List (Env × ClaimReward)} {later : Nat} (hHolds : w.Holds P p)
    (hMatched : ∀ x ∈ claims, (Instruction.claimReward x.2).Matched P)
    (hSlots : ∀ x ∈ claims, x.1.slot ≤ later) :
    ∃ p' paid, (Run.run (next R) w (claimActions claims)).Holds P p' ∧
      Updated later claims.length p p' paid ∧
      ∀ u, rewardsPaid u (Run.run (next R) w (claimActions claims)).events =
        rewardsPaid u w.events + paid u := by
  induction claims generalizing w p with
  | nil => exact ⟨p, fun _ => 0, hHolds, Updated.refl later p, fun _ => rfl⟩
  | cons x rest ih =>
    obtain ⟨p₁, paid₁, hHolds₁, hUpdated₁, hPaid₁⟩ := next_claim_updated (R := R) hHolds
      (hMatched x List.mem_cons_self) (hSlots x List.mem_cons_self)
    obtain ⟨p₂, paid₂, hHolds₂, hUpdated₂, hPaid₂⟩ := ih hHolds₁
      (fun y hy => hMatched y (List.mem_cons_of_mem x hy))
      (fun y hy => hSlots y (List.mem_cons_of_mem x hy))
    refine ⟨p₂, fun u => paid₁ u + paid₂ u, hHolds₂, ?_, fun u => ?_⟩
    · rw [List.length_cons, Nat.add_comm]
      exact hUpdated₁.trans hUpdated₂
    · rw [← Nat.add_assoc, ← hPaid₁ u]
      exact hPaid₂ u

/-- Claims of any users in between never raise what a user gets until a later slot, and lower it
by no more than what the lost steps of the accumulator are worth to his stake. -/
theorem claims_between {k u : Pubkey} {c : PoolConfig} {info : UserInfo}
    {claims : List (Env × ClaimReward)} {pending pending' : Nat} (hReach : w.Reachable R)
    (hConfig : w.poolConfig k = some c) (hInfo : w.userInfo (.userInfoPda k u) = some info)
    (hMatched : ∀ x ∈ claims, (Instruction.claimReward x.2).Matched (c.address k))
    (hSlots : ∀ x ∈ claims, x.1.slot ≤ env.slot)
    (hView : pendingReward env ((c.address k).view u) w = .ok pending)
    (hView' : pendingReward env ((c.address k).view u)
      (Run.run (next R) w (claimActions claims)) = .ok pending') :
    rewardsPaid u (Run.run (next R) w (claimActions claims)).events + pending' ≤
        rewardsPaid u w.events + pending ∧
      rewardsPaid u w.events + pending ≤
        rewardsPaid u (Run.run (next R) w (claimActions claims)).events + pending' +
          (info.stakedAmount * claims.length + (c.precisionFactor - 1)) / c.precisionFactor := by
  obtain ⟨p, hHolds, rfl⟩ := World.Holds.of_reachable hReach hConfig
  obtain ⟨p', paid, hHolds', hUpdated, hPaid⟩ := run_claims_updated (R := R) hHolds hMatched hSlots
  obtain ⟨hDebt, rfl⟩ := pendingReward_holds hHolds hView
  obtain ⟨hDebt', rfl⟩ := pendingReward_holds hHolds' hView'
  obtain rfl := hHolds.user_eq rfl hInfo
  rw [hPaid u]
  have hSettled := hUpdated.settled u
  -- Both views are a whole reward, at two accumulators, less what was settled before.
  have hOwed : (p.tick env.slot).owed u =
      earned p.config.precisionFactor (p.tick env.slot).state.accTokenPerShare (p.staked u) -
        (p.user u).rewardDebt := rfl
  have hOwed' : (p'.tick env.slot).owed u =
      earned p.config.precisionFactor (p'.tick env.slot).state.accTokenPerShare (p.staked u) -
        (p'.user u).rewardDebt := by
    rw [← hUpdated.staked u, ← hUpdated.config]
    rfl
  change (p.user u).rewardDebt ≤
    earned p.config.precisionFactor (p.tick env.slot).state.accTokenPerShare (p.staked u) at hDebt
  have hDebt' : (p'.user u).rewardDebt ≤
      earned p.config.precisionFactor (p'.tick env.slot).state.accTokenPerShare (p.staked u) := by
    rw [← hUpdated.staked u, ← hUpdated.config]
    exact hDebt'
  have hMono := earned_mono p.config.precisionFactor (p.staked u) hUpdated.acc_le
  have hLoss := (earned_mono p.config.precisionFactor (p.staked u) hUpdated.le_acc).trans
    (earned_add_le p.config.precisionFactor_pos _ _ _)
  change _ ∧ _ ≤ _ + (p.staked u * claims.length + _) / _
  constructor <;> omega

namespace Localnet

def thousandStaked : World :=
  run (genesis coin 9) [open_, create coin 0 ⟨0, 0, 1000000, 1, 1⟩, start 0 0, stake 0 11 0 1000]

def claimAt (slot : Nat) : Env × ClaimReward :=
  ⟨Localnet.env slot [admin, user 0], ⟨user 0, admin, treasury, userInfo 0 0, config 0, state 0, platform,
    userReward 0, rewardVault 0⟩⟩

end Localnet

open Localnet in
theorem claims_between_thousandStaked :
    rewardsPaid (user 0) (Run.run (next .reference) thousandStaked
        (claimActions [claimAt 511, claimAt 1011])).events + 0 ≤
          rewardsPaid (user 0) thousandStaked.events + 1000 ∧
      rewardsPaid (user 0) thousandStaked.events + 1000 ≤
        rewardsPaid (user 0) (Run.run (next .reference) thousandStaked
          (claimActions [claimAt 511, claimAt 1011])).events + 0 + (1000 * 2 + (1 - 1)) / 1 :=
  have hConfig : thousandStaked.poolConfig (config 0) = some
      { (createAccounts coin 0).poolConfig ⟨0, 0, 1000000, 1, 1⟩ ⟨9⟩ ⟨9⟩ with
        startSlot := 10, endSlot := 216010 } := rfl
  have hInfo : thousandStaked.userInfo (.userInfoPda (config 0) (user 0)) = some ⟨1000, 0, 0⟩ := rfl
  have hView : pendingReward (Localnet.env 1011 []) ((createAccounts coin 0).pool.view (user 0))
      thousandStaked = .ok 1000 := rfl
  have hView' : pendingReward (Localnet.env 1011 []) ((createAccounts coin 0).pool.view (user 0))
      (Run.run (next .reference) thousandStaked (claimActions [claimAt 511, claimAt 1011])) = .ok 0 := rfl
  claims_between (reachable_run coin 9 _) hConfig hInfo (by decide) (by decide) hView hView'

open Localnet in
/-- One claim in between changes what a user gets by more than one token. -/
theorem not_claims_between_one : ¬ ∀ (R : Runtime) (w : World) (env : Env) (k u : Pubkey)
    (c : PoolConfig) (s : PoolState) (claims : List (Env × ClaimReward)) (pending pending' : Nat),
    w.Reachable R → w.poolConfig k = some c → c.rewardMintDecimals ≤ 9 →
    w.poolState c.stateAddr = some s → 0 < s.totalStaked →
    (∀ x ∈ claims, (Instruction.claimReward x.2).Matched (c.address k)) →
    (∀ x ∈ claims, s.lastRewardSlot < x.1.slot ∧ x.1.slot < env.slot) →
    pendingReward env ((c.address k).view u) w = .ok pending →
    pendingReward env ((c.address k).view u) (Run.run (next R) w (claimActions claims)) =
      .ok pending' →
    rewardsPaid u w.events + pending ≤
      rewardsPaid u (Run.run (next R) w (claimActions claims)).events + pending' + 1 := by
  intro hAll
  have hClose := hAll .reference thousandStaked (Localnet.env 1011 []) (config 0) (user 0) _ _ [claimAt 511]
    1000 0 (reachable_run coin 9 _) rfl (by decide) rfl (by decide) (by decide) (by decide)
    (by decide) (by decide)
  revert hClose
  decide

end StakingOnSolana
