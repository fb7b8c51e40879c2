import StakingOnSolana.Granularity

/-! # The payout of a call, and the view before it

What `stake`, `unstake` and `claim_reward` pay first is the same for the three: the reward that
the view returns in the same state at the same slot. An account without a stake has no debt, and
an account exists only where a stake succeeded, so that the view does not fail either.
-/
set_option autoImplicit false

namespace StakingOnSolana

open RewardShare

variable {R : Runtime} {env viewer : Env} {ix : Instruction} {w w' w₀ w₁ : World} {P : PoolAddress}
  {p : Pool} {op : PoolOp} {u v : Pubkey}

def Pool.payout (p : Pool) (u : Pubkey) : PoolOp → Nat
  | .stake slot v _ | .unstake slot v _ | .claim slot v => if v = u then (p.tick slot).owed v else 0
  | .start _ | .stop _ | .compound .. => 0

theorem Pool.payout_of_ne (h : op.caller ≠ some u) : p.payout u op = 0 := by
  have hNe : ∀ v, op.caller = some v → v ≠ u := by
    rintro v hv rfl
    exact h hv
  cases op with
  | start slot => rfl
  | stop slot => rfl
  | stake slot v amount => exact if_neg (hNe v rfl)
  | unstake slot v amount => exact if_neg (hNe v rfl)
  | claim slot v => exact if_neg (hNe v rfl)
  | compound slot v => rfl

theorem rewardsPaid_compoundEvents (u compounder : Pubkey) (pending credited : Nat) :
    rewardsPaid u (compoundEvents compounder pending credited) = 0 := by
  unfold compoundEvents
  split <;> rfl

/-- The events that a call on the pool appends name what it pays. -/
theorem exec_events (hHolds : w.Holds P p) (hMatched : ix.Matched P)
    (hOp : ix.op p.config env.slot = some op) (h : ix.exec R env w = .ok w') :
    ∃ new, w'.events = w.events ++ new ∧ ∀ u, rewardsPaid u new = p.payout u op := by
  cases ix with
  | initializePlatform a d f => exact hMatched.elim
  | createPool a args => exact hMatched.elim
  | startReward a =>
    cases hOp
    exact ⟨_, (startReward_matched hHolds hMatched h).events_eq, fun _ => rfl⟩
  | stopReward a =>
    cases hOp
    exact ⟨_, (stopReward_matched hHolds hMatched h).events_eq, fun _ => rfl⟩
  | stake a n =>
    cases hOp
    obtain ⟨-, platform, hSpec⟩ := stake_matched hHolds hMatched h
    refine ⟨_, hSpec.events_eq.trans (List.append_assoc _ _ _), fun u => ?_⟩
    rw [rewardsPaid_append, rewardsPaid_claimEvents]
    exact Nat.add_zero _
  | unstake a n =>
    cases hOp
    obtain ⟨platform, hSpec⟩ := unstake_matched hHolds hMatched h
    exact ⟨_, hSpec.events_eq, fun u => rewardsPaid_claimEvents u _ _⟩
  | claimReward a =>
    cases hOp
    obtain ⟨platform, hSpec⟩ := claimReward_matched hHolds hMatched h
    exact ⟨_, hSpec.events_eq, fun u => rewardsPaid_claimEvents u _ _⟩
  | compoundReward a =>
    cases hOp
    obtain ⟨platform, hSpec⟩ := compoundReward_matched hHolds hMatched h
    exact ⟨_, hSpec.events_eq, fun u => rewardsPaid_compoundEvents u _ _ _⟩

theorem op_payee {c : PoolConfig} {slot : Nat} (hPayee : ix.payee = some u)
    (hOp : ix.op c slot = some op) : p.payout u op = (p.tick slot).owed u := by
  cases ix <;> cases hPayee <;> cases hOp <;> exact if_pos rfl

theorem Instruction.transfers_eq (slot : Nat) (hPayee : ix.payee = some u) :
    ∃ others, ix.transfers p slot = ix.tokenRoutes.zip ((p.tick slot).owed u :: others) := by
  cases ix with
  | stake a n =>
    cases hPayee
    exact ⟨[_, _], rfl⟩
  | unstake a n =>
    cases hPayee
    exact ⟨[_, _], rfl⟩
  | claimReward a =>
    cases hPayee
    exact ⟨[], rfl⟩
  | _ => cases hPayee

/-- The payout is the first transfer of the call. -/
theorem exec_payout (hHolds : w.Holds P p) (hMatched : ix.Matched P) (hPayee : ix.payee = some u)
    (h : ix.exec R env w = .ok w') :
    ∃ others, w'.bank.amount = Balance.moveAll w.bank.amount
      (ix.tokenRoutes.zip ((p.tick env.slot).owed u :: others)) := by
  obtain ⟨others, hTransfers⟩ := Instruction.transfers_eq (p := p) env.slot hPayee
  obtain ⟨-, hAmount⟩ := exec_transfers hHolds hMatched hPayee h
  rw [hTransfers] at hAmount
  exact ⟨others, hAmount⟩

def World.UsersHaveDecimals (w : World) : Prop :=
  ∀ k u c, (w.userInfo (.userInfoPda k u)).isSome = true → w.poolConfig k = some c →
    c.rewardMintDecimals ≤ 9

theorem World.UsersHaveDecimals.exec (h : w.UsersHaveDecimals) (hPools : w.UsersHavePools)
    (hOk : ix.exec R env w = .ok w') : w'.UsersHaveDecimals := by
  intro k u c hUser hConfig
  have hBefore : ∃ c', w.poolConfig k = some c' ∧ c'.rewardMintDecimals ≤ 9 := by
    cases hOld : w.userInfo (.userInfoPda k u) with
    | none =>
      obtain ⟨info, hInfo⟩ := Option.isSome_iff_exists.mp hUser
      obtain ⟨a, n, _, c', _, _, hKey, hSpec⟩ := Instruction.exec_userInfo_created hOk hOld hInfo
      obtain ⟨rfl, -⟩ := Pubkey.userInfoPda.inj (hSpec.derived.symm.trans hKey)
      exact ⟨c', hSpec.loadedConfig, hSpec.decimals⟩
    | some info =>
      obtain ⟨_, _, c', hKey, hc⟩ := hPools _ info hOld
      obtain ⟨rfl, -⟩ := Pubkey.userInfoPda.inj hKey
      exact ⟨c', hc, h _ _ _ (by rw [hOld]; rfl) hc⟩
  obtain ⟨c', hOld, hDecimals⟩ := hBefore
  rcases Instruction.exec_poolConfig hOk hOld with hSame | ⟨_, -, -, -, hSet⟩
  · cases hConfig.symm.trans hSame
    exact hDecimals
  · cases hConfig.symm.trans hSet
    exact hDecimals

theorem World.Reachable.usersHaveDecimals (h : w.Reachable R) : w.UsersHaveDecimals := by
  suffices hBoth : w.UsersHavePools ∧ w.UsersHaveDecimals from hBoth.2
  apply h.induction (I := fun w => w.UsersHavePools ∧ w.UsersHaveDecimals)
  · intro g hGenesis
    constructor
    · intro k info hInfo
      cases (hGenesis.userInfo k).symm.trans hInfo
    · intro k u c hUser
      rw [hGenesis.userInfo] at hUser
      cases hUser
  · intro w a hI
    refine next_of_exec (I := fun w => w.UsersHavePools ∧ w.UsersHaveDecimals) hI (fun _ _ => hI) ?_ a
    intro env ix w' hOk
    exact ⟨hI.1.exec hOk, hI.2.exec hI.1 hOk⟩

theorem Pool.Sound.debt_le {changes : Nat} (h : p.Sound changes) (slot : Nat) (u : Pubkey) :
    (p.user u).rewardDebt ≤ UserInfo.earned p.config (p.tick slot).state (p.staked u) :=
  Book.Sound.debt_le (h.tick slot) u

theorem exec_computed (hHolds : w.Holds P p) (hMatched : ix.Matched P) (hPayee : ix.payee = some u)
    (h : ix.exec R env w = .ok w') : Computed p.config env.slot p.state (p.user u) := by
  cases ix with
  | stake a n =>
    cases hPayee
    obtain ⟨hKey, -, -⟩ := stake_matched hHolds hMatched h
    obtain ⟨hConfig, hState, -⟩ := hMatched
    have hComputed := stake_computed (hConfig ▸ hHolds.config) (hState ▸ hHolds.state) h
    rwa [hKey, hHolds.user] at hComputed
  | unstake a n =>
    cases hPayee
    obtain ⟨platform, hSpec⟩ := unstake_matched hHolds hMatched h
    exact (unstake_computed hSpec.loadedConfig hSpec.loadedState hSpec.loadedUser h).1
  | claimReward a =>
    cases hPayee
    obtain ⟨platform, hSpec⟩ := claimReward_matched hHolds hMatched h
    exact claimReward_computed hSpec.loadedConfig hSpec.loadedState hSpec.loadedUser h
  | _ => cases hPayee

/-- Whenever a call pays its user, the view returned that amount in the state before at the same
slot; a user who has no account yet is paid nothing. -/
theorem payout_eq_view {a : CreatePool} {args : CreatePoolArgs} {actions : List Action}
    (hReach : w₀.Reachable R) (hCreate : createPool R env a args w₀ = .ok w₁)
    (hRun : ∀ x ∈ actions, x.OnPool a.pool [.startReward, .stake, .unstake, .claimReward,
      .compoundReward, .stopReward]) {tx : Tx} (hMatched : tx.instruction.Matched a.pool)
    (hPayee : tx.instruction.payee = some u) (hSlot : viewer.slot = tx.env.slot)
    (hOk : tx.instruction.exec R tx.env (Run.run (next R) w₁ actions) = .ok w') :
    ∃ payout others, w'.bank.amount = Balance.moveAll (Run.run (next R) w₁ actions).bank.amount
        (tx.instruction.tokenRoutes.zip (payout :: others)) ∧
      rewardsPaid u w'.events = rewardsPaid u (Run.run (next R) w₁ actions).events + payout ∧
      if ((Run.run (next R) w₁ actions).userInfo (.userInfoPda a.pool.config u)).isSome = true then
        pendingReward viewer (a.pool.view u) (Run.run (next R) w₁ actions) = .ok payout
      else payout = 0 := by
  obtain ⟨p, hHolds, hSound⟩ := run_sound hReach hCreate hRun
  have hCreated : w₁.Reachable R := hReach.of_ok (.createPool a args) hCreate
  have hDecimals := (hCreated.run actions).usersHaveDecimals a.pool.config u
  obtain ⟨op, hOp, -, -⟩ := exec_matched hHolds hMatched hOk
  obtain ⟨new, hEvents, hPaid⟩ := exec_events hHolds hMatched hOp hOk
  obtain ⟨others, hAmount⟩ := exec_payout hHolds hMatched hPayee hOk
  refine ⟨(p.tick tx.env.slot).owed u, others, hAmount, ?_, ?_⟩
  · rw [hEvents, rewardsPaid_append, hPaid, op_payee hPayee hOp]
  · have hUser := hHolds.user u
    split
    · rename_i hExists
      obtain ⟨info, hInfo⟩ := Option.isSome_iff_exists.mp hExists
      rw [hInfo] at hUser
      obtain rfl : info = p.user u := hUser
      rw [← hSlot]
      refine pendingReward_of_computed hHolds.config hHolds.state hInfo
        (hDecimals p.config hExists hHolds.config) ?_ (hSound.debt_le _ u)
      rw [hSlot]
      exact exec_computed hHolds hMatched hPayee hOk
    · rename_i hMissing
      rw [Bool.not_eq_true, Option.isSome_eq_false_iff, Option.isNone_iff_eq_none] at hMissing
      rw [hMissing] at hUser
      have hNone : p.staked u = 0 := congrArg UserInfo.stakedAmount hUser.symm
      exact Pool.owed_of_unstaked hNone _

namespace Localnet

def firstStake : List Tx := [start 0 0, stake 0 11 0 10]

end Localnet

open Localnet in
theorem payout_eq_view_firstStake : ∃ payout others,
    (run (dayPoolCreated coin 9 216000) (firstStake ++ [claim 0 21 0])).bank.amount =
        Balance.moveAll (run (dayPoolCreated coin 9 216000) firstStake).bank.amount
          ((claim 0 21 0).instruction.tokenRoutes.zip (payout :: others)) ∧
      rewardsPaid (user 0) (run (dayPoolCreated coin 9 216000) (firstStake ++ [claim 0 21 0])).events =
        rewardsPaid (user 0) (run (dayPoolCreated coin 9 216000) firstStake).events + payout ∧
      pendingReward (Localnet.env 21 []) ((createAccounts coin 0).pool.view (user 0))
        (run (dayPoolCreated coin 9 216000) firstStake) = .ok payout :=
  have hClaim : (claim 0 21 0).instruction.exec .reference (claim 0 21 0).env
      (run (dayPoolCreated coin 9 216000) firstStake) =
        .ok (run (dayPoolCreated coin 9 216000) (firstStake ++ [claim 0 21 0])) := exec_of_isOk rfl
  payout_eq_view (reachable_run coin 9 [open_]) (dayPool_created coin 9 216000 rfl)
    (onPool_of_matched (by decide)) (by decide) rfl rfl hClaim

end StakingOnSolana
