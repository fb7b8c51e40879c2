import StakingOnSolana.Program

/-! # One pool and the others

An instruction names one pool configuration, but nothing ties the other accounts that it takes
to that configuration: not the pool state, not the user account outside of `stake`, and only
some of the vaults. Calls that pass the accounts of the named pool leave the other pools alone.
-/
set_option autoImplicit false

namespace StakingOnSolana

variable {R : Runtime} {env : Env} {ix : Instruction} {w w' : World} {k : Pubkey} {c : PoolConfig}

def World.IsVault (w : World) (v : Pubkey) : Prop :=
  ∃ k c, w.poolConfig k = some c ∧ (v = c.poolStakeTokenVault ∨ v = c.poolRewardTokenVault)

/-- From `w` to `w'`, what does not belong to the pool `k` is as it was, and no vault of another
pool has lost anything. -/
structure Isolated (k : Pubkey) (c : PoolConfig) (w w' : World) : Prop where
  poolState : ∀ s, s ≠ c.stateAddr → w'.poolState s = w.poolState s
  userInfo : ∀ i, (∀ u, i ≠ .userInfoPda k u) → w'.userInfo i = w.userInfo i
  vault : ∀ v, w.IsVault v → v ≠ c.poolStakeTokenVault → v ≠ c.poolRewardTokenVault →
    w.bank.amount v ≤ w'.bank.amount v

/-- The accounts that the call passes belong to the pool `k`, whose configuration it names. -/
structure OwnAccounts (k : Pubkey) (c : PoolConfig) (w : World) (tx : Tx) : Prop where
  poolState : tx.instruction.poolStateAccount = some c.stateAddr
  userInfo : ∀ i, tx.instruction.userInfoAccount = some i → ∃ u, i = .userInfoPda k u
  sources : ∀ route ∈ tx.instruction.tokenRoutes, w.IsVault route.1 →
    route.1 = c.poolStakeTokenVault ∨ route.1 = c.poolRewardTokenVault
  swaps : ∀ a, tx.instruction = .compoundReward a → a.OfTwoMints w → ∀ v, w.IsVault v →
    v ≠ c.poolStakeTokenVault → v ≠ c.poolRewardTokenVault → tx.env.SwapSpares v

def OnNamedPool (R : Runtime) (F : Pubkey → PoolConfig → World → Tx → Prop) (w : World) :
    Action → Prop
  | .call tx => ∀ k c, tx.instruction.poolConfigAccount = some k → w.poolConfig k = some c →
      tx.Succeeds R w → F k c w tx
  | .outside .. => True

theorem OwnAccounts.isolated {tx : Tx} (h : OwnAccounts k c w tx)
    (hOk : tx.instruction.exec R tx.env w = .ok w') : Isolated k c w w' := by
  constructor
  · intro s hs
    exact Instruction.exec_poolState_of_ne hOk h.poolState hs
  · intro i hi
    refine Instruction.exec_userInfo hOk fun hNamed => ?_
    obtain ⟨u, hu⟩ := h.userInfo i hNamed
    exact hi u hu
  · intro v hVault hStake hReward
    apply Instruction.exec_amount_le hOk
    · rintro route hRoute rfl
      rcases h.sources route hRoute hVault with hOwn | hOwn
      · exact hStake hOwn
      · exact hReward hOwn
    · intro a hix hMints
      exact h.swaps a hix hMints v hVault hStake hReward

/-- In every run whose calls pass the accounts of the pool that they name, no call touches what
belongs to another pool. -/
theorem isolated_of_ownAccounts {actions : List Action}
    (hRun : Run.Along (next R) (OnNamedPool R OwnAccounts) w actions) :
    Run.Along (next R) (OnNamedPool R fun k c w tx => Isolated k c w (next R w (.call tx)))
      w actions := by
  refine hRun.mono fun w a hOwn => ?_
  cases a with
  | outside bank mint => trivial
  | call tx =>
    rintro k c hNamed hConfig ⟨w', hOk⟩
    rw [next_of_ok hOk]
    exact (hOwn k c hNamed hConfig ⟨w', hOk⟩).isolated hOk

namespace Localnet

def twoPools : World := run (genesis coin 9)
  [open_, create coin 0 (dayPool 216000), create coin 1 (dayPool 216000), start 1 0]

def crossedStart : Tx := ⟨Localnet.env 50 [creator], .startReward ⟨creator, config 0, state 1⟩⟩

theorem twoPools_isVault {v : Pubkey} (h : twoPools.IsVault v) :
    v = stakeVault 0 ∨ v = rewardVault 0 ∨ v = stakeVault 1 ∨ v = rewardVault 1 := by
  obtain ⟨k, c, hConfig, hVault⟩ := h
  change Function.update (Function.update (Function.update (fun _ => none) (config 0) (some _))
    (config 1) (some _)) (config 1) (some _) k = some c at hConfig
  simp only [Function.update_apply] at hConfig
  split at hConfig
  · cases hConfig
    exact Or.inr (Or.inr hVault)
  · split at hConfig
    · cases hConfig
      exact (hVault.imp_right Or.inl)
    · cases hConfig

theorem stake_ownAccounts : Run.Along (next .reference) (OnNamedPool .reference OwnAccounts) twoPools
    [.call (stake 1 61 0 10)] := by
  refine ⟨?_, trivial⟩
  rintro k c hNamed hConfig -
  cases hNamed
  cases hConfig
  refine ⟨rfl, ?_, ?_, ?_⟩
  · rintro i ⟨⟩
    exact ⟨user 0, rfl⟩
  · intro route hRoute hVault
    have hSources : ∀ route ∈ (stake 1 61 0 10).instruction.tokenRoutes,
        route.1 = rewardVault 1 ∨ route.1 = userStake 0 ∨ route.1 = stakeVault 1 := by
      decide
    rcases hSources route hRoute with h | h | h
    · exact Or.inr h
    · rw [h] at hVault
      rcases twoPools_isVault hVault with hEq | hEq | hEq | hEq <;> cases hEq
    · exact Or.inl h
  · rintro a ⟨⟩

end Localnet

open Localnet in
theorem isolated_of_ownAccounts_stake :
    Run.Along (next .reference) (OnNamedPool .reference fun k c w tx =>
      Isolated k c w (next .reference w (.call tx))) twoPools [.call (Localnet.stake 1 61 0 10)] :=
  isolated_of_ownAccounts stake_ownAccounts

open Localnet in
/-- The start of the first pool moves the last reward slot of the second from 10 to 60. -/
theorem not_isolated_crossedStart : ¬ ∀ (R : Runtime) (w : World) (tx : Tx), w.Reachable R →
    OnNamedPool R (fun k c w tx => Isolated k c w (next R w (.call tx))) w (.call tx) := by
  intro hAll
  have hIsolated := hAll .reference twoPools crossedStart (reachable_run coin 9 _) (config 0) _ rfl
    rfl ⟨_, exec_of_isOk rfl⟩
  have hKept := hIsolated.poolState (state 1) (by decide)
  revert hKept
  decide

end StakingOnSolana
