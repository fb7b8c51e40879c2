import Mathlib.Data.Set.Finite.Lattice
import StakingOnSolana.RewardAccounting

/-! # The stakes and their total

The total that `update_pool` divides by is kept apart from the user accounts. In every state that
a run reaches it is the sum of the stakes over the user accounts of the pool that exist.
-/
set_option autoImplicit false

namespace StakingOnSolana

open RewardShare

variable {R : Runtime} {env : Env} {ix : Instruction} {w w' w₀ w₁ : World} {P : PoolAddress} {p : Pool}

def World.userAccounts (w : World) : Set Pubkey := {k | (w.userInfo k).isSome = true}

def StakesAddUp (P : PoolAddress) (w : World) : Prop :=
  ∃ (s : PoolState) (stakers : Finset Pubkey), w.poolState P.state = some s ∧
    (∀ u, u ∈ stakers ↔ (w.userInfo (.userInfoPda P.config u)).isSome = true) ∧
    s.totalStaked = ∑ u ∈ stakers, ((w.userInfo (.userInfoPda P.config u)).getD .zero).stakedAmount

/-- In a reachable world there are finitely many accounts of a kind of which an instruction writes
one at most. -/
theorem World.Reachable.finite_of_exec {α : Type} (field : World → Pubkey → Option α)
    (hGenesis : ∀ g, World.Genesis g → ∀ k, field g k = none)
    (hOutside : ∀ w bank mint, field { w with bank, mint } = field w)
    (hExec : ∀ {env : Env} {ix : Instruction} {w w' : World}, ix.exec R env w = .ok w' →
      ∃ k, ∀ j, j ≠ k → field w' j = field w j)
    (h : w.Reachable R) : {k | (field w k).isSome = true}.Finite := by
  apply h.induction (I := fun w => {k | (field w k).isSome = true}.Finite)
  · intro g hStart
    have hNone : {k | (field g k).isSome = true} = ∅ := by
      ext k
      simp [hGenesis g hStart k]
    rw [hNone]
    exact Set.finite_empty
  · intro w a hFinite
    refine next_of_exec (I := fun w => {k | (field w k).isSome = true}.Finite) hFinite ?_ ?_ a
    · intro bank mint
      rwa [hOutside]
    · intro env ix w' hOk
      obtain ⟨k, hKept⟩ := hExec hOk
      refine (hFinite.insert k).subset fun j hMem => ?_
      by_cases hj : j = k
      · exact Or.inl hj
      · refine Or.inr ?_
        change (field w' j).isSome = true at hMem
        rwa [hKept j hj] at hMem

theorem World.Reachable.finite_userAccounts (h : w.Reachable R) : w.userAccounts.Finite := by
  refine h.finite_of_exec World.userInfo (fun g hGenesis => hGenesis.userInfo) (fun _ _ _ => rfl) ?_
  intro env ix w w' hOk
  cases hNamed : ix.userInfoAccount with
  | none =>
    refine ⟨.address 0, fun j _ => Instruction.exec_userInfo hOk ?_⟩
    rw [hNamed]
    exact nofun
  | some named =>
    refine ⟨named, fun j hj => Instruction.exec_userInfo hOk ?_⟩
    rw [hNamed]
    exact fun hEq => hj (Option.some.inj hEq).symm

theorem Pool.Sound.stakesAddUp {changes : Nat} (hSound : p.Sound changes) (hHolds : w.Holds P p)
    (hFinite : w.userAccounts.Finite) : StakesAddUp P w := by
  have hInjective : Set.InjOn (Pubkey.userInfoPda P.config)
      (Set.preimage (Pubkey.userInfoPda P.config) w.userAccounts) :=
    fun u _ v _ hEq => (Pubkey.userInfoPda.inj hEq).2
  have hStakers := hFinite.preimage hInjective
  have hMem : ∀ u, u ∈ hStakers.toFinset ↔ (w.userInfo (.userInfoPda P.config u)).isSome = true := by
    intro u
    rw [Set.Finite.mem_toFinset]
    rfl
  refine ⟨p.state, hStakers.toFinset, hHolds.state, hMem, ?_⟩
  have hTotal := Book.Sound.total_eq hSound hStakers.toFinset fun u hu => ?_
  · refine hTotal.trans (Finset.sum_congr rfl fun u _ => ?_)
    rw [hHolds.user u]
    rfl
  · have hNone : w.userInfo (.userInfoPda P.config u) = none := by
      rwa [hMem, Bool.not_eq_true, Option.isSome_eq_false_iff, Option.isNone_iff_eq_none] at hu
    change Position.mk (p.user u).stakedAmount (p.user u).rewardDebt = ⟨0, 0⟩
    rw [← hHolds.user u, hNone]
    rfl

/-- In every state that a run on the pool reaches, the ledger of the stakes adds up. -/
theorem stakesAddUp_run {a : CreatePool} {args : CreatePoolArgs} {actions : List Action}
    (hReach : w₀.Reachable R) (hCreate : createPool R env a args w₀ = .ok w₁)
    (hRun : ∀ x ∈ actions, x.OnPool a.pool [.startReward, .stake, .unstake, .claimReward,
      .compoundReward, .stopReward]) :
    StakesAddUp a.pool (Run.run (next R) w₁ actions) := by
  obtain ⟨p, hHolds, hSound⟩ := run_sound hReach hCreate hRun
  have hCreated : w₁.Reachable R := hReach.of_ok (.createPool a args) hCreate
  exact hSound.stakesAddUp hHolds (hCreated.run actions).finite_userAccounts

namespace Localnet

def compoundedRun : List Tx := [start 0 0, stake 0 11 0 30, stake 0 12 1 10, compound 0 21 0,
  unstake 0 30 1 4, claim 0 31 0]

end Localnet

open Localnet in
theorem stakesAddUp_run_compoundedRun :
    StakesAddUp (createAccounts coin 0).pool (run (dayPoolCreated coin 9 216000) compoundedRun) :=
  stakesAddUp_run (reachable_run coin 9 [open_]) (dayPool_created coin 9 216000 rfl)
    (onPool_of_matched (by decide))

end StakingOnSolana
