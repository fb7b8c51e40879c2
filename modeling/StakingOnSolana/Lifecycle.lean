import StakingOnSolana.Program

/-! # The accounts of the program over time

Accounts are created and never closed. Whatever accounts the calls pass, every reachable world
keeps the accounts of a kind apart from those of the others and the pools apart from each other,
and what a pool was created with stays, up to one start of its rewards.
-/
set_option autoImplicit false

namespace StakingOnSolana

open Checked

variable {R : Runtime} {env : Env} {ix : Instruction} {w w' w'' : World} {k : Pubkey}

inductive AccountKind where
  | platform | poolConfig | poolState | userInfo
  deriving DecidableEq, Repr

/-- The account at the address is one of the program, of the given kind. -/
def World.Has (w : World) (k : Pubkey) : AccountKind → Prop
  | .platform => (w.platform k).isSome = true
  | .poolConfig => (w.poolConfig k).isSome = true
  | .poolState => (w.poolState k).isSome = true
  | .userInfo => (w.userInfo k).isSome = true

theorem World.Vacant.not_has (h : w.Vacant k) (kind : AccountKind) : ¬w.Has k kind := by
  obtain ⟨hConfig, hState, hUser, hPlatform, -⟩ := h
  cases kind <;> simp [World.Has, hConfig, hState, hUser, hPlatform]

def Instruction.Creates : Instruction → Pubkey → AccountKind → Prop
  | .initializePlatform a _ _, k, kind => k = a.platform ∧ kind = .platform
  | .createPool a _, k, kind =>
    k = a.poolConfigAccount ∧ kind = .poolConfig ∨ k = a.poolStateAccount ∧ kind = .poolState
  | .stake a _, k, kind => k = a.userInfo ∧ kind = .userInfo
  | .startReward _, _, _ | .stopReward _, _, _ | .unstake .., _, _ | .claimReward _, _, _
  | .compoundReward _, _, _ => False

theorem initializePlatform_vacant {a : Initialize} {deployFee performanceFee : Nat}
    (h : initializePlatform R env a deployFee performanceFee w = .ok w') :
    w.Has a.platform .platform ∨ w.Vacant a.platform := by
  simp only [initializePlatform, bind_eq_ok, require_eq_ok] at h
  obtain ⟨-, -, -, -, -, -, bank, hInit, -⟩ := h
  unfold Initialize.initPlatform at hInit
  split at hInit
  · rename_i info hInfo
    refine Or.inl ?_
    change (w.platform a.platform).isSome = true
    rw [hInfo]
    rfl
  · simp only [bind_eq_ok, require_eq_ok] at hInit
    obtain ⟨-, hVacant, -⟩ := hInit
    exact Or.inr hVacant

theorem stake_vacant {a : Stake} {stakeAmount : Nat} (h : stake R env a stakeAmount w = .ok w') :
    w.Has a.userInfo .userInfo ∨ w.Vacant a.userInfo := by
  simp only [stake, bind_eq_ok, Prod.exists] at h
  obtain ⟨-, -, -, -, info, bank, hInit, -⟩ := h
  unfold Stake.initUserInfo at hInit
  split at hInit
  · rename_i old hOld
    refine Or.inl ?_
    change (w.userInfo a.userInfo).isSome = true
    rw [hOld]
    rfl
  · simp only [bind_eq_ok, require_eq_ok] at hInit
    obtain ⟨-, hVacant, -⟩ := hInit
    exact Or.inr hVacant

theorem isSome_update {α : Type} {f : Pubkey → Option α} {j : Pubkey} {v : α}
    (h : (Function.update f j (some v) k).isSome = true) : k = j ∨ (f k).isSome = true := by
  by_cases hk : k = j
  · exact Or.inl hk
  · rw [Function.update_of_ne hk] at h
    exact Or.inr h

theorem exec_poolState_loaded (h : ix.exec R env w = .ok w') (hNamed : ix.poolStateAccount = some k) :
    w.Has k .poolState := by
  cases ix with
  | initializePlatform a d f => cases hNamed
  | createPool a args => cases hNamed
  | startReward a =>
    obtain ⟨_, s, hSpec⟩ := startReward_ok h
    cases hNamed
    exact Option.isSome_iff_exists.mpr ⟨s, hSpec.loadedState⟩
  | stopReward a =>
    obtain ⟨_, s, hSpec⟩ := stopReward_ok h
    cases hNamed
    exact Option.isSome_iff_exists.mpr ⟨s, hSpec.loadedState⟩
  | stake a n =>
    obtain ⟨_, _, s, _, hSpec⟩ := stake_ok h
    cases hNamed
    exact Option.isSome_iff_exists.mpr ⟨s, hSpec.loadedState⟩
  | unstake a n =>
    obtain ⟨_, _, s, _, hSpec⟩ := unstake_ok h
    cases hNamed
    exact Option.isSome_iff_exists.mpr ⟨s, hSpec.loadedState⟩
  | claimReward a =>
    obtain ⟨_, _, s, _, hSpec⟩ := claimReward_ok h
    cases hNamed
    exact Option.isSome_iff_exists.mpr ⟨s, hSpec.loadedState⟩
  | compoundReward a =>
    obtain ⟨_, _, s, _, hSpec⟩ := compoundReward_ok h
    cases hNamed
    exact Option.isSome_iff_exists.mpr ⟨s, hSpec.loadedState⟩

theorem exec_userInfo_loaded (h : ix.exec R env w = .ok w') (hNamed : ix.userInfoAccount = some k) :
    w.Has k .userInfo ∨ ∃ a n, ix = .stake a n ∧ a.userInfo = k := by
  cases ix with
  | stake a n => exact Or.inr ⟨a, n, rfl, Option.some.inj hNamed⟩
  | unstake a n =>
    obtain ⟨_, _, _, info, hSpec⟩ := unstake_ok h
    cases hNamed
    exact Or.inl (Option.isSome_iff_exists.mpr ⟨info, hSpec.loadedUser⟩)
  | claimReward a =>
    obtain ⟨_, _, _, info, hSpec⟩ := claimReward_ok h
    cases hNamed
    exact Or.inl (Option.isSome_iff_exists.mpr ⟨info, hSpec.loadedUser⟩)
  | compoundReward a =>
    obtain ⟨_, _, _, info, hSpec⟩ := compoundReward_ok h
    cases hNamed
    exact Or.inl (Option.isSome_iff_exists.mpr ⟨info, hSpec.loadedUser⟩)
  | _ => cases hNamed

/-- An account that is there after a call was there, or the call has created it at an address that
was vacant. -/
theorem exec_has (h : ix.exec R env w = .ok w') {kind : AccountKind} (hHas : w'.Has k kind) :
    w.Has k kind ∨ w.Vacant k ∧ ix.Creates k kind := by
  cases kind with
  | platform =>
    rcases Instruction.exec_platform h with hSame | ⟨a, d, f, rfl, -, -, -, hUpdate⟩
    · rw [World.Has, hSame] at hHas
      exact Or.inl hHas
    · rw [World.Has, hUpdate] at hHas
      rcases isSome_update hHas with rfl | hOld
      · exact (initializePlatform_vacant h).imp_right fun hVacant => ⟨hVacant, rfl, rfl⟩
      · exact Or.inl hOld
  | poolConfig =>
    rcases Instruction.exec_poolConfig_eq h with hSame | ⟨a, args, _, _, rfl, hSpec⟩ | ⟨a, c, s, -, hSpec⟩
    · rw [World.Has, hSame] at hHas
      exact Or.inl hHas
    · rw [World.Has, hSpec.poolConfig_eq] at hHas
      rcases isSome_update hHas with rfl | hOld
      · exact Or.inr ⟨hSpec.vacantConfig, Or.inl ⟨rfl, rfl⟩⟩
      · exact Or.inl hOld
    · rw [World.Has, hSpec.poolConfig_eq] at hHas
      rcases isSome_update hHas with rfl | hOld
      · exact Or.inl (Option.isSome_iff_exists.mpr ⟨c, hSpec.loadedConfig⟩)
      · exact Or.inl hOld
  | poolState =>
    cases hNamed : ix.poolStateAccount with
    | some j =>
      by_cases hk : k = j
      · exact Or.inl (exec_poolState_loaded h (hk ▸ hNamed))
      · rw [World.Has, Instruction.exec_poolState_of_ne h hNamed hk] at hHas
        exact Or.inl hHas
    | none =>
      cases ix with
      | initializePlatform a d f =>
        obtain ⟨_, rfl⟩ := initializePlatform_ok h
        exact Or.inl hHas
      | createPool a args =>
        obtain ⟨_, _, hSpec⟩ := createPool_ok h
        rw [World.Has, hSpec.poolState_eq] at hHas
        rcases isSome_update hHas with rfl | hOld
        · exact Or.inr ⟨hSpec.vacantState, Or.inr ⟨rfl, rfl⟩⟩
        · exact Or.inl hOld
      | _ => cases hNamed
  | userInfo =>
    by_cases hNamed : ix.userInfoAccount = some k
    · rcases exec_userInfo_loaded h hNamed with hOld | ⟨a, n, rfl, rfl⟩
      · exact Or.inl hOld
      · exact (stake_vacant h).imp_right fun hVacant => ⟨hVacant, rfl, rfl⟩
    · rw [World.Has, Instruction.exec_userInfo h hNamed] at hHas
      exact Or.inl hHas

/-- The fees of a pool are within their limit, and its schedule is that of its duration. -/
structure PoolConfig.WellFormed (c : PoolConfig) : Prop where
  fees : c.stakeFee ≤ maxFee ∧ c.unstakeFee ≤ maxFee
  schedule : c.startSlot = 0 ∧ c.endSlot = 0 ∨
    10 ≤ c.startSlot ∧ c.endSlot = c.startSlot + c.duration * slotsPerDay

structure World.WellFormed (w : World) : Prop where
  oneKind : ∀ k kind kind', w.Has k kind → w.Has k kind' → kind = kind'
  terms : ∀ k c, w.poolConfig k = some c → c.WellFormed
  platforms : ∀ k info, w.platform k = some info → k = .platformPda info.treasury
  users : w.UsersHavePools
  states : w.PoolsHaveStates
  statesHavePools : ∀ j s, w.poolState j = some s → ∃ k c, w.poolConfig k = some c ∧ c.stateAddr = j
  ownStates : ∀ k k' c c', w.poolConfig k = some c → w.poolConfig k' = some c' →
    c.stateAddr = c'.stateAddr → k = k'

namespace World.WellFormed

theorem of_genesis (h : w.Genesis) : w.WellFormed where
  oneKind k kind kind' hHas := by
    cases kind <;> simp [Has, h.poolConfig k, h.poolState k, h.userInfo k, h.platform k] at hHas
  terms k c hc := by cases (h.poolConfig k).symm.trans hc
  platforms k info hInfo := by cases (h.platform k).symm.trans hInfo
  users k info hInfo := by cases (h.userInfo k).symm.trans hInfo
  states k c hc := by cases (h.poolConfig k).symm.trans hc
  statesHavePools j s hs := by cases (h.poolState j).symm.trans hs
  ownStates k k' c c' hc := by cases (h.poolConfig k).symm.trans hc

theorem oneKind_exec (h : w.WellFormed) (hOk : ix.exec R env w = .ok w') (k : Pubkey)
    (kind kind' : AccountKind) (hHas : w'.Has k kind) (hHas' : w'.Has k kind') : kind = kind' := by
  rcases exec_has hOk hHas with hOld | ⟨hVacant, hNew⟩
  · rcases exec_has hOk hHas' with hOld' | ⟨hVacant, -⟩
    · exact h.oneKind k kind kind' hOld hOld'
    · exact absurd hOld (hVacant.not_has kind)
  · rcases exec_has hOk hHas' with hOld' | ⟨-, hNew'⟩
    · exact absurd hOld' (hVacant.not_has kind')
    · cases ix with
      | initializePlatform a d f => rw [hNew.2, hNew'.2]
      | stake a n => rw [hNew.2, hNew'.2]
      | createPool a args =>
        obtain ⟨_, _, hSpec⟩ := createPool_ok hOk
        rcases hNew with ⟨hk, rfl⟩ | ⟨hk, rfl⟩ <;> rcases hNew' with ⟨hk', rfl⟩ | ⟨hk', rfl⟩
        · rfl
        · exact absurd (hk'.symm.trans hk) hSpec.distinct
        · exact absurd (hk.symm.trans hk') hSpec.distinct
        · rfl
      | _ => exact hNew.elim

theorem terms_exec (h : w.WellFormed) (hOk : ix.exec R env w = .ok w') (k : Pubkey) (c : PoolConfig)
    (hc : w'.poolConfig k = some c) : c.WellFormed := by
  rcases Instruction.exec_poolConfig_eq hOk with hSame | ⟨a, args, _, _, -, hSpec⟩ | ⟨a, c', s, -, hSpec⟩
  · exact h.terms k c (hSame ▸ hc)
  · rw [hSpec.poolConfig_eq] at hc
    rcases update_eq_some hc with ⟨-, rfl⟩ | hOld
    · exact ⟨hSpec.fees, Or.inl ⟨rfl, rfl⟩⟩
    · exact h.terms k c hOld
  · rw [hSpec.poolConfig_eq] at hc
    rcases update_eq_some hc with ⟨-, rfl⟩ | hOld
    · exact ⟨(h.terms _ _ hSpec.loadedConfig).fees, Or.inr ⟨Nat.le_add_left 10 _, rfl⟩⟩
    · exact h.terms k c hOld

theorem platforms_exec (h : w.WellFormed) (hOk : ix.exec R env w = .ok w') (k : Pubkey)
    (info : PlatformInfo) (hInfo : w'.platform k = some info) : k = .platformPda info.treasury := by
  rcases Instruction.exec_platform hOk with hSame | ⟨a, d, f, rfl, -, -, hDerived, hUpdate⟩
  · exact h.platforms k info (hSame ▸ hInfo)
  · rw [hUpdate] at hInfo
    rcases update_eq_some hInfo with ⟨rfl, rfl⟩ | hOld
    · exact hDerived
    · exact h.platforms k info hOld

theorem statesHavePools_exec (h : w.WellFormed) (hOk : ix.exec R env w = .ok w') (j : Pubkey)
    (s : PoolState) (hs : w'.poolState j = some s) :
    ∃ k c, w'.poolConfig k = some c ∧ c.stateAddr = j := by
  have hKeep : w.Has j .poolState → ∃ k c, w'.poolConfig k = some c ∧ c.stateAddr = j := by
    intro hOld
    obtain ⟨s', hs'⟩ := Option.isSome_iff_exists.mp hOld
    obtain ⟨k, c, hc, rfl⟩ := h.statesHavePools j s' hs'
    rcases Instruction.exec_poolConfig hOk hc with hKept | ⟨_, -, -, -, hSet⟩
    · exact ⟨k, c, hKept, rfl⟩
    · exact ⟨k, _, hSet, rfl⟩
  have hHas : w'.Has j .poolState := Option.isSome_iff_exists.mpr ⟨s, hs⟩
  rcases exec_has hOk hHas with hOld | ⟨-, hNew⟩
  · exact hKeep hOld
  · cases ix with
    | initializePlatform a d f => cases hNew.2
    | stake a n => cases hNew.2
    | createPool a args =>
      obtain ⟨_, _, hSpec⟩ := createPool_ok hOk
      rcases hNew with ⟨-, hKind⟩ | ⟨rfl, -⟩
      · cases hKind
      · exact ⟨a.poolConfigAccount, _, hSpec.poolConfig_eq ▸ Function.update_self _ _ _, rfl⟩
    | _ => exact hNew.elim

theorem ownStates_exec (h : w.WellFormed) (hOk : ix.exec R env w = .ok w') (k k' : Pubkey)
    (c c' : PoolConfig) (hc : w'.poolConfig k = some c) (hc' : w'.poolConfig k' = some c')
    (hSame : c.stateAddr = c'.stateAddr) : k = k' := by
  rcases Instruction.exec_poolConfig_eq hOk with hEq | ⟨a, args, _, _, -, hSpec⟩ | ⟨a, c₀, s, -, hSpec⟩
  · exact h.ownStates k k' c c' (hEq ▸ hc) (hEq ▸ hc') hSame
  · -- The state of the new pool is at an address that was vacant.
    have hFresh : ∀ j d, w.poolConfig j = some d → d.stateAddr ≠ a.poolStateAccount := by
      rintro j d hd hAddr
      obtain ⟨s, hs⟩ := h.states j d hd
      rw [hAddr] at hs
      cases hSpec.vacantState.2.1.symm.trans hs
    rw [hSpec.poolConfig_eq] at hc hc'
    rcases update_eq_some hc with ⟨rfl, rfl⟩ | hOld <;> rcases update_eq_some hc' with ⟨rfl, rfl⟩ | hOld'
    · rfl
    · exact absurd hSame.symm (hFresh k' c' hOld')
    · exact absurd hSame (hFresh k c hOld)
    · exact h.ownStates k k' c c' hOld hOld' hSame
  · rw [hSpec.poolConfig_eq] at hc hc'
    rcases update_eq_some hc with ⟨rfl, rfl⟩ | hOld <;> rcases update_eq_some hc' with ⟨rfl, rfl⟩ | hOld'
    · rfl
    · exact h.ownStates _ k' c₀ c' hSpec.loadedConfig hOld' hSame
    · exact h.ownStates k _ c c₀ hOld hSpec.loadedConfig hSame
    · exact h.ownStates k k' c c' hOld hOld' hSame

theorem exec (h : w.WellFormed) (hOk : ix.exec R env w = .ok w') : w'.WellFormed where
  oneKind := h.oneKind_exec hOk
  terms := h.terms_exec hOk
  platforms := h.platforms_exec hOk
  users := h.users.exec hOk
  states := h.states.exec hOk
  statesHavePools := h.statesHavePools_exec hOk
  ownStates := h.ownStates_exec hOk

theorem outside (h : w.WellFormed) (bank : Bank) (mint : Pubkey → Option Mint) :
    { w with bank, mint }.WellFormed :=
  ⟨fun k kind kind' hHas hHas' => h.oneKind k kind kind' (by cases kind <;> exact hHas)
    (by cases kind' <;> exact hHas'), h.terms, h.platforms, h.users, h.states, h.statesHavePools,
    h.ownStates⟩

end World.WellFormed

/-- Whatever accounts the calls pass, every reachable world is well formed. -/
theorem reachable_wellFormed (h : w.Reachable R) : w.WellFormed := by
  apply h.induction
  · exact fun g hGenesis => .of_genesis hGenesis
  · intro w a hI
    exact next_of_exec (I := World.WellFormed) hI hI.outside hI.exec a

open Localnet in
theorem reachable_wellFormed_stakedPool : stakedPool.WellFormed :=
  reachable_wellFormed (reachable_run coin 9 _)

/-- The same terms, and at most one start in between. -/
def PoolConfig.Later (c c' : PoolConfig) : Prop :=
  c' = c ∨ c.startSlot = 0 ∧ ∃ slot, c' = { c with
    startSlot := slot + 10, endSlot := slot + 10 + c.duration * slotsPerDay }

theorem PoolConfig.Later.trans {c c' c'' : PoolConfig} (h : c.Later c') (h' : c'.Later c'') :
    c.Later c'' := by
  rcases h with rfl | ⟨hIdle, slot, rfl⟩
  · exact h'
  · rcases h' with rfl | ⟨hIdle', -⟩
    · exact Or.inr ⟨hIdle, slot, rfl⟩
    · exact absurd hIdle' (Nat.succ_ne_zero _)

/-- The counters that only count up, whichever configuration a call names. -/
structure PoolState.CountsUp (s s' : PoolState) : Prop where
  accTokenPerShare : s.accTokenPerShare ≤ s'.accTokenPerShare
  shouldTotalPaid : s.shouldTotalPaid ≤ s'.shouldTotalPaid
  paidRewards : s.paidRewards ≤ s'.paidRewards

theorem PoolState.CountsUp.refl (s : PoolState) : s.CountsUp s :=
  ⟨Nat.le_refl _, Nat.le_refl _, Nat.le_refl _⟩

theorem PoolState.CountsUp.trans {s s' s'' : PoolState} (h : s.CountsUp s') (h' : s'.CountsUp s'') :
    s.CountsUp s'' :=
  ⟨h.accTokenPerShare.trans h'.accTokenPerShare, h.shouldTotalPaid.trans h'.shouldTotalPaid,
    h.paidRewards.trans h'.paidRewards⟩

structure World.Evolves (w w' : World) : Prop where
  configs : ∀ k c, w.poolConfig k = some c → ∃ c', w'.poolConfig k = some c' ∧ c.Later c'
  states : ∀ k s, w.poolState k = some s → ∃ s', w'.poolState k = some s' ∧ s.CountsUp s'
  users : ∀ k info, w.userInfo k = some info → ∃ info', w'.userInfo k = some info'
  platforms : ∀ k info, w.platform k = some info → ∃ info', w'.platform k = some info'
  events : ∃ log, w'.events = w.events ++ log

namespace World.Evolves

theorem refl (w : World) : w.Evolves w :=
  ⟨fun _ c hc => ⟨c, hc, Or.inl rfl⟩, fun _ s hs => ⟨s, hs, .refl s⟩, fun _ info h => ⟨info, h⟩,
    fun _ info h => ⟨info, h⟩, [], (List.append_nil _).symm⟩

theorem trans (h : w.Evolves w') (h' : w'.Evolves w'') : w.Evolves w'' where
  configs k c hc := by
    obtain ⟨c', hc', hLater⟩ := h.configs k c hc
    obtain ⟨c'', hc'', hLater'⟩ := h'.configs k c' hc'
    exact ⟨c'', hc'', hLater.trans hLater'⟩
  states k s hs := by
    obtain ⟨s', hs', hUp⟩ := h.states k s hs
    obtain ⟨s'', hs'', hUp'⟩ := h'.states k s' hs'
    exact ⟨s'', hs'', hUp.trans hUp'⟩
  users k info hInfo := by
    obtain ⟨info', hInfo'⟩ := h.users k info hInfo
    exact h'.users k info' hInfo'
  platforms k info hInfo := by
    obtain ⟨info', hInfo'⟩ := h.platforms k info hInfo
    exact h'.platforms k info' hInfo'
  events := by
    obtain ⟨log, hLog⟩ := h.events
    obtain ⟨log', hLog'⟩ := h'.events
    exact ⟨log ++ log', by rw [hLog', hLog, List.append_assoc]⟩

end World.Evolves

theorem update_keeps {α : Type} {f : Pubkey → Option α} {j : Pubkey} {v : α} {X : α → α → Prop}
    (hRefl : ∀ x, X x x) (hNew : ∀ x, f j = some x → X x v) (k : Pubkey) (x : α) (hx : f k = some x) :
    ∃ y, Function.update f j (some v) k = some y ∧ X x y := by
  by_cases hk : k = j
  · subst hk
    exact ⟨v, Function.update_self _ _ _, hNew x hx⟩
  · exact ⟨x, (Function.update_of_ne hk _ _).trans hx, hRefl x⟩

theorem exec_states (h : ix.exec R env w = .ok w') (k : Pubkey) (s : PoolState)
    (hs : w.poolState k = some s) : ∃ s', w'.poolState k = some s' ∧ s.CountsUp s' := by
  have hKeep : ∀ {j : Pubkey} {old new : PoolState}, w.poolState j = some old → old.CountsUp new →
      w'.poolState = Function.update w.poolState j (some new) →
      ∃ s', w'.poolState k = some s' ∧ s.CountsUp s' := by
    intro j old new hOld hUp hUpdate
    rw [hUpdate]
    refine update_keeps PoolState.CountsUp.refl (fun x hx => ?_) k s hs
    cases hx.symm.trans hOld
    exact hUp
  cases ix with
  | initializePlatform a d f =>
    obtain ⟨_, rfl⟩ := initializePlatform_ok h
    exact ⟨s, hs, .refl s⟩
  | createPool a args =>
    obtain ⟨_, _, hSpec⟩ := createPool_ok h
    rw [hSpec.poolState_eq]
    refine update_keeps PoolState.CountsUp.refl (fun x hx => ?_) k s hs
    cases hx.symm.trans hSpec.vacantState.2.1
  | startReward a =>
    obtain ⟨_, s, hSpec⟩ := startReward_ok h
    refine hKeep hSpec.loadedState ?_ hSpec.poolState_eq
    exact ⟨Nat.le_refl _, Nat.le_refl _, Nat.le_refl _⟩
  | stopReward a =>
    obtain ⟨_, s, hSpec⟩ := stopReward_ok h
    refine hKeep hSpec.loadedState ?_ hSpec.poolState_eq
    exact ⟨Nat.le_add_right _ _, Nat.le_add_right _ _, Nat.le_refl _⟩
  | stake a n =>
    obtain ⟨_, _, s, _, hSpec⟩ := stake_ok h
    refine hKeep hSpec.loadedState ?_ hSpec.poolState_eq
    exact ⟨Nat.le_add_right _ _, Nat.le_add_right _ _, Nat.le_add_right _ _⟩
  | unstake a n =>
    obtain ⟨_, _, s, _, hSpec⟩ := unstake_ok h
    refine hKeep hSpec.loadedState ?_ hSpec.poolState_eq
    exact ⟨Nat.le_add_right _ _, Nat.le_add_right _ _, Nat.le_add_right _ _⟩
  | claimReward a =>
    obtain ⟨_, _, s, _, hSpec⟩ := claimReward_ok h
    refine hKeep hSpec.loadedState ?_ hSpec.poolState_eq
    exact ⟨Nat.le_add_right _ _, Nat.le_add_right _ _, Nat.le_add_right _ _⟩
  | compoundReward a =>
    obtain ⟨_, _, s, _, hSpec⟩ := compoundReward_ok h
    refine hKeep hSpec.loadedState ?_ hSpec.poolState_eq
    exact ⟨Nat.le_add_right _ _, Nat.le_add_right _ _, Nat.le_add_right _ _⟩

theorem exec_users (h : ix.exec R env w = .ok w') (k : Pubkey) (info : UserInfo)
    (hInfo : w.userInfo k = some info) : ∃ info', w'.userInfo k = some info' := by
  have hKeep : ∀ {j : Pubkey} {new : UserInfo}, w'.userInfo = Function.update w.userInfo j (some new) →
      ∃ info', w'.userInfo k = some info' := by
    intro j new hUpdate
    obtain ⟨info', hInfo', -⟩ := update_keeps (v := new) (X := fun _ _ => True) (fun _ => trivial)
      (fun _ _ => trivial) k info hInfo
    exact ⟨info', hUpdate ▸ hInfo'⟩
  by_cases hNamed : ix.userInfoAccount = some k
  · cases ix with
    | stake a n =>
      obtain ⟨_, _, _, _, hSpec⟩ := stake_ok h
      exact hKeep hSpec.userInfo_eq
    | unstake a n =>
      obtain ⟨_, _, _, _, hSpec⟩ := unstake_ok h
      exact hKeep hSpec.userInfo_eq
    | claimReward a =>
      obtain ⟨_, _, _, _, hSpec⟩ := claimReward_ok h
      exact hKeep hSpec.userInfo_eq
    | compoundReward a =>
      obtain ⟨_, _, _, _, hSpec⟩ := compoundReward_ok h
      exact hKeep hSpec.userInfo_eq
    | _ => cases hNamed
  · exact ⟨info, (Instruction.exec_userInfo h hNamed).trans hInfo⟩

theorem exec_log (h : ix.exec R env w = .ok w') : ∃ log, w'.events = w.events ++ log := by
  cases ix with
  | initializePlatform a d f =>
    obtain ⟨_, rfl⟩ := initializePlatform_ok h
    exact ⟨[], (List.append_nil _).symm⟩
  | createPool a args =>
    obtain ⟨_, _, hSpec⟩ := createPool_ok h
    exact ⟨[], hSpec.frame.2.2.2.trans (List.append_nil _).symm⟩
  | startReward a =>
    obtain ⟨_, _, hSpec⟩ := startReward_ok h
    exact ⟨_, hSpec.events_eq⟩
  | stopReward a =>
    obtain ⟨_, _, hSpec⟩ := stopReward_ok h
    exact ⟨_, hSpec.events_eq⟩
  | stake a n =>
    obtain ⟨_, _, _, _, hSpec⟩ := stake_ok h
    exact ⟨_, hSpec.events_eq.trans (List.append_assoc _ _ _)⟩
  | unstake a n =>
    obtain ⟨_, _, _, _, hSpec⟩ := unstake_ok h
    exact ⟨_, hSpec.events_eq⟩
  | claimReward a =>
    obtain ⟨_, _, _, _, hSpec⟩ := claimReward_ok h
    exact ⟨_, hSpec.events_eq⟩
  | compoundReward a =>
    obtain ⟨_, _, _, _, hSpec⟩ := compoundReward_ok h
    exact ⟨_, hSpec.events_eq⟩

theorem exec_evolves (h : ix.exec R env w = .ok w') : w.Evolves w' where
  configs k c hc := by
    rcases Instruction.exec_poolConfig h hc with hSame | ⟨a, -, -, hIdle, hSet⟩
    · exact ⟨c, hSame, Or.inl rfl⟩
    · exact ⟨_, hSet, Or.inr ⟨hIdle, env.slot, rfl⟩⟩
  states := exec_states h
  users := exec_users h
  platforms k info hInfo := by
    rcases Instruction.exec_platform h with hSame | ⟨a, d, f, -, -, -, -, hUpdate⟩
    · exact ⟨info, hSame ▸ hInfo⟩
    · obtain ⟨info', hInfo', -⟩ := update_keeps (v := ⟨d, f, a.treasury⟩) (X := fun _ _ => True)
        (fun _ => trivial) (fun _ _ => trivial) k info hInfo
      exact ⟨info', hUpdate ▸ hInfo'⟩
  events := exec_log h

/-- From any world on, over every run of any calls with any accounts: no account is closed, the terms
of a pool stay, a schedule is set once at most, the counters count up, and the log only grows. -/
theorem run_evolves (w : World) (actions : List Action) : w.Evolves (Run.run (next R) w actions) := by
  refine Run.run_invariant (I := fun w' => w.Evolves w') (Q := fun _ _ => True) ?_ (.refl w)
    (Run.along_of_forall fun _ _ _ => trivial)
  intro w' x hSoFar _
  refine hSoFar.trans ?_
  refine next_of_exec (I := fun w'' => w'.Evolves w'') (.refl w') ?_ exec_evolves x
  intro bank mint
  have hSame := World.Evolves.refl w'
  exact ⟨hSame.configs, hSame.states, hSame.users, hSame.platforms, hSame.events⟩

end StakingOnSolana
