import Mathlib.Algebra.Group.Nat.Defs
import EndaraRelay.LoginClient
import EndaraRelay.Lib.Table

/-!
# Pending flows

`OAuthFlowManager` (`oauth/mod.rs`): the flows that wait for their callback, by state value, the reset
generation of each endpoint and its commit lock.

**Generations.** A flow has the generation of its endpoint at its start. `invalidate_endpoint` bumps the
generation and drops the flows of the endpoint; a flow that somebody has consumed by then is not current any
more.

**Commit locks.** The map has weak references. An entry whose lock nobody holds a reference to is dropped,
and the next caller gets a new lock. So all that hold one of an endpoint hold the same
(`lookup_commitLock`, `lookup_commitLock_of_held`).
-/

namespace EndaraRelay

open Verif

/-- A flow and the generation of its endpoint. `start` is history: the start that it comes from. -/
structure PendingFlow where
  start : Nat
  endpointName : String
  client : FlowClient
  idpIssuer : Option String
  createdAt : Nat
  generation : Nat

def pendingFlowMaxAge : Nat := 600 * 10 ^ 9

/-- The commit locks are weak references: numbers of locks, of which `locks` have been made. -/
structure OAuthFlowManager where
  pending : Table String PendingFlow
  generations : Table String Nat
  commitLocks : Table String Nat
  locks : Nat

namespace OAuthFlowManager

variable (m : OAuthFlowManager)

def new : OAuthFlowManager := ⟨∅, ∅, ∅, 0⟩

/-- `generation`: an absent entry is generation 0. -/
def generation (name : String) : Nat := (m.generations.lookup name).getD 0

/-- The insert of `start_flow` and its siblings. -/
def insert (state : String) (flow : PendingFlow) : OAuthFlowManager :=
  { m with pending := m.pending.insert state flow }

/-- `start_flow` and `start_idp_flow`: the generation is read with the insert. -/
def startFlow (state : String) (flow : PendingFlow) : OAuthFlowManager :=
  m.insert state { flow with generation := m.generation flow.endpointName }

/-- `start_flow_if_current`: refused if the generation is not the expected one. -/
def startFlowIfCurrent (state : String) (flow : PendingFlow) : Option OAuthFlowManager :=
  if m.generation flow.endpointName ≠ flow.generation then none else some (m.insert state flow)

/-- The flow that `consume_flow` returns. -/
def consumed (state : String) (now : Nat) : Option PendingFlow :=
  (m.pending.lookup state).filter fun flow => now - flow.createdAt ≤ pendingFlowMaxAge

/-- `consume_flow` removes the flow in any case. -/
def consumeFlow (state : String) : OAuthFlowManager := { m with pending := m.pending.erase state }

def invalidateEndpoint (name : String) : OAuthFlowManager :=
  { m with
    generations := m.generations.insert name (m.generation name + 1)
    pending := m.pending.retain fun flow => flow.endpointName ≠ name }

def isCurrent (flow : PendingFlow) : Bool := flow.generation = m.generation flow.endpointName

/-- `commit_lock`: the lock of an endpoint. `held` are the locks that somebody has a reference to. -/
def commitLock (name : String) (held : Nat → Bool) : Nat × OAuthFlowManager :=
  let alive := m.commitLocks.retain held
  match alive.lookup name with
  | some lock => (lock, { m with commitLocks := alive })
  | none => (m.locks, { m with commitLocks := alive.insert name m.locks, locks := m.locks + 1 })

/-! ## What the operations leave -/

variable {m} {name name' state state' : String} {flow : PendingFlow} {held : Nat → Bool} {now lock : Nat}

theorem generation_invalidateEndpoint :
    (m.invalidateEndpoint name).generation name' = m.generation name' + if name' = name then 1 else 0 := by
  by_cases h : name' = name
  · rw [h, if_pos rfl]
    simp [generation, invalidateEndpoint]
  · simp [generation, invalidateEndpoint, AList.lookup_insert_ne h, h]

@[simp] theorem generation_commitLock :
    (m.commitLock name held).2.generation name' = m.generation name' := by
  unfold commitLock
  dsimp only
  split <;> rfl

@[simp] theorem pending_commitLock : (m.commitLock name held).2.pending = m.pending := by
  unfold commitLock
  dsimp only
  split <;> rfl

/-- A flow that waits has been inserted now or before. -/
theorem lookup_pending_insert {flow' : PendingFlow}
    (h : (m.insert state flow).pending.lookup state' = some flow') :
    state' = state ∧ flow' = flow ∨ m.pending.lookup state' = some flow' := by
  by_cases hstate : state' = state
  · subst hstate
    rw [insert, AList.lookup_insert] at h
    exact .inl ⟨rfl, (Option.some.inj h).symm⟩
  · rw [insert, AList.lookup_insert_ne hstate] at h
    exact .inr h

/-- **A state value is consumed once.** -/
theorem lookup_pending_consumeFlow (h : (m.consumeFlow state).pending.lookup state' = some flow) :
    state' ≠ state ∧ m.pending.lookup state' = some flow := by
  have hne : state' ≠ state := by
    rintro rfl
    rw [consumeFlow, AList.lookup_erase] at h
    cases h
  rw [consumeFlow, AList.lookup_erase_ne hne] at h
  exact ⟨hne, h⟩

theorem lookup_retain_some {κ β : Type} [DecidableEq κ] {t : Table κ β} {p : β → Bool} {k : κ} {b : β} :
    (t.retain p).lookup k = some b ↔ t.lookup k = some b ∧ p b = true := by
  rw [← AList.mem_entries_iff, ← AList.mem_entries_iff]
  exact List.mem_filter

theorem lookup_pending_invalidateEndpoint
    (h : (m.invalidateEndpoint name).pending.lookup state = some flow) :
    m.pending.lookup state = some flow ∧ flow.endpointName ≠ name := by
  obtain ⟨hlook, hname⟩ := lookup_retain_some.mp h
  exact ⟨hlook, by simpa using hname⟩

theorem consumed_eq_some (h : m.consumed state now = some flow) :
    m.pending.lookup state = some flow ∧ now - flow.createdAt ≤ pendingFlowMaxAge := by
  obtain ⟨hlook, hage⟩ := Option.filter_eq_some_iff.mp h
  exact ⟨hlook, of_decide_eq_true hage⟩

/-- The caller has the lock of the endpoint. -/
theorem lookup_commitLock :
    (m.commitLock name held).2.commitLocks.lookup name = some (m.commitLock name held).1 := by
  unfold commitLock
  dsimp only
  split
  · next lock hlock => exact hlock
  · exact AList.lookup_insert _

/-- A lock that somebody has a reference to stays the one of its endpoint. -/
theorem lookup_commitLock_of_held (h : m.commitLocks.lookup name' = some lock) (hheld : held lock = true) :
    (m.commitLock name held).2.commitLocks.lookup name' = some lock := by
  have halive : (m.commitLocks.retain held).lookup name' = some lock := lookup_retain_some.mpr ⟨h, hheld⟩
  unfold commitLock
  dsimp only
  split
  · exact halive
  · next hnone =>
    by_cases hname : name' = name
    · subst hname
      rw [halive] at hnone
      cases hnone
    · rw [AList.lookup_insert_ne hname]
      exact halive

theorem startFlowIfCurrent_eq_some {m' : OAuthFlowManager}
    (h : m.startFlowIfCurrent state flow = some m') :
    m.generation flow.endpointName = flow.generation ∧ m' = m.insert state flow := by
  unfold startFlowIfCurrent at h
  split at h
  · cases h
  · next hcurrent => exact ⟨not_not.mp hcurrent, (Option.some.inj h).symm⟩

end OAuthFlowManager

end EndaraRelay
