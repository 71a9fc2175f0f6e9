import Mathlib.Data.List.Basic

/-!
# Broadcast receivers

One receiver of a broadcast channel that holds a bounded number of messages. What is published is kept for
the receiver, oldest first, until it is more than the channel holds. Then the oldest message is overwritten,
and the next thing the receiver gets is that it has lagged.

**What a receiver has coming.** `Carries P` says that it is going to get a message that passes `P`, or to be
told that it has lagged. Publishing does not take this away (`Carries.publish`), and receiving takes it away
only by handing out such a thing (`carries_iff_of_recv`). `backlog` counts what there is to receive.
-/

universe u

namespace Verif

structure Receiver (α : Type u) where
  pending : List α := []
  /-- A message was overwritten, and the receiver has not been told. -/
  lagged : Bool := false

/-- What a receiver gets. -/
inductive Received (α : Type u) where
  | value (x : α)
  | lagged

/-- Having lagged passes anything: the message may have been any. -/
def Received.Passes {α : Type u} (P : α → Prop) : Received α → Prop
  | .value x => P x
  | .lagged => True

namespace Receiver

variable {α : Type u} {P Q : α → Prop} {r r' : Receiver α} {got : Received α} {x : α} {capacity : Nat}

def publish (capacity : Nat) (x : α) (r : Receiver α) : Receiver α :=
  if r.pending.length < capacity then { r with pending := r.pending ++ [x] }
  else { pending := (r.pending ++ [x]).drop 1, lagged := true }

/-- Being told of a lag comes first, then the messages in their order. -/
def recv (r : Receiver α) : Option (Received α × Receiver α) :=
  if r.lagged then some (.lagged, { r with lagged := false })
  else
    match r.pending with
    | [] => none
    | x :: pending => some (.value x, { r with pending })

/-- A message that passes is to be received, or a lag. -/
def Carries (P : α → Prop) (r : Receiver α) : Prop := r.lagged = true ∨ ∃ x ∈ r.pending, P x

/-- How much there is to receive. -/
def backlog (r : Receiver α) : Nat := r.pending.length + r.lagged.toNat

/-- The two ways to receive. -/
theorem recv_cases (h : r.recv = some (got, r')) :
    (r.lagged = true ∧ got = .lagged ∧ r' = { r with lagged := false }) ∨
      ∃ x pending, r.lagged = false ∧ r.pending = x :: pending ∧ got = .value x ∧
        r' = { r with pending } := by
  unfold recv at h
  split at h
  · next hlag =>
    cases h
    exact .inl ⟨hlag, rfl, rfl⟩
  · next hlag =>
    split at h
    · cases h
    · next x pending hpending =>
      cases h
      exact .inr ⟨x, pending, by simpa using hlag, hpending, rfl, rfl⟩

/-! ## What is coming -/

theorem Carries.mono (h : r.Carries P) (hPQ : ∀ x ∈ r.pending, P x → Q x) : r.Carries Q := by
  obtain hlag | ⟨x, hx, hP⟩ := h
  · exact .inl hlag
  · exact .inr ⟨x, hx, hPQ x hx hP⟩

/-- A message that passes is coming once it is published. -/
theorem carries_publish (r : Receiver α) (capacity : Nat) (hx : P x) : (r.publish capacity x).Carries P := by
  unfold publish
  split
  · exact .inr ⟨x, List.mem_append_right _ (List.mem_singleton_self x), hx⟩
  · exact .inl rfl

/-- What is coming stays so. -/
theorem Carries.publish (h : r.Carries P) : (r.publish capacity x).Carries P := by
  unfold Receiver.publish
  split
  · obtain hlag | ⟨y, hy, hP⟩ := h
    · exact .inl hlag
    · exact .inr ⟨y, List.mem_append_left _ hy, hP⟩
  · exact .inl rfl

/-- With nothing to receive yet, only the message itself comes. -/
theorem of_carries_publish (h : (r.publish capacity x).Carries P) (hr : r.backlog = 0)
    (hcap : 0 < capacity) : P x := by
  obtain ⟨hpending, hlag⟩ : r.pending = [] ∧ r.lagged = false := by
    unfold backlog at hr
    refine ⟨List.eq_nil_of_length_eq_zero (by omega), ?_⟩
    rw [← Bool.toNat_eq_zero]
    omega
  unfold publish at h
  rw [if_pos (by rwa [hpending])] at h
  obtain h | ⟨y, hy, hP⟩ := h
  · rw [hlag] at h
    cases h
  · rw [hpending] at hy
    obtain rfl := List.mem_singleton.mp hy
    exact hP

/-- **What is coming is received, or coming after that.** -/
theorem carries_iff_of_recv (hr : r.recv = some (got, r')) : r.Carries P ↔ got.Passes P ∨ r'.Carries P := by
  obtain ⟨hlag, rfl, rfl⟩ | ⟨x, pending, hlag, hpending, rfl, rfl⟩ := recv_cases hr
  · exact iff_of_true (.inl hlag) (.inl trivial)
  · simp [Carries, Received.Passes, hlag, hpending]

/-! ## How much is coming -/

theorem backlog_recv (h : r.recv = some (got, r')) : r'.backlog + 1 = r.backlog := by
  obtain ⟨hlag, -, rfl⟩ | ⟨x, pending, -, hpending, -, rfl⟩ := recv_cases h
  · simp [backlog, hlag]
  · simp only [backlog, hpending, List.length_cons]
    omega

theorem backlog_publish_le (r : Receiver α) (capacity : Nat) (x : α) :
    (r.publish capacity x).backlog ≤ r.backlog + 1 := by
  unfold publish backlog
  split
  · simp only [List.length_append, List.length_singleton]
    omega
  · simp

theorem exists_recv (h : 0 < r.backlog) : ∃ got r', r.recv = some (got, r') := by
  unfold recv
  split
  · exact ⟨_, _, rfl⟩
  · next hlag =>
    cases hpending : r.pending with
    | nil => simp [backlog, hpending, hlag] at h
    | cons x pending => exact ⟨_, _, rfl⟩

/-- With nothing to receive nothing is coming. -/
theorem not_carries (h : r.backlog = 0) : ¬ r.Carries P := by
  unfold backlog at h
  have hpending : r.pending = [] := List.eq_nil_of_length_eq_zero (by omega)
  rintro (hlag | ⟨x, hx, -⟩)
  · rw [hlag] at h
    simp at h
  · rw [hpending] at hx
    cases hx

end Receiver

end Verif
