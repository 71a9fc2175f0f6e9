import Mathlib.Data.List.Nodup

/-!
# Fair read-write locks

Readers share the lock and a writer has it alone. A task that asks gets its guard at once only when nobody
waits; else it joins the queue, so that a writer is not overtaken by readers that ask after it. When a guard
is given back, those at the front of the queue that can have theirs get them.

`line` is everybody with a guard or in the queue. A relation that holds between a task and all those that are
in the line when it asks holds between those who wait and those before them from then on: `Ordered.acquire`,
`Ordered.settle` and `Ordered.release`. While somebody waits there is a writer with a guard or in the queue
(`exists_writer`).
-/

namespace Verif

universe u

inductive LockMode where
  | read
  | write
deriving DecidableEq, Repr

/-- The tasks that have a guard, and those that wait for one in the order of asking. -/
structure RwLock (τ : Type u) where
  holders : List (τ × LockMode) := []
  queue : List (τ × LockMode) := []

namespace RwLock

variable {τ : Type u}

/-- Whether a guard can be given out next to others. -/
def admits (holders : List (τ × LockMode)) : LockMode → Bool
  | .read => holders.all fun h => h.2 = .read
  | .write => holders.isEmpty

/-- Those at the front of the queue get their guards. -/
def settle (holders : List (τ × LockMode)) : List (τ × LockMode) → RwLock τ
  | [] => ⟨holders, []⟩
  | x :: queue => if admits holders x.2 then settle (holders ++ [x]) queue else ⟨holders, x :: queue⟩

def acquire (l : RwLock τ) (t : τ) (m : LockMode) : RwLock τ :=
  if l.queue.isEmpty && admits l.holders m then ⟨l.holders ++ [(t, m)], []⟩
  else ⟨l.holders, l.queue ++ [(t, m)]⟩

def release [DecidableEq τ] (l : RwLock τ) (t : τ) : RwLock τ :=
  settle (l.holders.filter fun h => h.1 ≠ t) l.queue

/-- Everybody with a guard or in the queue. -/
def line (l : RwLock τ) : List (τ × LockMode) := l.holders ++ l.queue

def waiting [DecidableEq τ] (l : RwLock τ) (t : τ) : Bool := l.queue.any fun x => x.1 = t

/-- A task in the queue waits for those who have a guard, and for the writers before it. -/
def WaitsFor (l : RwLock τ) (t u : τ) : Prop :=
  ∃ front x back, l.queue = front ++ x :: back ∧ x.1 = t ∧
    ((∃ h ∈ l.holders, h.1 = u) ∨ (u, .write) ∈ front)

/-- A writer has the lock alone, nobody at the front of the queue could have a guard, and nobody is twice in
the line. -/
structure Wf (l : RwLock τ) : Prop where
  exclusive : ∀ h ∈ l.holders, h.2 = .write → l.holders = [h]
  settled : ∀ x ∈ l.queue.head?, admits l.holders x.2 = false
  nodup : (l.line.map Prod.fst).Nodup

/-- The relation holds between all those who wait and all those before them. -/
structure Ordered (R : τ × LockMode → τ × LockMode → Prop) (l : RwLock τ) : Prop where
  holders : ∀ h ∈ l.holders, ∀ x ∈ l.queue, R h x
  queue : l.queue.Pairwise R

variable {l : RwLock τ} {t u : τ} {m : LockMode} {holders queue : List (τ × LockMode)} {x : τ × LockMode}
  {R R' : τ × LockMode → τ × LockMode → Prop}

/-! ## The line -/

theorem line_settle : (settle holders queue).line = holders ++ queue := by
  induction queue generalizing holders with
  | nil => rfl
  | cons x queue ih =>
    rw [settle]
    split
    · rw [ih, List.append_assoc]
      rfl
    · rfl

theorem line_acquire : (l.acquire t m).line = l.line ++ [(t, m)] := by
  unfold acquire
  split
  · next h =>
    rw [Bool.and_eq_true, List.isEmpty_iff] at h
    rw [line, line, h.1, List.append_nil, List.append_nil]
  · exact (List.append_assoc _ _ _).symm

theorem WaitsFor.mem_line (h : l.WaitsFor t u) : ∃ x ∈ l.line, x.1 = u := by
  obtain ⟨front, x, back, hqueue, -, ⟨h, hh, hu⟩ | hu⟩ := h
  · exact ⟨h, List.mem_append_left _ hh, hu⟩
  · refine ⟨(u, .write), List.mem_append_right _ ?_, rfl⟩
    rw [hqueue]
    exact List.mem_append_left _ hu

theorem WaitsFor.mem_queue (h : l.WaitsFor t u) : ∃ x ∈ l.queue, x.1 = t := by
  obtain ⟨front, x, back, hqueue, hx, -⟩ := h
  exact ⟨x, hqueue ▸ List.mem_append_right _ List.mem_cons_self, hx⟩

theorem waiting_iff [DecidableEq τ] : l.waiting t = true ↔ ∃ x ∈ l.queue, x.1 = t := by
  rw [waiting, List.any_eq_true]
  simp only [decide_eq_true_eq]

/-- Somebody who has a guard gives it back: the others stay. -/
theorem mem_line_release [DecidableEq τ] (ht : l.waiting t = false) :
    x ∈ (l.release t).line ↔ x ∈ l.line ∧ x.1 ≠ t := by
  have hqueue : x ∈ l.queue → x.1 ≠ t := by
    intro hx heq
    exact absurd (waiting_iff.2 ⟨x, hx, heq⟩) (ht ▸ Bool.false_ne_true)
  rw [release, line_settle, line, List.mem_append, List.mem_append, List.mem_filter, decide_eq_true_iff]
  constructor
  · rintro (⟨hholder, hne⟩ | hqueued)
    · exact ⟨.inl hholder, hne⟩
    · exact ⟨.inr hqueued, hqueue hqueued⟩
  · rintro ⟨hholder | hqueued, hne⟩
    · exact .inl ⟨hholder, hne⟩
    · exact .inr hqueued

/-! ## A guard is given out -/

theorem exclusive_append (hx : admits holders x.2 = true) :
    ∀ h ∈ holders ++ [x], h.2 = .write → holders ++ [x] = [h] := by
  obtain ⟨t, m⟩ := x
  cases m with
  | read =>
    intro y hy hwrite
    rcases List.mem_append.1 hy with hy | hy
    · have hread := List.all_eq_true.1 hx y hy
      rw [hwrite] at hread
      cases hread
    · rw [List.mem_singleton.1 hy] at hwrite
      cases hwrite
  | write =>
    rw [List.isEmpty_iff.1 hx]
    intro y hy _
    rw [List.mem_singleton.1 hy]
    rfl

theorem Wf.settle (hexclusive : ∀ h ∈ holders, h.2 = .write → holders = [h])
    (hnodup : ((holders ++ queue).map Prod.fst).Nodup) : (settle holders queue).Wf := by
  induction queue generalizing holders with
  | nil => exact ⟨hexclusive, nofun, hnodup⟩
  | cons x queue ih =>
    rw [RwLock.settle]
    split
    · next hx =>
      refine ih (exclusive_append hx) ?_
      rwa [List.append_assoc]
    · next hx =>
      refine ⟨hexclusive, fun y hy => ?_, hnodup⟩
      obtain rfl := Option.some.inj hy
      exact Bool.eq_false_iff.2 hx

theorem Wf.acquire (h : l.Wf) (ht : t ∉ l.line.map Prod.fst) : (l.acquire t m).Wf := by
  have hnodup : ((l.acquire t m).line.map Prod.fst).Nodup := by
    rw [line_acquire, List.map_append]
    exact List.concat_eq_append ▸ h.nodup.concat ht
  unfold RwLock.acquire at hnodup ⊢
  split at hnodup
  · next hfree =>
    rw [if_pos hfree]
    rw [Bool.and_eq_true, List.isEmpty_iff] at hfree
    exact ⟨exclusive_append hfree.2, nofun, hnodup⟩
  · next hbusy =>
    rw [if_neg hbusy]
    refine ⟨h.exclusive, fun y hy => ?_, hnodup⟩
    cases hqueue : l.queue with
    | nil =>
      dsimp only at hy
      rw [hqueue] at hy
      obtain rfl := Option.some.inj hy
      rw [hqueue, List.isEmpty_nil, Bool.true_and] at hbusy
      exact Bool.eq_false_iff.2 hbusy
    | cons z queue =>
      refine h.settled y ?_
      dsimp only at hy
      rw [hqueue] at hy ⊢
      exact hy

theorem Wf.release [DecidableEq τ] (h : l.Wf) : (l.release t).Wf := by
  refine Wf.settle (fun y hy hwrite => ?_) ?_
  · obtain ⟨hmem, hne⟩ := List.mem_filter.1 hy
    rw [h.exclusive y hmem hwrite, List.filter_singleton, hne]
    rfl
  · exact h.nodup.sublist ((List.filter_sublist.append (List.Sublist.refl _)).map _)

/-! ## What holds between those who wait -/

theorem Ordered.settle (hholders : ∀ h ∈ holders, ∀ x ∈ queue, R h x) (hqueue : queue.Pairwise R) :
    (settle holders queue).Ordered R := by
  induction queue generalizing holders with
  | nil => exact ⟨nofun, .nil⟩
  | cons x queue ih =>
    rw [RwLock.settle]
    split
    · obtain ⟨hx, hqueue⟩ := List.pairwise_cons.1 hqueue
      refine ih (List.forall_mem_append.2 ⟨?_, ?_⟩) hqueue
      · exact fun h hh y hy => hholders h hh y (List.mem_cons_of_mem _ hy)
      · exact List.forall_mem_singleton.2 hx
    · exact ⟨hholders, hqueue⟩

theorem Ordered.acquire (h : l.Ordered R) (ht : ∀ y ∈ l.line, R y (t, m)) : (l.acquire t m).Ordered R := by
  unfold RwLock.acquire
  split
  · exact ⟨nofun, .nil⟩
  · refine ⟨fun y hy => ?_, List.pairwise_append.2 ⟨h.queue, List.pairwise_singleton _ _, fun y hy => ?_⟩⟩
    · exact List.forall_mem_append.2
        ⟨h.holders y hy, List.forall_mem_singleton.2 (ht y (List.mem_append_left _ hy))⟩
    · exact List.forall_mem_singleton.2 (ht y (List.mem_append_right _ hy))

theorem Ordered.release [DecidableEq τ] (h : l.Ordered R) : (l.release t).Ordered R :=
  .settle (fun y hy => h.holders y (List.mem_of_mem_filter hy)) h.queue

theorem Ordered.mono (h : l.Ordered R) (himp : ∀ y ∈ l.line, ∀ x ∈ l.line, R y x → R' y x) : l.Ordered R' := by
  refine ⟨fun y hy x hx => ?_, h.queue.imp_of_mem fun hy hx => ?_⟩
  · exact himp y (List.mem_append_left _ hy) x (List.mem_append_right _ hx) (h.holders y hy x hx)
  · exact himp _ (List.mem_append_right _ hy) _ (List.mem_append_right _ hx)

/-! ## While somebody waits -/

/-- Nobody waits for readers alone. -/
theorem Wf.exists_writer (h : l.Wf) (hx : x ∈ l.queue) :
    (∃ y ∈ l.holders, y.2 = .write) ∨ ∃ w ∈ l.queue, w.2 = .write := by
  cases hqueue : l.queue with
  | nil =>
    rw [hqueue] at hx
    cases hx
  | cons z queue =>
    obtain ⟨t, m⟩ := z
    have hbusy : admits l.holders m = false := h.settled (t, m) (by rw [hqueue]; rfl)
    cases m with
    | read =>
      obtain ⟨y, hy, hwrite⟩ := List.all_eq_false.1 hbusy
      refine .inl ⟨y, hy, ?_⟩
      cases hmode : y.2 with
      | read => exact absurd (decide_eq_true hmode) hwrite
      | write => rfl
    | write => exact .inr ⟨_, List.mem_cons_self, rfl⟩

end RwLock

end Verif
