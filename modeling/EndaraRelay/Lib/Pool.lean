import Mathlib.Data.List.Basic
import EndaraRelay.Lib.Transition

/-!
# Pools of threads

Threads that interleave over a shared state. A pool says which thread an operation launches, and
what one thread does in one step: `step sh ts t c` is what the thread `t` does to the shared state
`sh` under the choice `c`, together with the threads it spawns, and `none` when it has to wait. The
step sees all threads, so that a lock is held exactly when some thread is at a point where it holds
it, and nothing has to keep a record of who took which lock.

A state of the pool is a shared state and the list of all threads ever launched, so that a thread
keeps its index. `Pool.invariant_of` splits the invariant rule into the two kinds of step,
`forall_mem_stepped` the threads after a step into the one that moved, those it spawned and the
others, and `forall_threads` is the rule for what concerns one thread at a time.
-/

namespace Verif

universe u

/-- Threads over a shared state `σ`: `α` are the operations that launch a thread, `χ` the choices a
step leaves to the environment. -/
structure Pool (σ τ α χ : Type u) where
  init : σ → Prop
  launch : σ → List τ → α → Option τ
  step : σ → List τ → τ → χ → Option (σ × τ × List τ)

namespace Pool

/-- The shared state and all threads. -/
structure State (σ τ : Type u) where
  shared : σ
  threads : List τ

/-- An operation is launched, or a thread takes a step. -/
inductive Action (α χ : Type u) where
  | launch (a : α)
  | run (i : Nat) (c : χ)

variable {σ τ α χ : Type u}

/-- The threads after thread `i` became `t'` and spawned `new`. -/
def stepped (ts : List τ) (i : Nat) (t' : τ) (new : List τ) : List τ := ts.set i t' ++ new

def next (P : Pool σ τ α χ) (s : State σ τ) : Action α χ → Option (State σ τ)
  | .launch a =>
    match P.launch s.shared s.threads a with
    | none => none
    | some t => some { s with threads := s.threads ++ [t] }
  | .run i c =>
    match s.threads[i]? with
    | none => none
    | some t =>
      match P.step s.shared s.threads t c with
      | none => none
      | some (sh, t', new) => some ⟨sh, stepped s.threads i t' new⟩

/-- The transition system of a pool: no thread at the start, then any interleaving. -/
def system (P : Pool σ τ α χ) : System (State σ τ) (Action α χ) where
  init s := P.init s.shared ∧ s.threads = []
  step := P.next

/-! ## The threads after a step -/

variable {ts new : List τ} {i j : Nat} {t t' u : τ}

/-- A thread that did not move is still there. -/
theorem mem_stepped_of_ne (hj : ts[j]? = some u) (hne : j ≠ i) : u ∈ stepped ts i t' new := by
  apply List.mem_append_left
  apply List.mem_of_getElem? (i := j)
  rw [List.getElem?_set_ne hne.symm]
  exact hj

theorem mem_stepped_self (hi : ts[i]? = some t) : t' ∈ stepped ts i t' new := by
  apply List.mem_append_left
  apply List.mem_of_getElem? (i := i)
  rw [List.getElem?_set_self']
  simp [hi]

theorem mem_stepped_of_new (h : u ∈ new) : u ∈ stepped ts i t' new :=
  List.mem_append_right _ h

/-- A thread after a step is the one that moved, one of those it spawned, or another one. -/
theorem mem_stepped (h : u ∈ stepped ts i t' new) :
    u = t' ∨ u ∈ new ∨ ∃ j, j ≠ i ∧ ts[j]? = some u := by
  rcases List.mem_append.1 h with h | h
  · obtain ⟨j, hj⟩ := List.mem_iff_getElem?.1 h
    rcases eq_or_ne j i with rfl | hne
    · rw [List.getElem?_set_self'] at hj
      obtain ⟨-, -, rfl⟩ := Option.map_eq_some_iff.1 hj
      exact .inl rfl
    · rw [List.getElem?_set_ne hne.symm] at hj
      exact .inr (.inr ⟨j, hne, hj⟩)
  · exact .inr (.inl h)

variable {Q : τ → Prop} {ok : State σ τ → Action α χ → Prop} {H L : σ → τ → Prop} {R : τ → τ → Prop}
  {a : Action α χ} {as : List (Action α χ)}

/-- What holds of every thread after a step is shown of the three kinds. -/
theorem forall_mem_stepped (hself : Q t') (hnew : ∀ u ∈ new, Q u)
    (hother : ∀ j u, j ≠ i → ts[j]? = some u → Q u) : ∀ u ∈ stepped ts i t' new, Q u := by
  intro u hu
  rcases mem_stepped hu with rfl | hu | ⟨j, hne, hj⟩
  · exact hself
  · exact hnew u hu
  · exact hother j u hne hj

/-- What some thread does, some thread still does after a step, when the one that moved does. -/
theorem exists_stepped (hi : ts[i]? = some t) (ht : Q t → Q t') (h : ∃ u ∈ ts, Q u) :
    ∃ u ∈ stepped ts i t' new, Q u := by
  obtain ⟨u, hu, hQ⟩ := h
  obtain ⟨j, hj⟩ := List.mem_iff_getElem?.1 hu
  rcases eq_or_ne j i with rfl | hne
  · rw [hi] at hj
    cases hj
    exact ⟨t', mem_stepped_self hi, ht hQ⟩
  · exact ⟨u, mem_stepped_of_ne hj hne, hQ⟩

/-- What holds of every thread after a step held of every thread before, if it did of the one that moved. -/
theorem forall_of_stepped (hi : ts[i]? = some t) (ht : Q t) (h : ∀ u ∈ stepped ts i t' new, Q u) :
    ∀ u ∈ ts, Q u := by
  intro u hu
  obtain ⟨j, hj⟩ := List.mem_iff_getElem?.1 hu
  rcases eq_or_ne j i with rfl | hne
  · rw [hi] at hj
    cases hj
    exact ht
  · exact h u (mem_stepped_of_ne hj hne)

theorem getElem?_stepped_self (hi : ts[i]? = some t) : (stepped ts i t' new)[i]? = some t' := by
  obtain ⟨hlt, -⟩ := List.getElem?_eq_some_iff.1 hi
  unfold stepped
  rw [List.getElem?_append_left (by rwa [List.length_set]), List.getElem?_set_self hlt]

theorem getElem?_stepped_of_ne (hj : ts[j]? = some u) (hne : j ≠ i) :
    (stepped ts i t' new)[j]? = some u := by
  obtain ⟨hlt, -⟩ := List.getElem?_eq_some_iff.1 hj
  unfold stepped
  rw [List.getElem?_append_left (by rwa [List.length_set]), List.getElem?_set_ne hne.symm, hj]

/-- A step that spawns nothing puts the thread back in its place. -/
theorem of_getElem?_stepped (h : (stepped ts i t' [])[j]? = some u) :
    j = i ∧ u = t' ∨ j ≠ i ∧ ts[j]? = some u := by
  unfold stepped at h
  rw [List.append_nil] at h
  rcases eq_or_ne j i with rfl | hne
  · rw [List.getElem?_set_self'] at h
    obtain ⟨-, -, rfl⟩ := Option.map_eq_some_iff.1 h
    exact .inl ⟨rfl, rfl⟩
  · rw [List.getElem?_set_ne hne.symm] at h
    exact .inr ⟨hne, h⟩

/-- The places of the threads after a step. -/
theorem place_stepped (h : (stepped ts i t' new)[j]? = some u) :
    j = i ∧ u = t' ∨ j ≠ i ∧ ts[j]? = some u ∨ u ∈ new := by
  by_cases hj : j < ts.length
  · have h' : (stepped ts i t' [])[j]? = some u := by
      unfold stepped at h ⊢
      rw [List.getElem?_append_left (by rwa [List.length_set])] at h
      rw [List.append_nil, h]
    obtain hself | hother := of_getElem?_stepped h'
    · exact .inl hself
    · exact .inr (.inl hother)
  · unfold stepped at h
    rw [List.getElem?_append_right (by rw [List.length_set]; omega)] at h
    exact .inr (.inr (List.mem_of_getElem? h))

theorem map_stepped {υ : Type u} (f : τ → υ) :
    (stepped ts i t' new).map f = stepped (ts.map f) i (f t') (new.map f) := by
  unfold stepped
  rw [List.map_append, List.map_set]

theorem countP_stepped (p : τ → Bool) (hi : ts[i]? = some t) :
    (stepped ts i t' new).countP p + (p t).toNat = ts.countP p + (p t').toNat + new.countP p := by
  obtain ⟨hlt, rfl⟩ := List.getElem?_eq_some_iff.1 hi
  have hle : (if p ts[i] = true then 1 else 0) ≤ ts.countP p := List.boole_getElem_le_countP hlt
  have hite (b : Bool) : (if b = true then 1 else 0) = b.toNat := by cases b <;> rfl
  rw [hite] at hle
  unfold stepped
  rw [List.countP_append, List.countP_set hlt, hite, hite]
  omega

/-! ## The invariant rule -/

variable {P : Pool σ τ α χ} {s s' : State σ τ}

theorem next_launch {a : α} (h : P.next s (.launch a) = some s') :
    ∃ t, P.launch s.shared s.threads a = some t ∧
      s' = { s with threads := s.threads ++ [t] } := by
  unfold next at h
  dsimp only at h
  split at h
  · cases h
  · next t ht => exact ⟨t, ht, (Option.some.inj h).symm⟩

theorem next_run {c : χ} (h : P.next s (.run i c) = some s') :
    ∃ t sh t' new, s.threads[i]? = some t ∧
      P.step s.shared s.threads t c = some (sh, t', new) ∧
      s' = ⟨sh, stepped s.threads i t' new⟩ := by
  unfold next at h
  dsimp only at h
  split at h
  · cases h
  · next t ht =>
    split at h
    · cases h
    · next sh t' new hstep => exact ⟨t, sh, t', new, ht, hstep, (Option.some.inj h).symm⟩

/-- **Invariant rule for pools**, relative to an invariant `I` already established: `J` holds with no
thread, is kept when an operation launches a thread, and is kept when a thread takes a step that
meets the guard. -/
theorem invariant_of {I J : State σ τ → Prop} (hI : ∀ s, P.system.ReachableWhile ok s → I s)
    (hinit : ∀ sh, P.init sh → J ⟨sh, []⟩)
    (hlaunch : ∀ s a t, I s → J s → ok s (.launch a) → P.launch s.shared s.threads a = some t →
      J { s with threads := s.threads ++ [t] })
    (hrun : ∀ s i c t sh t' new, I s → J s → ok s (.run i c) → s.threads[i]? = some t →
      P.step s.shared s.threads t c = some (sh, t', new) →
      J ⟨sh, stepped s.threads i t' new⟩) (h : P.system.ReachableWhile ok s) : J s := by
  refine h.invariant_of hI ?_ ?_
  · rintro ⟨sh, ts⟩ ⟨hsh, hts⟩
    cases hts
    exact hinit sh hsh
  · intro s a s' hI hJ hok hst
    cases a with
    | launch a =>
      obtain ⟨t, ht, rfl⟩ := next_launch hst
      exact hlaunch s a t hI hJ hok ht
    | run i c =>
      obtain ⟨t, sh, t', new, ht, hstep, rfl⟩ := next_run hst
      exact hrun s i c t sh t' new hI hJ hok ht hstep

/-- **Thread-local invariants**, relative to an invariant `I` already established. What holds of every
launched thread, is kept by the step of a thread for itself and those it spawns, and is not
disturbed by the steps of others, holds of all threads. -/
theorem forall_threads_of {I : State σ τ → Prop} (hI : ∀ s, P.system.ReachableWhile ok s → I s)
    (hlaunch : ∀ s a t, ok s (.launch a) → P.launch s.shared s.threads a = some t → L s.shared t)
    (hown : ∀ s i c t sh' t' new, I s → ok s (.run i c) → s.threads[i]? = some t →
      L s.shared t → P.step s.shared s.threads t c = some (sh', t', new) →
      L sh' t' ∧ ∀ u ∈ new, L sh' u)
    (hother : ∀ s i c t sh' t' new j u, I s → ok s (.run i c) → s.threads[i]? = some t →
      s.threads[j]? = some u → j ≠ i → L s.shared t → L s.shared u →
      P.step s.shared s.threads t c = some (sh', t', new) → L sh' u) (h : P.system.ReachableWhile ok s) :
    ∀ t ∈ s.threads, L s.shared t := by
  refine invariant_of (J := fun s => ∀ t ∈ s.threads, L s.shared t) hI ?_ ?_ ?_ h
  · intro sh _ t ht
    cases ht
  · intro s a t _ hJ hok ht u hu
    rcases List.mem_append.1 hu with hu | hu
    · exact hJ u hu
    · rw [List.mem_singleton.1 hu]
      exact hlaunch s a t hok ht
  · intro s i c t sh' t' new hI hJ hok hi hstep
    obtain ⟨hself, hnew⟩ := hown s i c t sh' t' new hI hok hi (hJ t (List.mem_of_getElem? hi)) hstep
    refine forall_mem_stepped hself hnew fun j u hne hj => ?_
    exact hother s i c t sh' t' new j u hI hok hi hj hne (hJ t (List.mem_of_getElem? hi))
      (hJ u (List.mem_of_getElem? hj)) hstep

/-- Thread-local invariants that need nothing else. -/
theorem forall_threads
    (hlaunch : ∀ s a t, ok s (.launch a) → P.launch s.shared s.threads a = some t → L s.shared t)
    (hown : ∀ sh ts t c sh' t' new, L sh t → P.step sh ts t c = some (sh', t', new) →
      L sh' t' ∧ ∀ u ∈ new, L sh' u)
    (hother : ∀ sh ts t c sh' t' new u, L sh t → L sh u → P.step sh ts t c = some (sh', t', new) →
      L sh' u) (h : P.system.ReachableWhile ok s) : ∀ t ∈ s.threads, L s.shared t := by
  refine forall_threads_of (I := fun _ => True) (fun _ _ => trivial) hlaunch ?_ ?_ h
  · intro s i c t sh' t' new _ _ _ hL hstep
    exact hown _ _ _ _ _ _ _ hL hstep
  · intro s i c t sh' t' new j u _ _ _ _ _ hLt hLu hstep
    exact hother _ _ _ _ _ _ _ u hLt hLu hstep

/-! ## Locks -/

/-- **Mutual exclusion**, under a guard. `H sh t` says that the thread `t` is at a point where it
holds the lock. When the guard lets a thread come to hold it only while no thread does, at most one
ever does. -/
theorem exclusive_of (hlaunch : ∀ sh ts a t, P.launch sh ts a = some t → ¬ H sh t)
    (hacquire : ∀ s i c t sh' t' new, ok s (.run i c) → s.threads[i]? = some t →
      P.step s.shared s.threads t c = some (sh', t', new) → H sh' t' →
      H s.shared t ∨ ∀ u ∈ s.threads, ¬ H s.shared u)
    (hnew : ∀ sh ts t c sh' t' new, P.step sh ts t c = some (sh', t', new) →
      ∀ u ∈ new, ¬ H sh' u)
    (hother : ∀ sh ts t c sh' t' new u, P.step sh ts t c = some (sh', t', new) → H sh' u →
      H sh u) (h : P.system.ReachableWhile ok s) :
    s.threads.Pairwise fun t u => ¬ (H s.shared t ∧ H s.shared u) := by
  refine invariant_of (I := fun _ => True) (J := fun s => s.threads.Pairwise fun t u =>
    ¬ (H s.shared t ∧ H s.shared u)) (fun _ _ => trivial) ?_ ?_ ?_ h
  · intro sh _
    exact List.Pairwise.nil
  · intro s a t _ hJ _ ht
    rw [List.pairwise_append]
    refine ⟨hJ, List.pairwise_singleton _ t, fun u _ v hv => ?_⟩
    rw [List.mem_singleton.1 hv]
    exact fun hh => hlaunch _ _ _ _ ht hh.2
  · intro s i c t sh' t' new _ hJ hok hi hstep
    unfold stepped
    rw [List.pairwise_append]
    refine ⟨?_, ?_, ?_⟩
    · rw [List.pairwise_iff_getElem] at hJ ⊢
      intro j k hj hk hjk hh
      simp only [List.length_set] at hj hk
      obtain ⟨hil, hti⟩ := List.getElem?_eq_some_iff.1 hi
      rw [List.getElem_set, List.getElem_set] at hh
      by_cases hji : i = j
      · subst hji
        rw [if_pos rfl, if_neg (by omega)] at hh
        obtain ⟨hself, hk'⟩ := hh
        have hk'' := hother _ _ _ _ _ _ _ _ hstep hk'
        rcases hacquire _ _ _ _ _ _ _ hok hi hstep hself with hself | hfree
        · exact hJ i k hil hk hjk ⟨hti ▸ hself, hk''⟩
        · exact hfree _ (List.getElem_mem hk) hk''
      · by_cases hki : i = k
        · subst hki
          rw [if_neg hji, if_pos rfl] at hh
          obtain ⟨hj', hself⟩ := hh
          have hj'' := hother _ _ _ _ _ _ _ _ hstep hj'
          rcases hacquire _ _ _ _ _ _ _ hok hi hstep hself with hself | hfree
          · exact hJ j i hj hil hjk ⟨hj'', hti ▸ hself⟩
          · exact hfree _ (List.getElem_mem hj) hj''
        · rw [if_neg hji, if_neg hki] at hh
          exact hJ j k hj hk hjk
            ⟨hother _ _ _ _ _ _ _ _ hstep hh.1, hother _ _ _ _ _ _ _ _ hstep hh.2⟩
    · exact List.pairwise_of_forall_mem_list fun u hu _ _ hh => hnew _ _ _ _ _ _ _ hstep u hu hh.1
    · exact fun _ _ u hu hh => hnew _ _ _ _ _ _ _ hstep u hu hh.2

/-- Mutual exclusion when the steps themselves wait for the lock. -/
theorem exclusive (hlaunch : ∀ sh ts a t, P.launch sh ts a = some t → ¬ H sh t)
    (hacquire : ∀ sh ts t c sh' t' new, P.step sh ts t c = some (sh', t', new) → H sh' t' →
      H sh t ∨ ∀ u ∈ ts, ¬ H sh u)
    (hnew : ∀ sh ts t c sh' t' new, P.step sh ts t c = some (sh', t', new) →
      ∀ u ∈ new, ¬ H sh' u)
    (hother : ∀ sh ts t c sh' t' new u, P.step sh ts t c = some (sh', t', new) → H sh' u →
      H sh u) (h : P.system.ReachableWhile ok s) :
    s.threads.Pairwise fun t u => ¬ (H s.shared t ∧ H s.shared u) :=
  exclusive_of hlaunch (fun _ _ _ _ _ _ _ _ _ => hacquire _ _ _ _ _ _ _) hnew hother h

/-- While one thread holds the lock, no other does. -/
theorem not_holds_of_ne (hx : s.threads.Pairwise fun t u => ¬ (H s.shared t ∧ H s.shared u))
    (hi : s.threads[i]? = some t) (ht : H s.shared t) (hj : s.threads[j]? = some u) (hne : j ≠ i) :
    ¬ H s.shared u := by
  obtain ⟨hil, rfl⟩ := List.getElem?_eq_some_iff.1 hi
  obtain ⟨hjl, rfl⟩ := List.getElem?_eq_some_iff.1 hj
  rw [List.pairwise_iff_getElem] at hx
  intro hu
  rcases Nat.lt_or_gt_of_ne hne with hlt | hlt
  · exact hx j i hjl hil hlt ⟨hu, ht⟩
  · exact hx i j hil hjl hlt ⟨ht, hu⟩

/-! ## Relabelled operations -/

/-- The pool with the operations under other names. -/
def relabel {β : Type u} (f : β → α) (P : Pool σ τ α χ) : Pool σ τ β χ where
  init := P.init
  launch sh ts b := P.launch sh ts (f b)
  step := P.step

/-- The run of a relabelled pool is one of the pool. -/
theorem reachable_of_relabel {β : Type u} {f : β → α} {ok : State σ τ → Action β χ → Prop}
    (h : (P.relabel f).system.ReachableWhile ok s) : P.system.Reachable s := by
  induction h with
  | init h0 => exact .init h0
  | @step s s' a _ _ hst ih =>
    cases a with
    | launch b => exact ih.step (a := .launch (f b)) hst
    | run i c => exact ih.step (a := .run i c) hst

/-! ## Pairs of threads -/

/-- What is to hold between any two threads holds of a launched thread and those before it, is kept for
the thread that takes a step, and holds of those it spawns. -/
theorem pairwise (hsymm : ∀ t u, R t u → R u t)
    (hlaunch : ∀ sh ts a t, P.launch sh ts a = some t → ∀ u ∈ ts, R u t)
    (hstep : ∀ sh ts t c sh' t' new u, P.step sh ts t c = some (sh', t', new) → R t u → R t' u)
    (hnew : ∀ sh ts t c sh' t' new, P.step sh ts t c = some (sh', t', new) → ∀ u ∈ new, ∀ v, R u v)
    (h : P.system.ReachableWhile ok s) : s.threads.Pairwise R := by
  refine invariant_of (I := fun _ => True) (J := fun s => s.threads.Pairwise R)
    (fun _ _ => trivial) ?_ ?_ ?_ h
  · intro sh _
    exact List.Pairwise.nil
  · intro s a t _ hJ _ ht
    rw [List.pairwise_append]
    refine ⟨hJ, List.pairwise_singleton _ t, fun u hu v hv => ?_⟩
    rw [List.mem_singleton.1 hv]
    exact hlaunch _ _ _ _ ht u hu
  · intro s i c t sh' t' new _ hJ _ hi hthread
    obtain ⟨hil, hti⟩ := List.getElem?_eq_some_iff.1 hi
    unfold stepped
    rw [List.pairwise_append]
    refine ⟨?_, List.pairwise_of_forall_mem_list fun u hu v _ => hnew _ _ _ _ _ _ _ hthread u hu v,
      fun v _ u hu => hsymm _ _ (hnew _ _ _ _ _ _ _ hthread u hu v)⟩
    rw [List.pairwise_iff_getElem] at hJ ⊢
    intro j k hj hk hjk
    simp only [List.length_set] at hj hk
    rw [List.getElem_set, List.getElem_set]
    by_cases hji : i = j
    · subst hji
      rw [if_pos rfl, if_neg (by omega)]
      exact hstep _ _ _ _ _ _ _ _ hthread (hti ▸ hJ i k hil hk hjk)
    · by_cases hki : i = k
      · subst hki
        rw [if_neg hji, if_pos rfl]
        exact hsymm _ _ (hstep _ _ _ _ _ _ _ _ hthread (hti ▸ hsymm _ _ (hJ j i hj hil hjk)))
      · rw [if_neg hji, if_neg hki]
        exact hJ j k hj hk hjk

theorem rel_of_ne (hsymm : ∀ t u, R t u → R u t) (hR : s.threads.Pairwise R)
    (hi : s.threads[i]? = some t) (hj : s.threads[j]? = some u) (hne : j ≠ i) : R t u := by
  obtain ⟨hil, rfl⟩ := List.getElem?_eq_some_iff.1 hi
  obtain ⟨hjl, rfl⟩ := List.getElem?_eq_some_iff.1 hj
  rw [List.pairwise_iff_getElem] at hR
  rcases Nat.lt_or_gt_of_ne hne with hlt | hlt
  · exact hsymm _ _ (hR j i hjl hil hlt)
  · exact hR i j hil hjl hlt

/-! ## Following one thread -/

/-- A step of one thread: the shared state around it, the thread as it was, and the choice. -/
structure Move (σ τ χ : Type u) where
  before : σ
  thread : τ
  choice : χ
  after : σ

/-- Replay a list of actions and note the moves of thread `i`. -/
def follow (P : Pool σ τ α χ) (i : Nat) :
    State σ τ → List (Action α χ) → Option (List (Move σ τ χ) × State σ τ)
  | s, [] => some ([], s)
  | s, a :: as =>
    match P.next s a with
    | none => none
    | some s₁ =>
      match follow P i s₁ as with
      | none => none
      | some (moves, s') =>
        match a, s.threads[i]? with
        | .run j c, some t =>
          if j = i then some (⟨s.shared, t, c, s₁.shared⟩ :: moves, s') else some (moves, s')
        | _, _ => some (moves, s')

/-- A thread that is there stays as it is in the steps of others. -/
theorem next_other (h : P.next s a = some s') (hi : s.threads[i]? = some t) (hother : ∀ c, a ≠ .run i c) :
    s'.threads[i]? = some t := by
  cases a with
  | launch a =>
    obtain ⟨u, -, rfl⟩ := next_launch h
    obtain ⟨hlt, -⟩ := List.getElem?_eq_some_iff.1 hi
    show (s.threads ++ [u])[i]? = some t
    rw [List.getElem?_append_left hlt, hi]
  | run j c =>
    have hne : i ≠ j := by
      intro hij
      exact hother c (by rw [hij])
    obtain ⟨u, sh, u', new, -, -, rfl⟩ := next_run h
    exact getElem?_stepped_of_ne hi hne

variable {moves : List (Move σ τ χ)}

/-- An action of the thread itself is its first move. -/
theorem follow_own {c : χ} (hi : s.threads[i]? = some t)
    (h : P.follow i s (.run i c :: as) = some (moves, s')) :
    ∃ sh t' new moves', P.step s.shared s.threads t c = some (sh, t', new) ∧
      P.follow i ⟨sh, stepped s.threads i t' new⟩ as = some (moves', s') ∧
      moves = ⟨s.shared, t, c, sh⟩ :: moves' := by
  unfold follow at h
  split at h
  · cases h
  · next s₁ hnext =>
    obtain ⟨u, sh, t', new, hu, hstep, rfl⟩ := next_run hnext
    rw [hi] at hu
    cases hu
    split at h
    · cases h
    · next moves' s'' hrest =>
      rw [hi] at h
      dsimp only at h
      rw [if_pos rfl] at h
      cases h
      exact ⟨sh, t', new, moves', hstep, hrest, rfl⟩

/-- An action of another leaves the thread in its place and is not noted. -/
theorem follow_other (hi : s.threads[i]? = some t) (hother : ∀ c, a ≠ .run i c)
    (h : P.follow i s (a :: as) = some (moves, s')) :
    ∃ s₁, s₁.threads[i]? = some t ∧ P.follow i s₁ as = some (moves, s') := by
  unfold follow at h
  split at h
  · cases h
  · next s₁ hnext =>
    refine ⟨s₁, next_other hnext hi hother, ?_⟩
    split at h
    · cases h
    · next moves' s'' hrest =>
      rw [hrest, ← h, hi]
      cases a with
      | launch a => rfl
      | run j c =>
        dsimp only
        rw [if_neg]
        intro hji
        exact hother c (by rw [hji])

/-- **Phase rule.** In a phase `Q` of a thread every move is an `R`, and leads on in the phase or to
its end `E`. So are all moves of a thread that starts in the phase, until it stands at the end. -/
theorem follow_phase {Q E : τ → Prop} {C : χ → Prop} {R : Move σ τ χ → Prop}
    (hphase : ∀ sh ts t c sh' t' new, Q t → C c → P.step sh ts t c = some (sh', t', new) →
      R ⟨sh, t, c, sh'⟩ ∧ (Q t' ∨ E t')) (h : P.follow i s as = some (moves, s'))
    (hi : s.threads[i]? = some t) (ht : Q t ∨ E t) (hC : ∀ m ∈ moves, C m.choice)
    (hE : ∀ m ∈ moves, ¬ E m.thread) :
    (∀ m ∈ moves, R m) ∧
      ∃ t', s'.threads[i]? = some t' ∧ (Q t' ∨ E t') ∧ (t' = t ∧ moves = [] ∨ moves ≠ []) := by
  induction as generalizing s t moves with
  | nil =>
    cases h
    exact ⟨List.forall_mem_nil _, t, hi, ht, .inl ⟨rfl, rfl⟩⟩
  | cons a as ih =>
    by_cases hown : ∃ c, a = .run i c
    · obtain ⟨c, rfl⟩ := hown
      obtain ⟨sh, t', new, moves', hstep, hrest, rfl⟩ := follow_own hi h
      rw [List.forall_mem_cons] at hC hE ⊢
      have hQ : Q t := ht.resolve_right hE.1
      obtain ⟨hR, ht'⟩ := hphase _ _ _ _ _ _ _ hQ hC.1 hstep
      obtain ⟨hRs, u, hu, hend, -⟩ := ih hrest (getElem?_stepped_self hi) ht' hC.2 hE.2
      exact ⟨⟨hR, hRs⟩, u, hu, hend, .inr (List.cons_ne_nil _ _)⟩
    · have hother : ∀ c, a ≠ .run i c := fun c hc => hown ⟨c, hc⟩
      obtain ⟨s₁, hi₁, hrest⟩ := follow_other hi hother h
      exact ih hrest hi₁ ht hC hE

end Pool

end Verif
