import EndaraRelay.OAuth.FlowThreads

/-!
# Commit locks

A callback from its second check to its last effect, and a reset from its invalidation to its end, have
locked the endpoint. The lock is a weak reference in a map of the flow manager, and both get it from there.

**Theorem (`endpoint_exclusive`).** At most one thread has locked an endpoint: references to the lock of an
endpoint are to the same lock (`holds_lock`), and a lock is locked once (`guards_exclusive`).
-/

namespace EndaraRelay.ResetFlows

open Verif

section Steps

variable {sh : FlowStores} {ts new : List FlowThread} {t t' u : FlowThread} {env : FlowAnswer} {a : FlowAct}
  {reset : Nat} {name : String} {flow : PendingFlow}

/-- What a step does about the commit lock. -/
inductive LockStep (sh : FlowStores) (ts : List FlowThread) (t : FlowThread) (a : FlowAct) (t' : FlowThread) :
    Prop where
  | keep (ha : ∀ name held, a ≠ .lock name held) (hholds : t'.holds = none ∨ t'.holds = t.holds)
      (hguards : t'.guards = none ∨ t'.guards = t.guards) : LockStep sh ts t a t'
  | fetch (name : String) (ha : a = .lock name (heldBy ts)) (hguards : t'.guards = none)
      (hholds : t'.holds = some (name, (sh.manager.commitLock name (heldBy ts)).1)) : LockStep sh ts t a t'
  | guard (name : String) (lock : Nat) (ha : a = .pass) (hold : t.holds = some (name, lock))
      (hholds : t'.holds = some (name, lock)) (hfree : guardedBy ts lock = false) : LockStep sh ts t a t'

theorem commitIf_ne_lock (succeeds : Bool) (flow : PendingFlow) (kind : FlowCommit) (name : String)
    (held : Nat → Bool) : commitIf succeeds flow kind ≠ .lock name held := by
  cases succeeds <;> exact nofun

theorem CallbackPc.step_locks {pc pc' : CallbackPc}
    (h : pc.step sh (heldBy ts) (guardedBy ts) env = some (a, pc')) :
    LockStep sh ts (.callback pc) a (.callback pc') := by
  cases pc with
  | consuming state =>
    cases h
    refine .keep (fun _ _ h => by cases h) ?_ ?_
    · split <;> exact .inl rfl
    · split <;> exact .inl rfl
  | checking flow =>
    cases h
    refine .keep (fun _ _ h => by cases h) ?_ ?_
    · split <;> exact .inl rfl
    · split <;> exact .inl rfl
  | guarding flow =>
    cases h
    refine .keep (fun _ _ h => by cases h) ?_ ?_
    · split <;> exact .inl rfl
    · split <;> exact .inl rfl
  | exchanging flow =>
    rw [step] at h
    split at h <;>
    · cases h
      exact .keep (fun _ _ h => by cases h) (.inl rfl) (.inl rfl)
  | fetching flow =>
    cases h
    exact .fetch _ rfl rfl rfl
  | locking flow lock =>
    rw [step] at h
    split at h
    · cases h
    · next hfree =>
      cases h
      exact .guard _ lock rfl rfl rfl (by simpa using hfree)
  | rechecking flow lock =>
    cases h
    refine .keep (fun _ _ h => by cases h) ?_ ?_
    · split
      · exact .inr rfl
      · exact .inl rfl
    · split
      · exact .inr rfl
      · exact .inl rfl
  | committing flow lock =>
    rw [step] at h
    split at h
    · cases h
      exact .keep (commitIf_ne_lock _ _ _) (.inl rfl) (.inl rfl)
    · split at h
      · cases h
        exact .keep (commitIf_ne_lock _ _ _) (.inl rfl) (.inl rfl)
      · cases h
        refine .keep (fun _ _ h => by cases h) ?_ ?_
        · split
          · exact .inl rfl
          · exact .inr rfl
        · split
          · exact .inl rfl
          · exact .inr rfl
  | savingTokens flow lock =>
    cases h
    exact .keep (commitIf_ne_lock _ _ _) (.inr rfl) (.inr rfl)
  | applyingClient flow lock =>
    cases h
    refine .keep (commitIf_ne_lock _ _ _) ?_ ?_
    · split
      · exact .inr rfl
      · exact .inl rfl
    · split
      · exact .inr rfl
      · exact .inl rfl
  | applyingTokens flow lock =>
    cases h
    exact .keep (fun _ _ h => by cases h) (.inl rfl) (.inl rfl)
  | ended => cases h

theorem ResetPc.step_locks {id : Nat} {pc pc' : ResetPc}
    (h : pc.step sh (heldBy ts) (guardedBy ts) id name env = some (a, pc')) :
    LockStep sh ts (.reset id name pc) a (.reset id name pc') := by
  cases pc with
  | beginning =>
    rw [step] at h
    split at h <;>
    · cases h
      exact .keep (fun _ _ h => by cases h) (.inl rfl) (.inl rfl)
  | fetching =>
    cases h
    exact .fetch name rfl rfl rfl
  | locking lock =>
    rw [step] at h
    split at h
    · cases h
    · next hfree =>
      cases h
      exact .guard name lock rfl rfl rfl (by simpa using hfree)
  | restoring lock preserved tokensDeleted =>
    rw [step.eq_def] at h
    dsimp only at h
    split at h <;>
    · cases h
      exact .keep (fun _ _ h => by cases h) (.inr rfl) (.inr rfl)
  | releasing lock disconnected =>
    cases h
    exact .keep (fun _ _ h => by cases h) (.inl rfl) (.inl rfl)
  | ended => cases h
  | refused => cases h
  | _ =>
    cases h
    exact .keep (fun _ _ h => by cases h) (.inr rfl) (.inr rfl)

theorem FlowThread.step_locks (h : t.step sh ts env = some (a, t', new)) : LockStep sh ts t a t' := by
  cases t with
  | start id name pc =>
    obtain ⟨⟨a, pc'⟩, hpc, heq⟩ := Option.map_eq_some_iff.1 h
    cases heq
    refine .keep ?_ (.inl rfl) (.inl rfl)
    rintro name' held rfl
    cases StartPc.step_cases hpc with
    | work h h' hwork => cases hwork
  | quick id name client idpIssuer =>
    rw [step] at h
    split at h
    · cases h
    · cases h
      exact .keep (fun _ _ h => by cases h) (.inl rfl) (.inl rfl)
  | quickEnded id name => cases h
  | callback pc =>
    obtain ⟨⟨a, pc'⟩, hpc, heq⟩ := Option.map_eq_some_iff.1 h
    cases heq
    exact CallbackPc.step_locks hpc
  | reset id name pc =>
    obtain ⟨⟨a, pc'⟩, hpc, heq⟩ := Option.map_eq_some_iff.1 h
    cases heq
    exact ResetPc.step_locks hpc

def FlowThread.commits : FlowThread → Option PendingFlow
  | callback pc => pc.commits
  | _ => none

/-- Who commits a flow has locked its endpoint. -/
theorem guards_of_commits (h : t.commits = some flow) : ∃ lock, t.guards = some (flow.endpointName, lock) := by
  cases t with
  | callback pc =>
    cases pc with
    | committing flow' lock | savingTokens flow' lock | applyingClient flow' lock | applyingTokens flow' lock =>
      cases h
      exact ⟨lock, rfl⟩
    | _ => cases h
  | _ => cases h

theorem FlowStep.guards_of_invalidate (h : FlowStep sh ts env t (.invalidate reset name) t' new) :
    ∃ lock, t.guards = some (name, lock) := by
  cases h with
  | start h =>
    cases h with
    | work h h' hwork => cases hwork
  | callback h =>
    cases h with
    | work h h' hcommits hwork => cases hwork
  | reset h hnew =>
    cases h with
    | invalidate lock => exact ⟨lock, rfl⟩
    | work h hwork => cases hwork

theorem guards_imp_holds {l : String × Nat} (h : t.guards = some l) : t.holds = some l := by
  unfold FlowThread.guards at h
  split at h
  · cases h
  · exact h

theorem commitLocks_manager {m : OAuthFlowManager} (ha : ∀ name held, a ≠ .lock name held) :
    (a.manager m).commitLocks = m.commitLocks := by
  cases a with
  | lock name held => exact absurd rfl (ha name held)
  | _ => rfl

end Steps

section Runs

variable {s : FlowsState} {i j : Nat} {t u : FlowThread} {name : String} {lock lock' : Nat}

/-- A reference is to the lock of the endpoint. -/
theorem holds_lock (h : flows.system.Reachable s) : ∀ t ∈ s.threads, ∀ l ∈ t.holds,
    s.shared.manager.commitLocks.lookup l.1 = some l.2 := by
  refine Pool.forall_threads_of (I := fun _ => True)
    (L := fun sh t => ∀ l ∈ t.holds, sh.manager.commitLocks.lookup l.1 = some l.2)
    (fun _ _ => trivial) ?_ ?_ ?_ h
  · intro s op t _ ht l hl
    cases op <;>
    · cases ht
      cases hl
  · intro s i env t sh' t' new _ _ hi ht hst
    obtain ⟨⟨a, t₁, new₁⟩, hstep, heq⟩ := Option.map_eq_some_iff.1 hst
    cases heq
    refine ⟨fun l hl => ?_, fun u hu l hl => ?_⟩
    · cases FlowThread.step_locks hstep with
      | keep ha hholds hguards =>
        obtain hnone | hsame := hholds
        · rw [hnone] at hl
          cases hl
        · rw [hsame] at hl
          exact (congrArg (AList.lookup l.1) (commitLocks_manager ha)).trans (ht l hl)
      | fetch name ha hguards hholds =>
        rw [hholds] at hl
        cases hl
        rw [ha]
        exact OAuthFlowManager.lookup_commitLock
      | guard name lock ha hold hholds hfree =>
        rw [hholds, ← hold] at hl
        rw [ha]
        exact ht l hl
    · obtain rfl | ⟨name, rfl⟩ := (FlowThread.step_cases hstep).spawns
      · cases hu
      · cases List.mem_singleton.1 hu
        cases hl
  · intro s i env t sh' t' new j u _ _ hi hj hne ht hu hst l hl
    obtain ⟨⟨a, t₁, new₁⟩, hstep, heq⟩ := Option.map_eq_some_iff.1 hst
    cases heq
    have hold := hu l hl
    cases FlowThread.step_locks hstep with
    | keep ha hholds hguards => exact (congrArg (AList.lookup l.1) (commitLocks_manager ha)).trans hold
    | fetch name ha hguards hholds =>
      rw [ha]
      refine OAuthFlowManager.lookup_commitLock_of_held hold ?_
      refine List.any_eq_true.2 ⟨u, List.mem_of_getElem? hj, ?_⟩
      rw [Option.mem_def.1 hl]
      exact decide_eq_true rfl
    | guard name lock ha hold' hholds hfree =>
      rw [ha]
      exact hold

theorem guards_exclusive (h : flows.system.Reachable s) (lock : Nat) : s.threads.Pairwise fun t u =>
    ¬ ((∃ l ∈ t.guards, l.2 = lock) ∧ ∃ l ∈ u.guards, l.2 = lock) := by
  refine Pool.exclusive (H := fun _ t => ∃ l ∈ FlowThread.guards t, l.2 = lock) ?_ ?_ ?_ ?_ h
  · rintro sh ts op t ht ⟨l, hl, -⟩
    cases op <;>
    · cases ht
      cases hl
  · rintro sh ts t env sh' t' new hst ⟨l, hl, hlock⟩
    obtain ⟨⟨a, t₁, new₁⟩, hstep, heq⟩ := Option.map_eq_some_iff.1 hst
    cases heq
    cases FlowThread.step_locks hstep with
    | keep ha hholds hguards =>
      obtain hnone | hsame := hguards
      · rw [hnone] at hl
        cases hl
      · exact .inl ⟨l, hsame ▸ hl, hlock⟩
    | fetch name ha hguards hholds =>
      rw [hguards] at hl
      cases hl
    | guard name lock' ha hold hholds hfree =>
      right
      rintro u hu ⟨l', hl', hlock'⟩
      have hl := guards_imp_holds (Option.mem_def.1 hl)
      rw [hholds] at hl
      cases hl
      rw [guardedBy, List.any_eq_false] at hfree
      apply hfree u hu
      rw [Option.mem_def.1 hl']
      exact decide_eq_true (hlock'.trans hlock.symm)
  · rintro sh ts t env sh' t' new hst u hu ⟨l, hl, -⟩
    obtain ⟨a, hstep, -⟩ := flows_step hst
    obtain rfl | ⟨name, rfl⟩ := hstep.spawns
    · cases hu
    · cases List.mem_singleton.1 hu
      cases hl
  · exact fun _ _ _ _ _ _ _ _ _ hu => hu

/-- **An endpoint is locked by one thread.** -/
theorem endpoint_exclusive (h : flows.system.Reachable s) (hi : s.threads[i]? = some t)
    (hj : s.threads[j]? = some u) (hne : j ≠ i) (ht : t.guards = some (name, lock)) :
    u.guards ≠ some (name, lock') := by
  intro hu
  have hlock := holds_lock h t (List.mem_of_getElem? hi) _ (guards_imp_holds ht)
  have hlock' := holds_lock h u (List.mem_of_getElem? hj) _ (guards_imp_holds hu)
  obtain rfl : lock = lock' := Option.some.inj (hlock.symm.trans hlock')
  exact Pool.not_holds_of_ne (H := fun _ t => ∃ l ∈ FlowThread.guards t, l.2 = lock)
    (guards_exclusive h lock) hi ⟨_, ht, rfl⟩ hj hne ⟨_, hu, rfl⟩

end Runs

end EndaraRelay.ResetFlows
