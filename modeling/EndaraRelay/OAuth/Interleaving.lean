import EndaraRelay.OAuth.Adapter

/-!
# The OAuth adapter: what one step can touch

The facts every property of the interleaved adapter starts from. A step of a thread is a step from
where it stands, or its future is dropped (`Thread.step_cases`). An aborted task stays aborted. The
grant epoch moves only when a new grant is applied or a grant disconnected, both under `apply_lock`
(`Pc.step_grantEpoch`). At most one thread holds `apply_lock`, and at most one `refresh_mutex`, and no
thread has seen an epoch beyond the current one.
-/

namespace EndaraRelay

open Verif

/-! ## The writers of the shared state -/

namespace OAuthAdapterInner

variable (sh : OAuthAdapterInner) (epoch : Nat) (target : OAuthState) (handle : Option Nat)

@[simp] theorem transitionIfCurrent_tokens :
    (sh.transitionIfCurrent epoch target).tokens = sh.tokens := by
  unfold transitionIfCurrent; split <;> rfl

@[simp] theorem transitionIfCurrent_grantEpoch :
    (sh.transitionIfCurrent epoch target).grantEpoch = sh.grantEpoch := by
  unfold transitionIfCurrent; split <;> rfl

@[simp] theorem transitionIfCurrent_aborted :
    (sh.transitionIfCurrent epoch target).aborted = sh.aborted := by
  unfold transitionIfCurrent; split <;> rfl

@[simp] theorem transitionIfCurrent_shutdownReturned :
    (sh.transitionIfCurrent epoch target).shutdownReturned = sh.shutdownReturned := by
  unfold transitionIfCurrent; split <;> rfl

@[simp] theorem failIfCurrent_tokens :
    (sh.failIfCurrent epoch target).tokens = sh.tokens := by
  unfold failIfCurrent; split <;> rfl

@[simp] theorem failIfCurrent_grantEpoch :
    (sh.failIfCurrent epoch target).grantEpoch = sh.grantEpoch := by
  unfold failIfCurrent; split <;> rfl

@[simp] theorem failIfCurrent_aborted :
    (sh.failIfCurrent epoch target).aborted = sh.aborted := by
  unfold failIfCurrent; split <;> rfl

@[simp] theorem failIfCurrent_shutdownReturned :
    (sh.failIfCurrent epoch target).shutdownReturned = sh.shutdownReturned := by
  unfold failIfCurrent; split <;> rfl

/-- A refresh against a grant that is gone transitions nothing. -/
theorem transitionIfCurrent_of_ne (h : sh.grantEpoch ≠ epoch) :
    sh.transitionIfCurrent epoch target = sh := if_neg h

theorem failIfCurrent_of_ne (h : sh.grantEpoch ≠ epoch) : sh.failIfCurrent epoch target = sh :=
  if_neg h

end OAuthAdapterInner

/-! ## A step of a thread -/

variable {ema : Bool} {sh sh' : OAuthAdapterInner} {ts new : List Thread} {t t' u : Thread}
  {c : Choice} {a : Answer} {pc pc' : Pc}

/-- A step resumes the thread where it stands, or drops the future of an operation. -/
theorem Thread.step_cases (h : t.step ema sh ts c = some (sh', t', new)) :
    t.aborted sh = false ∧
      ((sh' = sh ∧ t' = { t with pc := .done } ∧ new = [] ∧ c = .drop) ∨
        ∃ a pc', c = .resume a ∧ t.pc.step ema sh ts a = some (sh', pc', new) ∧
          t' = { t with pc := pc' }) := by
  unfold Thread.step at h
  split at h
  · cases h
  · next hab =>
    refine ⟨by simpa using hab, ?_⟩
    cases c with
    | drop =>
      left
      dsimp only at h
      split at h
      · cases h
        exact ⟨rfl, rfl, rfl, rfl⟩
      · cases h
    | resume a =>
      right
      dsimp only at h
      split at h
      · cases h
      · next sh₁ pc₁ new₁ hst =>
        cases h
        exact ⟨a, pc₁, rfl, hst, rfl⟩

theorem Op.launch_cases {op : Op} (h : op.launch ema sh ts = some t) :
    t.task = none ∧ ((∃ d, t.pc = .snapshot d) ∨ t.pc = .load ∨ (∃ set, t.pc = .save set) ∨
      t.pc = .disconnecting .lock ∨ t.pc = .shuttingDown .heartbeat) := by
  cases op with
  | initializeAdapter =>
    simp only [Op.launch] at h
    split at h <;> cases h
    cases ema <;> simp
  | unauthorized =>
    simp only [Op.launch] at h
    split at h <;> cases h
    simp
  | oauthRefresh =>
    simp only [Op.launch] at h
    split at h <;> cases h
    simp
  | callback set =>
    cases h
    simp
  | disconnect =>
    cases h
    simp
  | shutdown =>
    simp only [Op.launch] at h
    split at h <;> cases h
    simp

/-! ## A step from each place -/

variable {d : Driver} {e : Nat} {ap : Apply}

theorem Pc.step_refreshing {p : RefreshPc}
    (h : (Pc.refreshing d e p).step ema sh ts a = some (sh', pc', new)) :
    ∃ next, p.step sh (refreshMutexFree sh ts) (applyLockFree sh ts) e a = some (sh', next) ∧
      pc' = next.pc ema d e ∧ new = [] := by
  simp only [Pc.step] at h
  split at h
  · cases h
  · next hst =>
    cases h
    exact ⟨_, hst, rfl, rfl⟩

theorem Pc.step_applying {p : ApplyPc}
    (h : (Pc.applying d ap p).step ema sh ts a = some (sh', pc', new)) :
    ∃ next spawned,
      p.step ema sh (applyLockFree sh ts) ts.length ap a = some (sh', next, spawned) ∧
      pc' = next.pc d ap ∧
      new = if spawned then [{ task := some ts.length, pc := .sleep }] else [] := by
  simp only [Pc.step] at h
  split at h
  · cases h
  · next hst =>
    cases h
    exact ⟨_, _, hst, rfl, rfl⟩

theorem Pc.step_disconnecting {p : DisconnectPc}
    (h : (Pc.disconnecting p).step ema sh ts a = some (sh', pc', new)) :
    p.step sh (applyLockFree sh ts) a = some (sh', pc') ∧ new = [] := by
  simp only [Pc.step] at h
  split at h
  · cases h
  · next hst =>
    cases h
    exact ⟨hst, rfl⟩

theorem Pc.step_followUp {err : OAuthError}
    (h : (Pc.followUp d e err).step ema sh ts a = some (sh', pc', new)) :
    applyLockFree sh ts = true ∧ sh' = sh.failIfCurrent e (d.failureState err) ∧
      pc' = d.returned ∧ new = [] := by
  simp only [Pc.step] at h
  split at h
  · next hfree =>
    cases h
    exact ⟨hfree, rfl, rfl, rfl⟩
  · cases h

/-- The places outside a refresh, its `Err` arm and an application. -/
def Pc.outside : Pc → Bool
  | .refreshing .. | .followUp .. | .applying .. => false
  | _ => true

@[simp] theorem Driver.returned_outside (d : Driver) : d.returned.outside = true := by
  cases d <;> rfl

/-- **Where a step from outside leads**: into a refresh, into an application, or outside again. -/
inductive Pc.Entered (ema : Bool) (sh : OAuthAdapterInner) : Pc → Prop
  | refresh {d : Driver} :
      Entered ema sh (.refreshing d sh.grantEpoch (if ema then .emaStarting else .preToken))
  | application {d : Driver} {set : TokenSet} :
      Entered ema sh (.applying d ⟨set, none, none⟩ .lock)
  | outside {pc : Pc} : pc.outside = true → Entered ema sh pc

theorem Pc.step_outside (h : pc.step ema sh ts a = some (sh', pc', new)) (hpc : pc.outside = true) :
    Pc.Entered ema sh pc' := by
  cases pc with
  | refreshing | followUp | applying => cases hpc
  | disconnecting p =>
    obtain ⟨hst, -⟩ := Pc.step_disconnecting h
    cases p <;> simp only [DisconnectPc.step] at hst <;> (repeat' split at hst) <;> cases hst <;>
      exact .outside rfl
  | shuttingDown p => cases p <;> cases h <;> exact .outside rfl
  | snapshot d =>
    cases h
    exact .refresh
  | _ =>
    simp only [Pc.step] at h
    (repeat' split at h) <;> cases h <;> first | exact .application | exact .outside rfl

/-- **What a step does to the shared state**, by the place it starts from. -/
inductive Change (sh : OAuthAdapterInner) (ts : List Thread) : Pc → OAuthAdapterInner → Prop
  | idle {pc : Pc} : Change sh ts pc sh
  | restore {set : TokenSet} : Change sh ts (.restore set) { sh with tokens := some set }
  | expired : Change sh ts .expired (sh.transitionTo .authRequired)
  | missing : Change sh ts .missing (sh.transitionTo .needsLogin)
  | storeHeartbeat {task : Nat} :
      Change sh ts (.storeHeartbeat task) { sh with heartbeatTaskHandle := some task }
  | starting {d : Driver} {e : Nat} {rt : String} : applyLockFree sh ts = true →
      Change sh ts (.refreshing d e (.starting rt)) (sh.transitionIfCurrent e .refreshing)
  | emaStarting {d : Driver} {e : Nat} : applyLockFree sh ts = true →
      Change sh ts (.refreshing d e .emaStarting) (sh.transitionIfCurrent e .refreshing)
  | rejected {d : Driver} {e : Nat} {p : RefreshPc} {rt : String} : p = .post rt ∨ p = .repost rt →
      Change sh ts (.refreshing d e p) (sh.rejected e rt)
  | exchanged {d : Driver} {e : Nat} {p : RefreshPc} {rt : String} {answered : Option String} :
      p = .post rt ∨ p = .repost rt → Change sh ts (.refreshing d e p) (sh.exchanged e rt answered)
  | failing {d : Driver} {e : Nat} {err : OAuthError} : applyLockFree sh ts = true →
      Change sh ts (.refreshing d e (.failing err)) (sh.failIfCurrent e err.target)
  | emaFailing {d : Driver} {e : Nat} {err : EmaError} : applyLockFree sh ts = true →
      Change sh ts (.refreshing d e (.emaFailing err)) (sh.failIfCurrent e err.target)
  | emaSave {d : Driver} {e : Nat} {set : TokenSet} :
      Change sh ts (.refreshing d e (.emaSave set)) { sh with
        disk := some set
        log := .refreshed .disk e sh.grantEpoch :: sh.log }
  | followUp {d : Driver} {e : Nat} {err : OAuthError} : applyLockFree sh ts = true →
      Change sh ts (.followUp d e err) (sh.failIfCurrent e (d.failureState err))
  | newGrant {d : Driver} {ap : Apply} : applyLockFree sh ts = true → ap.refreshEpoch = none →
      Change sh ts (.applying d ap .lock) { sh with
        grantEpoch := sh.grantEpoch + 1
        shutdownReturned := none }
  | entering {d : Driver} {ap : Apply} : sh.state ≠ .refreshing →
      Change sh ts (.applying d ap .entering) (sh.transitionTo .refreshing)
  | saving {d : Driver} {ap : Apply} :
      Change sh ts (.applying d ap .saving) { sh with
        disk := some ap.tokenSet
        log := ap.effect sh .disk ++ sh.log }
  | aborting {d : Driver} {ap : Apply} : Change sh ts (.applying d ap .aborting) sh.abortRefreshTask
  | publishing {d : Driver} {ap : Apply} :
      Change sh ts (.applying d ap .publishing) { sh with
        innerAdapter := some ap.tokenSet.accessToken
        log := .installed :: sh.log }
  | authenticated {d : Driver} {ap : Apply} :
      Change sh ts (.applying d ap .authenticated) (sh.transitionTo .authenticated)
  | clearing {d : Driver} {ap : Apply} :
      Change sh ts (.applying d ap .clearing) { sh with innerAdapter := none }
  | connectionFailed {d : Driver} {ap : Apply} :
      Change sh ts (.applying d ap .connectionFailed) (sh.transitionTo .connectionFailed)
  | remembering {d : Driver} {ap : Apply} :
      Change sh ts (.applying d ap .remembering) { sh with
        tokens := some ap.tokenSet
        log := ap.effect sh .memory ++ sh.log }
  | arming {d : Driver} {ap : Apply} :
      Change sh ts (.applying d ap .arming) { sh with log := .armed :: sh.log }
  | storing {d : Driver} {ap : Apply} {task : Nat} :
      Change sh ts (.applying d ap (.storing task)) { sh with refreshTaskHandle := some task }
  | callbackSave {set : TokenSet} : Change sh ts (.save set) { sh with disk := some set }
  | detach {pc : Pc} : pc = .detach ∨ pc = .retryDetach →
      Change sh ts pc { sh with refreshTaskHandle := none }
  | verdict {generation : Nat} :
      sh.state = .authenticated ∧ sh.lifecycleGeneration = generation →
      Change sh ts (.verdict generation) { sh with
        state := .authRequired
        lifecycleGeneration := sh.lifecycleGeneration + 1 }
  | disconnectAborting : Change sh ts (.disconnecting .aborting) sh.abortRefreshTask
  | disconnectClosing : Change sh ts (.disconnecting .closing) { sh with innerAdapter := none }
  | forgetting : Change sh ts (.disconnecting .forgetting) { sh with tokens := none }
  | bumping : Change sh ts (.disconnecting .bumping) { sh with grantEpoch := sh.grantEpoch + 1 }
  | deleting : Change sh ts (.disconnecting .deleting) { sh with disk := none }
  | disconnected : Change sh ts (.disconnecting .settling) (sh.transitionTo .disconnected)
  | shutdownHeartbeat : Change sh ts (.shuttingDown .heartbeat) sh.abortHeartbeat
  | shutdownRefreshTask : Change sh ts (.shuttingDown .refreshTask) sh.abortRefreshTask
  | shutdownClosing : Change sh ts (.shuttingDown .closing) { sh with innerAdapter := none }
  | shutdownSettling :
      Change sh ts (.shuttingDown .settling)
        { sh.transitionTo .disconnected with shutdownReturned := some ts.length }

theorem Pc.step_change (h : pc.step ema sh ts a = some (sh', pc', new)) : Change sh ts pc sh' := by
  cases pc with
  | refreshing d e p =>
    obtain ⟨next, hst, -, -⟩ := Pc.step_refreshing h
    cases p <;> simp only [RefreshPc.step] at hst <;> (repeat' split at hst) <;>
      simp only [Option.some.injEq, Prod.mk.injEq, reduceCtorEq] at hst <;> obtain ⟨rfl, -⟩ := hst <;>
      constructor <;> simp_all
  | applying d ap p =>
    obtain ⟨next, spawned, hst, -, -⟩ := Pc.step_applying h
    cases p <;> simp only [ApplyPc.step] at hst <;> (repeat' split at hst) <;>
      simp only [Option.some.injEq, Prod.mk.injEq, reduceCtorEq] at hst <;> obtain ⟨rfl, -⟩ := hst <;>
      constructor <;> simp_all
  | disconnecting p =>
    obtain ⟨hst, -⟩ := Pc.step_disconnecting h
    cases p <;> simp only [DisconnectPc.step] at hst <;> (repeat' split at hst) <;>
      simp only [Option.some.injEq, Prod.mk.injEq, reduceCtorEq] at hst <;> obtain ⟨rfl, -⟩ := hst <;>
      constructor
  | shuttingDown p =>
    cases p <;> simp only [Pc.step, ShutdownPc.step] at h <;> cases h <;> constructor
  | _ =>
    simp only [Pc.step] at h
    (repeat' split at h) <;>
      simp only [Option.some.injEq, Prod.mk.injEq, reduceCtorEq] at h <;> obtain ⟨rfl, -⟩ := h <;>
      constructor <;> simp_all

/-! ## Frames -/

theorem Change.aborted (h : Change sh ts pc sh') : ∀ id ∈ sh.aborted, id ∈ sh'.aborted := by
  intro id hid
  cases h <;> simp [hid]

/-- The two steps that move the grant epoch. -/
def Pc.Bumps : Pc → Prop
  | .applying _ ap .lock => ap.refreshEpoch = none
  | .disconnecting .bumping => True
  | _ => False

/-- The grant epoch moves only with a new grant or a disconnect, and only by one. -/
theorem Change.grantEpoch (h : Change sh ts pc sh') :
    sh'.grantEpoch = sh.grantEpoch ∨ pc.Bumps ∧ sh'.grantEpoch = sh.grantEpoch + 1 := by
  cases h with
  | newGrant _ hnew => exact .inr ⟨hnew, rfl⟩
  | bumping => exact .inr ⟨trivial, rfl⟩
  | _ => left; simp

theorem Change.grantEpoch_le (h : Change sh ts pc sh') : sh.grantEpoch ≤ sh'.grantEpoch := by
  rcases h.grantEpoch with h | ⟨-, h⟩ <;> omega

/-- A thread aborted before a step is aborted after it. -/
theorem Change.thread_aborted (h : Change sh ts pc sh') (hu : u.aborted sh' = false) :
    u.aborted sh = false := by
  unfold Thread.aborted at hu ⊢
  cases htask : u.task with
  | none => rfl
  | some id =>
    rw [htask] at hu
    simp only [Option.any_some, List.contains_eq_mem, decide_eq_false_iff_not] at hu ⊢
    exact fun hid => hu (h.aborted id hid)

theorem Thread.step_change (h : t.step ema sh ts c = some (sh', t', new)) : Change sh ts t.pc sh' := by
  rcases (Thread.step_cases h).2 with ⟨rfl, -, -, -⟩ | ⟨a, pc', -, hst, -⟩
  · exact .idle
  · exact Pc.step_change hst

/-- What a step spawns is a heartbeat or a proactive task. -/
theorem Pc.step_new (h : pc.step ema sh ts a = some (sh', pc', new)) :
    ∀ u ∈ new, u.pc = .tick ∨ u.pc = .sleep := by
  cases pc with
  | refreshing d e p =>
    obtain ⟨next, -, -, rfl⟩ := Pc.step_refreshing h
    simp
  | applying d ap p =>
    obtain ⟨next, spawned, -, -, rfl⟩ := Pc.step_applying h
    cases spawned <;> simp
  | disconnecting p =>
    obtain ⟨-, rfl⟩ := Pc.step_disconnecting h
    simp
  | _ =>
    simp only [Pc.step] at h
    (repeat' split at h) <;>
      simp only [Option.some.injEq, Prod.mk.injEq, reduceCtorEq] at h <;> obtain ⟨-, -, rfl⟩ := h <;>
      simp

theorem Thread.step_new (h : t.step ema sh ts c = some (sh', t', new)) :
    ∀ u ∈ new, u.pc = .tick ∨ u.pc = .sleep := by
  rcases (Thread.step_cases h).2 with ⟨-, -, rfl, -⟩ | ⟨a, pc', -, hst, -⟩
  · simp
  · exact Pc.step_new hst

/-! ## Mutual exclusion -/

@[simp] theorem Driver.returned_holdsRefreshMutex (d : Driver) :
    d.returned.holdsRefreshMutex = false := by
  cases d <;> rfl

@[simp] theorem Driver.onErr_holdsRefreshMutex (d : Driver) (epoch : Nat) (err : OAuthError) :
    (d.onErr ema epoch err).holdsRefreshMutex = false := by
  cases d <;> cases ema <;> rfl

/-- `apply_lock` is taken only when it is free. -/
theorem Pc.step_holdsApplyLock (h : pc.step ema sh ts a = some (sh', pc', new))
    (hpc' : pc'.holdsApplyLock = true) : pc.holdsApplyLock = true ∨ applyLockFree sh ts = true := by
  cases pc with
  | refreshing d e p =>
    obtain ⟨next, hst, rfl, -⟩ := Pc.step_refreshing h
    cases p <;> simp only [RefreshPc.step] at hst <;> (repeat' split at hst) <;>
      simp only [Option.some.injEq, Prod.mk.injEq, reduceCtorEq] at hst <;> obtain ⟨-, rfl⟩ := hst <;>
      simp_all [RefreshNext.pc, Driver.onOk, Pc.holdsApplyLock, RefreshPc.holdsApplyLock,
        ApplyPc.holdsApplyLock]
  | applying d ap p =>
    obtain ⟨next, spawned, hst, -, -⟩ := Pc.step_applying h
    cases p with
    | lock =>
      simp only [ApplyPc.step] at hst
      split at hst
      · cases hst
      · next hfree => exact .inr (by simpa using hfree)
    | _ => exact .inl rfl
  | disconnecting p =>
    obtain ⟨hst, -⟩ := Pc.step_disconnecting h
    cases p with
    | lock =>
      simp only [DisconnectPc.step] at hst
      split at hst
      · next hfree => exact .inr hfree
      · cases hst
    | _ => exact .inl rfl
  | shuttingDown p => cases p <;> simp only [Pc.step, ShutdownPc.step] at h <;> cases h <;> cases hpc'
  | _ =>
    simp only [Pc.step] at h
    (repeat' split at h) <;>
      simp only [Option.some.injEq, Prod.mk.injEq, reduceCtorEq] at h <;> obtain ⟨-, rfl, -⟩ := h <;>
      simp_all [Pc.holdsApplyLock, RefreshPc.holdsApplyLock, ApplyPc.holdsApplyLock]

theorem Pc.Entered.holdsRefreshMutex (h : Pc.Entered ema sh pc) : pc.holdsRefreshMutex = false := by
  cases h with
  | refresh => cases ema <;> rfl
  | application => rfl
  | outside h => cases pc <;> first | rfl | cases h

/-- `refresh_mutex` is taken only when it is free. -/
theorem Pc.step_holdsRefreshMutex (h : pc.step ema sh ts a = some (sh', pc', new))
    (hpc' : pc'.holdsRefreshMutex = true) :
    pc.holdsRefreshMutex = true ∨ refreshMutexFree sh ts = true := by
  cases pc with
  | refreshing d e p =>
    obtain ⟨next, hst, rfl, -⟩ := Pc.step_refreshing h
    cases next with
    | ok set => cases hpc'
    | err failure => simp [RefreshNext.pc] at hpc'
    | «at» p' =>
      cases p <;> simp only [RefreshPc.step] at hst <;> (repeat' split at hst) <;>
        simp only [Option.some.injEq, Prod.mk.injEq, reduceCtorEq, RefreshNext.at.injEq, and_false]
          at hst <;>
        obtain ⟨-, rfl⟩ := hst <;>
        simp_all [RefreshNext.pc, Pc.holdsRefreshMutex, RefreshPc.holdsRefreshMutex]
  | applying d ap p =>
    obtain ⟨next, spawned, -, rfl, -⟩ := Pc.step_applying h
    cases next with
    | «at» p' => cases hpc'
    | returned => simp [ApplyNext.pc] at hpc'
  | followUp d e err =>
    obtain ⟨-, -, rfl, -⟩ := Pc.step_followUp h
    simp at hpc'
  | _ =>
    rw [(Pc.step_outside h rfl).holdsRefreshMutex] at hpc'
    cases hpc'

theorem applyLockFree_iff :
    applyLockFree sh ts = true ↔ ∀ u ∈ ts, ¬ u.HoldsApplyLock sh := by
  simp [applyLockFree]

theorem refreshMutexFree_iff :
    refreshMutexFree sh ts = true ↔ ∀ u ∈ ts, ¬ u.HoldsRefreshMutex sh := by
  simp [refreshMutexFree]

theorem Op.launch_holdsApplyLock {op : Op} (h : op.launch ema sh ts = some t) :
    t.pc.holdsApplyLock = false := by
  obtain ⟨-, ⟨d, hp⟩ | hp | ⟨set, hp⟩ | hp | hp⟩ := Op.launch_cases h <;> rw [hp] <;> rfl

theorem Op.launch_holdsRefreshMutex {op : Op} (h : op.launch ema sh ts = some t) :
    t.pc.holdsRefreshMutex = false := by
  obtain ⟨-, ⟨d, hp⟩ | hp | ⟨set, hp⟩ | hp | hp⟩ := Op.launch_cases h <;> rw [hp] <;> rfl

/-! ## Epoch snapshots -/

/-- The grant epoch the thread works with is at most `n`. -/
def Pc.EpochLe (n : Nat) : Pc → Prop
  | .refreshing _ e _ => e ≤ n
  | .followUp _ e _ => e ≤ n
  | .applying _ ap _ => ∀ e, ap.refreshEpoch = some e → e ≤ n
  | _ => True

theorem Pc.EpochLe.mono {m n : Nat} (h : pc.EpochLe m) (hmn : m ≤ n) : pc.EpochLe n := by
  cases pc with
  | refreshing d e p => exact Nat.le_trans h hmn
  | followUp d e err => exact Nat.le_trans h hmn
  | applying d ap p => exact fun e he => Nat.le_trans (h e he) hmn
  | _ => trivial

theorem Driver.returned_epochLe (d : Driver) (n : Nat) : d.returned.EpochLe n := by
  cases d <;> trivial

theorem Driver.onErr_epochLe {n : Nat} (err : OAuthError) (h : e ≤ n) :
    (d.onErr ema e err).EpochLe n := by
  cases d <;> cases ema <;> trivial

theorem Driver.onOk_epochLe {n : Nat} (set : TokenSet) (h : e ≤ n) :
    (d.onOk ema e set).EpochLe n := by
  intro e' he'
  split at he'
  · cases he'
  · cases he'
    exact h

theorem Pc.Entered.epochLe (h : Pc.Entered ema sh pc) : pc.EpochLe sh.grantEpoch := by
  cases h with
  | refresh => exact Nat.le_refl _
  | application => rintro _ ⟨⟩
  | outside h => cases pc <;> trivial

/-- A thread works with the epoch of its snapshot. -/
theorem Pc.step_epochLe (h : pc.step ema sh ts a = some (sh', pc', new))
    (hle : pc.EpochLe sh.grantEpoch) : pc'.EpochLe sh.grantEpoch := by
  cases pc with
  | refreshing d e p =>
    obtain ⟨next, -, rfl, -⟩ := Pc.step_refreshing h
    cases next with
    | «at» p' => exact hle
    | ok set => exact Driver.onOk_epochLe set hle
    | err failure => exact Driver.onErr_epochLe failure hle
  | applying d ap p =>
    obtain ⟨next, spawned, -, rfl, -⟩ := Pc.step_applying h
    cases next with
    | «at» p' => exact hle
    | returned => exact Driver.returned_epochLe d _
  | followUp d e err =>
    obtain ⟨-, -, rfl, -⟩ := Pc.step_followUp h
    exact Driver.returned_epochLe d _
  | _ => exact (Pc.step_outside h rfl).epochLe

/-! ## Past the look at the epoch -/

/-- The places of a refresh past its first look at the epoch. -/
def RefreshPc.engaged : RefreshPc → Bool
  | .preToken | .refreshMutex _ | .compare _ | .inputs | .emaStarting => false
  | _ => true

/-- The grant a refresh is engaged with, from its first look at the epoch to the transition of its
driver's `Err` arm. -/
def Pc.engaged : Pc → Option Nat
  | .refreshing _ e p => if p.engaged then some e else none
  | .followUp _ e _ => some e
  | _ => none

/-- An operation that has replaced the grant and still holds `apply_lock`. -/
def Pc.movedEpoch : Pc → Bool
  | .disconnecting .deleting | .disconnecting .settling => true
  | .applying _ _ .lock => false
  | .applying _ ap _ => ap.refreshEpoch.isNone
  | _ => false

theorem Pc.holdsApplyLock_of_movedEpoch (h : pc.movedEpoch = true) : pc.holdsApplyLock = true := by
  cases pc with
  | disconnecting p => cases p <;> first | rfl | cases h
  | applying d ap p => cases p <;> first | rfl | cases h
  | _ => cases h

@[simp] theorem Driver.returned_engaged (d : Driver) : d.returned.engaged = none := by
  cases d <;> rfl

@[simp] theorem Driver.returned_movedEpoch (d : Driver) : d.returned.movedEpoch = false := by
  cases d <;> rfl

@[simp] theorem Driver.onErr_movedEpoch (d : Driver) (epoch : Nat) (err : OAuthError) :
    (d.onErr ema epoch err).movedEpoch = false := by
  cases d <;> cases ema <;> rfl

theorem Pc.Entered.engaged (h : Pc.Entered ema sh pc) : pc.engaged = none := by
  cases h with
  | refresh => cases ema <;> rfl
  | application => rfl
  | outside h => cases pc <;> first | rfl | cases h

/-- The steps of a refresh keep the epoch. -/
theorem Pc.step_refreshing_grantEpoch {p : RefreshPc}
    (h : (Pc.refreshing d e p).step ema sh ts a = some (sh', pc', new)) :
    sh'.grantEpoch = sh.grantEpoch := by
  rcases (Pc.step_change h).grantEpoch with he | ⟨hb, -⟩
  · exact he
  · cases hb

/-- A refresh engages with the current grant only by taking `apply_lock`. -/
theorem Pc.step_engaged (h : pc.step ema sh ts a = some (sh', pc', new))
    (hlocked : applyLockFree sh ts = false) (hholds : pc.holdsApplyLock = false)
    (hne : pc.engaged ≠ some sh.grantEpoch) : pc'.engaged ≠ some sh'.grantEpoch := by
  cases pc with
  | refreshing d e p =>
    rw [Pc.step_refreshing_grantEpoch h]
    obtain ⟨next, hst, rfl, -⟩ := Pc.step_refreshing h
    rw [hlocked] at hst
    cases next with
    | ok set => simp [RefreshNext.pc, Driver.onOk, Pc.engaged]
    | err err =>
      -- a refresh fails under the lock
      cases p <;> simp only [RefreshPc.step] at hst <;> (repeat' split at hst) <;> simp_all
    | «at» p' =>
      by_cases he : e = sh.grantEpoch
      · subst he
        have hp : p.engaged = false := by simpa [Pc.engaged] using hne
        have hp' : p'.engaged = false := by
          cases p <;> simp only [RefreshPc.step] at hst <;> (repeat' split at hst) <;>
            simp_all [RefreshPc.engaged]
          all_goals rw [← hst.2]
        simp [RefreshNext.pc, Pc.engaged, hp']
      · rw [RefreshNext.pc, Pc.engaged]
        split <;> simp [he]
  | applying d ap p =>
    obtain ⟨next, spawned, -, rfl, -⟩ := Pc.step_applying h
    cases next with
    | returned => simp [ApplyNext.pc]
    | «at» p' => simp [ApplyNext.pc, Pc.engaged]
  | followUp d e err =>
    simp only [Pc.step, hlocked] at h
    cases h
  | _ => simp [(Pc.step_outside h rfl).engaged]

/-- An operation that has replaced the grant did so in this step, or had before and held the lock. -/
theorem Pc.step_movedEpoch (h : pc.step ema sh ts a = some (sh', pc', new))
    (hpc' : pc'.movedEpoch = true) :
    sh'.grantEpoch = sh.grantEpoch + 1 ∨ pc.movedEpoch = true := by
  cases pc with
  | refreshing d e p =>
    obtain ⟨next, -, rfl, -⟩ := Pc.step_refreshing h
    cases next with
    | err failure => simp [RefreshNext.pc] at hpc'
    | _ => cases hpc'
  | applying d ap p =>
    obtain ⟨next, spawned, hst, rfl, -⟩ := Pc.step_applying h
    cases next with
    | returned => simp [ApplyNext.pc] at hpc'
    | «at» p' =>
      have hnone : ap.refreshEpoch = none := by
        cases p' <;> simp_all [ApplyNext.pc, Pc.movedEpoch]
      cases p with
      | lock =>
        left
        simp only [ApplyPc.step, hnone] at hst
        split at hst
        · cases hst
        · cases hst
          rfl
      | _ => right; simp [Pc.movedEpoch, hnone]
  | followUp d e err =>
    obtain ⟨-, -, rfl, -⟩ := Pc.step_followUp h
    simp at hpc'
  | disconnecting p =>
    obtain ⟨hst, -⟩ := Pc.step_disconnecting h
    cases p <;> simp only [DisconnectPc.step] at hst <;> (repeat' split at hst) <;>
      simp only [Option.some.injEq, Prod.mk.injEq, reduceCtorEq] at hst <;> obtain ⟨rfl, rfl⟩ := hst <;>
      simp_all [Pc.movedEpoch]
  | shuttingDown p => cases p <;> simp only [Pc.step, ShutdownPc.step] at h <;> cases h <;> cases hpc'
  | _ =>
    simp only [Pc.step] at h
    (repeat' split at h) <;>
      simp only [Option.some.injEq, Prod.mk.injEq, reduceCtorEq] at h <;> obtain ⟨-, rfl, -⟩ := h <;>
      cases hpc'

/-- What replaces the grant is not engaged in a refresh next. -/
theorem Pc.step_movedEpoch_engaged (h : pc.step ema sh ts a = some (sh', pc', new))
    (hpc : pc.movedEpoch = true) : pc'.engaged ≠ some sh'.grantEpoch := by
  cases pc with
  | applying d ap p =>
    obtain ⟨next, spawned, -, rfl, -⟩ := Pc.step_applying h
    cases next with
    | returned => simp [ApplyNext.pc]
    | «at» p' => simp [ApplyNext.pc, Pc.engaged]
  | disconnecting p => simp [(Pc.step_outside h rfl).engaged]
  | _ => cases hpc

/-- What a refresh commits under the lock belongs to the current grant. -/
def Pc.Anchored (sh : OAuthAdapterInner) : Pc → Prop
  | .refreshing _ e (.emaSave _) => e = sh.grantEpoch
  | .applying _ _ .lock => True
  | .applying _ ap _ => ∀ e, ap.refreshEpoch = some e → e = sh.grantEpoch
  | _ => True

theorem Pc.Anchored.of_eq (h : pc.Anchored sh)
    (he : pc.holdsApplyLock = true → sh'.grantEpoch = sh.grantEpoch) : pc.Anchored sh' := by
  cases pc with
  | refreshing d e p =>
    cases p with
    | emaSave set => exact Eq.trans h (he rfl).symm
    | _ => trivial
  | applying d ap p =>
    cases p with
    | lock => trivial
    | _ => exact fun e hre => (h e hre).trans (he rfl).symm
  | _ => trivial

theorem Pc.Entered.anchored (h : Pc.Entered ema sh pc) : pc.Anchored sh' := by
  cases h with
  | refresh => cases ema <;> trivial
  | application => trivial
  | outside h => cases pc <;> trivial

/-- A commit is preceded by a look at the epoch. -/
theorem Pc.step_anchored (h : pc.step ema sh ts a = some (sh', pc', new)) (hpc : pc.Anchored sh) :
    pc'.Anchored sh' := by
  cases pc with
  | refreshing d e p =>
    obtain ⟨next, hst, rfl, -⟩ := Pc.step_refreshing h
    cases next with
    | ok set => trivial
    | err failure => cases d <;> cases ema <;> trivial
    | «at» p' =>
      cases p' with
      | emaSave set =>
        -- only the epoch check of the EMA chain leads here
        cases p <;> simp only [RefreshPc.step] at hst <;> (repeat' split at hst) <;>
          simp only [Option.some.injEq, Prod.mk.injEq, reduceCtorEq, RefreshNext.at.injEq,
            and_false] at hst
        next heq =>
          obtain ⟨rfl, -⟩ := hst
          exact not_not.1 heq
      | _ => trivial
  | applying d ap p =>
    obtain ⟨next, spawned, hst, rfl, -⟩ := Pc.step_applying h
    cases next with
    | returned => cases d <;> trivial
    | «at» p' =>
      have hanchored : ∀ e, ap.refreshEpoch = some e → e = sh'.grantEpoch := by
        intro e hre
        cases p with
        | lock =>
          simp only [ApplyPc.step, hre] at hst
          (repeat' split at hst) <;> simp_all
        | _ =>
          rcases (Pc.step_change h).grantEpoch with he | ⟨hb, -⟩
          · exact (hpc e hre).trans he.symm
          · cases hb
      cases p' with
      | lock => trivial
      | _ => exact hanchored
  | followUp d e err =>
    obtain ⟨-, -, rfl, -⟩ := Pc.step_followUp h
    cases d <;> trivial
  | _ => exact (Pc.step_outside h rfl).anchored

section Runs

variable {ok : Pool.State OAuthAdapterInner Thread → Pool.Action Op Choice → Prop}
  {s : Pool.State OAuthAdapterInner Thread}

/-- A lock that is taken only when free is held by one thread at most. -/
theorem lock_exclusive (holds : Pc → Bool) (hdone : holds .done = false)
    (hlaunch : ∀ {sh ts t} {op : Op}, op.launch ema sh ts = some t → holds t.pc = false)
    (hspawn : holds .tick = false ∧ holds .sleep = false)
    (hstep : ∀ {sh ts a sh' pc pc' new}, Pc.step ema sh ts a pc = some (sh', pc', new) →
      holds pc' = true → holds pc = true ∨
        ∀ u ∈ ts, ¬ (Thread.aborted sh u = false ∧ holds u.pc = true))
    (h : (oauthPool ema).system.ReachableWhile ok s) :
    s.threads.Pairwise fun t u =>
      ¬ ((t.aborted s.shared = false ∧ holds t.pc = true) ∧
        (u.aborted s.shared = false ∧ holds u.pc = true)) := by
  refine Pool.exclusive (H := fun sh t => Thread.aborted sh t = false ∧ holds t.pc = true)
    ?_ ?_ ?_ ?_ h
  · intro sh ts op t ht hh
    have := hlaunch ht
    simp_all
  · intro sh ts t c sh' t' new hst hh
    obtain ⟨hab, ⟨-, rfl, -, -⟩ | ⟨a, pc', -, hpc, rfl⟩⟩ := Thread.step_cases hst
    · simp [hdone] at hh
    · rcases hstep hpc hh.2 with hold | hfree
      · exact .inl ⟨hab, hold⟩
      · exact .inr hfree
  · intro sh ts t c sh' t' new hst u hu hh
    rcases Thread.step_new hst u hu with hp | hp <;> simp_all
  · intro sh ts t c sh' t' new u hst hh
    exact ⟨(Thread.step_change hst).thread_aborted hh.1, hh.2⟩

/-- At most one thread holds `apply_lock`. -/
theorem applyLock_exclusive (h : (oauthPool ema).system.ReachableWhile ok s) :
    s.threads.Pairwise fun t u => ¬ (t.HoldsApplyLock s.shared ∧ u.HoldsApplyLock s.shared) := by
  refine lock_exclusive Pc.holdsApplyLock rfl Op.launch_holdsApplyLock ⟨rfl, rfl⟩ ?_ h
  intro sh ts a sh' pc pc' new hst hh
  rcases Pc.step_holdsApplyLock hst hh with hold | hfree
  · exact .inl hold
  · exact .inr (applyLockFree_iff.1 hfree)

/-- At most one thread holds `refresh_mutex`. -/
theorem refreshMutex_exclusive (h : (oauthPool ema).system.ReachableWhile ok s) :
    s.threads.Pairwise fun t u =>
      ¬ (t.HoldsRefreshMutex s.shared ∧ u.HoldsRefreshMutex s.shared) := by
  refine lock_exclusive Pc.holdsRefreshMutex rfl Op.launch_holdsRefreshMutex ⟨rfl, rfl⟩ ?_ h
  intro sh ts a sh' pc pc' new hst hh
  rcases Pc.step_holdsRefreshMutex hst hh with hold | hfree
  · exact .inl hold
  · exact .inr (refreshMutexFree_iff.1 hfree)

/-- The epoch does not move while another thread holds `apply_lock`. -/
theorem grantEpoch_of_holds {i j : Nat}
    (hx : s.threads.Pairwise fun t u => ¬ (t.HoldsApplyLock s.shared ∧ u.HoldsApplyLock s.shared))
    (hi : s.threads[i]? = some t) (hj : s.threads[j]? = some u) (hne : j ≠ i)
    (hu : u.HoldsApplyLock s.shared)
    (hst : t.step ema s.shared s.threads c = some (sh', t', new)) :
    sh'.grantEpoch = s.shared.grantEpoch := by
  rcases (Thread.step_change hst).grantEpoch with heq | ⟨hb, -⟩
  · exact heq
  · have hab := (Thread.step_cases hst).1
    obtain ⟨task, borrow, pc⟩ := t
    have hch := Thread.step_change hst
    cases hch with
    | newGrant hfree _ => exact absurd hu (applyLockFree_iff.1 hfree u (List.mem_of_getElem? hj))
    | bumping => exact absurd hu (Pool.not_holds_of_ne hx hi ⟨hab, rfl⟩ hj hne)
    | _ => simp_all [Pc.Bumps]

/-- No thread works with an epoch beyond the current one. -/
theorem epochs_le (h : (oauthPool ema).system.ReachableWhile ok s) :
    ∀ t ∈ s.threads, t.pc.EpochLe s.shared.grantEpoch := by
  refine Pool.forall_threads (L := fun sh t => Pc.EpochLe sh.grantEpoch t.pc) ?_ ?_ ?_ h
  · intro s op t _ ht
    obtain ⟨-, ⟨d, hp⟩ | hp | ⟨set, hp⟩ | hp | hp⟩ := Op.launch_cases ht <;> rw [hp] <;> trivial
  · intro sh ts t c sh' t' new hL hst
    have hle := (Thread.step_change hst).grantEpoch_le
    refine ⟨?_, fun u hu => ?_⟩
    · rcases (Thread.step_cases hst).2 with ⟨-, rfl, -, -⟩ | ⟨a, pc', -, hpc, rfl⟩
      · trivial
      · exact (Pc.step_epochLe hpc hL).mono hle
    · rcases Thread.step_new hst u hu with hp | hp <;> rw [hp] <;> trivial
  · intro sh ts t c sh' t' new u _ hL hst
    exact hL.mono (Thread.step_change hst).grantEpoch_le

/-- Who was engaged before the epoch moved is engaged with the grant before. -/
theorem Pc.engaged_of_bump (hle : pc.EpochLe sh.grantEpoch)
    (hbump : sh'.grantEpoch = sh.grantEpoch + 1) : pc.engaged ≠ some sh'.grantEpoch := by
  cases pc with
  | refreshing d e p =>
    simp only [Pc.EpochLe] at hle
    rw [Pc.engaged]
    split
    · simp only [ne_eq, Option.some.injEq]
      omega
    · simp
  | followUp d e err =>
    simp only [Pc.EpochLe] at hle
    simp only [Pc.engaged, ne_eq, Option.some.injEq]
    omega
  | _ => simp [Pc.engaged]

/-- **While the grant is being replaced**, from the move of the epoch until `apply_lock` is released,
no refresh is engaged with the new one. -/
theorem nobody_engaged (h : (oauthPool ema).system.ReachableWhile ok s) :
    (∃ w ∈ s.threads, w.aborted s.shared = false ∧ w.pc.movedEpoch = true) →
      ∀ u ∈ s.threads, u.pc.engaged ≠ some s.shared.grantEpoch := by
  refine Pool.invariant_of
    (J := fun s => (∃ w ∈ s.threads, Thread.aborted s.shared w = false ∧ w.pc.movedEpoch = true) →
      ∀ u ∈ s.threads, u.pc.engaged ≠ some s.shared.grantEpoch)
    (fun _ h => And.intro (applyLock_exclusive h) (epochs_le h)) ?_ ?_ ?_ h
  · intro sh _ _ u hu
    cases hu
  · intro s op t _ hJ _ ht ⟨w, hw, hab, hp⟩ u hu
    have hlaunched : t.pc.movedEpoch = false ∧ t.pc.engaged = none := by
      obtain ⟨-, ⟨d, hq⟩ | hq | ⟨set, hq⟩ | hq | hq⟩ := Op.launch_cases ht <;> rw [hq] <;>
        exact ⟨rfl, rfl⟩
    have hw' : w ∈ s.threads := by
      rcases List.mem_append.1 hw with hw | hw
      · exact hw
      · rw [List.mem_singleton.1 hw, hlaunched.1] at hp
        cases hp
    rcases List.mem_append.1 hu with hu | hu
    · exact hJ ⟨w, hw', hab, hp⟩ u hu
    · rw [List.mem_singleton.1 hu, hlaunched.2]
      simp
  · intro s i c t sh' t' new ⟨hx, hle⟩ hJ _ hi hst ⟨w, hw, hab, hp⟩
    have hch := Thread.step_change hst
    have hti := List.mem_of_getElem? hi
    have hnewnone : ∀ u ∈ new, u.pc.engaged ≠ some sh'.grantEpoch := by
      intro u hu
      rcases Thread.step_new hst u hu with hq | hq <;> rw [hq] <;> simp [Pc.engaged]
    by_cases hbump : sh'.grantEpoch = s.shared.grantEpoch + 1
    · refine Pool.forall_mem_stepped ?_ hnewnone fun j u _ hj =>
        Pc.engaged_of_bump (hle u (List.mem_of_getElem? hj)) hbump
      rcases (Thread.step_cases hst).2 with ⟨-, rfl, -, -⟩ | ⟨a, pc', -, hstep, rfl⟩
      · simp [Pc.engaged]
      · exact Pc.engaged_of_bump (Pc.step_epochLe hstep (hle t hti)) hbump
    · have hepoch : sh'.grantEpoch = s.shared.grantEpoch := by
        rcases hch.grantEpoch with he | ⟨-, he⟩
        · exact he
        · exact absurd he hbump
      -- the replacing thread had moved the epoch before this step
      have hold : ∃ (j : Nat) (w : Thread), s.threads[j]? = some w ∧ w.aborted s.shared = false ∧
          w.pc.movedEpoch = true := by
        rcases Pool.mem_stepped hw with rfl | hw | ⟨j, -, hj⟩
        · obtain ⟨htab, ⟨-, rfl, -, -⟩ | ⟨a, pc', -, hstep, rfl⟩⟩ := Thread.step_cases hst
          · cases hp
          · rcases Pc.step_movedEpoch hstep hp with hb | hp
            · exact absurd hb hbump
            · exact ⟨i, t, hi, htab, hp⟩
        · rcases Thread.step_new hst w hw with hq | hq <;> rw [hq] at hp <;> cases hp
        · exact ⟨j, w, hj, hch.thread_aborted hab, hp⟩
      obtain ⟨j, v, hj, hvab, hvp⟩ := hold
      have hnobody := hJ ⟨v, List.mem_of_getElem? hj, hvab, hvp⟩
      have hholds : v.HoldsApplyLock s.shared := ⟨hvab, Pc.holdsApplyLock_of_movedEpoch hvp⟩
      have hlocked : applyLockFree s.shared s.threads = false := by
        by_contra hfree
        exact applyLockFree_iff.1 (by simpa using hfree) v (List.mem_of_getElem? hj) hholds
      refine Pool.forall_mem_stepped ?_ hnewnone fun k u _ hk => ?_
      · obtain ⟨htab, ⟨-, rfl, -, -⟩ | ⟨a, pc', -, hstep, rfl⟩⟩ := Thread.step_cases hst
        · simp [Pc.engaged]
        · by_cases hji : j = i
          · subst hji
            cases hi.symm.trans hj
            exact Pc.step_movedEpoch_engaged hstep hvp
          · have hnot := Pool.not_holds_of_ne hx hj hholds hi (Ne.symm hji)
            refine Pc.step_engaged hstep hlocked ?_ (hnobody t hti)
            simpa [Thread.HoldsApplyLock, htab] using hnot
      · rw [hepoch]
        exact hnobody u (List.mem_of_getElem? hk)

/-- Threads that commit under the lock work for the current grant. -/
theorem threads_anchored (h : (oauthPool ema).system.ReachableWhile ok s) :
    ∀ t ∈ s.threads, t.aborted s.shared = false → t.pc.Anchored s.shared := by
  refine Pool.forall_threads_of (L := fun sh t => Thread.aborted sh t = false → Pc.Anchored sh t.pc)
    (fun _ h => applyLock_exclusive h) ?_ ?_ ?_ h
  · intro s op t _ ht _
    obtain ⟨-, ⟨d, hp⟩ | hp | ⟨set, hp⟩ | hp | hp⟩ := Op.launch_cases ht <;> rw [hp] <;> trivial
  · intro s i c t sh' t' new _ _ hi hL hst
    refine ⟨fun _ => ?_, fun u hu _ => ?_⟩
    · obtain ⟨hab, ⟨-, rfl, -, -⟩ | ⟨a, pc', rfl, hpc, rfl⟩⟩ := Thread.step_cases hst
      · trivial
      · exact Pc.step_anchored hpc (hL hab)
    · rcases Thread.step_new hst u hu with hp | hp <;> rw [hp] <;> trivial
  · intro s i c t sh' t' new j u hx _ hi hj hne _ hL hst hab
    have hab' := (Thread.step_change hst).thread_aborted hab
    exact (hL hab').of_eq fun hh => grantEpoch_of_holds hx hi hj hne ⟨hab', hh⟩ hst

end Runs

end EndaraRelay
