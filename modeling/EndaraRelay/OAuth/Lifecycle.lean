import EndaraRelay.OAuth.Interleaving

/-!
# The OAuth adapter: lifecycle transitions are legal

`do_transition` is called from a dozen places, most of them after awaits during which another thread
may have moved the lifecycle. What a thread may still request before it enters `Refreshing` again is
what it *owes*. The invariant is that the current state admits all that is owed (`owed_legal`): a
thread that enters `Refreshing` may go anywhere from there, and of the states others write only
`AuthRequired` and `Disconnected` can be in its way. `disconnect` is not, because it moves the epoch
first (`nobody_owes_after_bump`).

The rest is not excluded by the code. `undisturbed` names it: `shutdown` with an operation under way,
`AuthRequired` written while another operation may still fail otherwise or succeed, the unguarded
transitions of the startup, a refresh without refresh token while `Disconnected`, and the retry of
the proactive task of an EMA endpoint, which answers a required sign-in with `ConnectionFailed`
(`retry_leaves_authRequired`).
-/

namespace EndaraRelay

open Verif

variable {ema : Bool} {sh sh' : OAuthAdapterInner} {ts new : List Thread} {t t' u : Thread}
  {c : Choice} {a : Answer} {pc pc' : Pc}

/-- A transition that was requested is in the table. -/
def Event.Legal : Event → Prop
  | .transition old new => old.legal new
  | _ => True

instance : (ev : Event) → Decidable ev.Legal
  | .transition old new => instDecidableEqBool (old.legal new) true
  | .refreshed _ _ _ | .installed | .armed | .posted _ _ | .rotated _ _ => .isTrue trivial

/-! ## What a thread owes -/

def RefreshPc.owes : RefreshPc → List OAuthState
  | .post _ => [.authRequired, .connectionFailed]
  | .rediscover _ | .repost _ => [.authRequired]
  | .failing err => [err.target]
  | .emaFastPath | .emaMutex | .emaRecheck | .emaChain | .emaGuard _ | .emaSave _ =>
    [.authRequired, .connectionFailed]
  | .emaFailing err => [err.target]
  | .preToken | .refreshMutex _ | .compare _ | .inputs | .starting _ | .emaStarting => []

def ApplyPc.owes : ApplyPc → List OAuthState
  | .saving | .aborting | .rebuild => [.authenticated, .connectionFailed]
  | .publishing | .authenticated => [.authenticated]
  | .clearing | .connectionFailed => [.connectionFailed]
  | .lock | .entering | .remembering | .arming | .storing _ => []

/-- The transitions a thread may request before it enters `Refreshing` again. A refresh of a grant
that is gone requests none. -/
def Pc.owes (sh : OAuthAdapterInner) : Pc → List OAuthState
  | .refreshing _ e p => if e = sh.grantEpoch then p.owes else []
  | .followUp d e err => if e = sh.grantEpoch then [d.failureState err] else []
  | .applying _ _ p => p.owes
  | _ => []

def Thread.owes (sh : OAuthAdapterInner) (t : Thread) : List OAuthState :=
  if t.aborted sh then [] else t.pc.owes sh

/-! ## Undisturbed runs -/

/-- Whether the step writes `AuthRequired`. -/
def Pc.writesAuthRequired (sh : OAuthAdapterInner) : Pc → Bool
  | .expired => true
  | .refreshing _ e (.failing err) => e == sh.grantEpoch && err.target == .authRequired
  | .refreshing _ e (.emaFailing err) => e == sh.grantEpoch && err.target == .authRequired
  | .followUp d e err => e == sh.grantEpoch && d.failureState err == .authRequired
  | .verdict generation => sh.state == .authenticated && sh.lifecycleGeneration == generation
  | _ => false

/-- The step does not take from under another thread what that one owes: `shutdown` ends when nobody
owes anything, and `AuthRequired` is written when nobody owes anything else. -/
def Pc.leaves (sh : OAuthAdapterInner) (pc : Pc) (owed : List OAuthState) : Bool :=
  if pc = .shuttingDown .settling then owed.isEmpty
  else if pc.writesAuthRequired sh then owed.all (· == .authRequired)
  else true

/-- The step of a thread finds the lifecycle where it takes it to be: the startup finds it untouched,
or at least not `Disconnected`; a refresh without refresh token does not find it `Disconnected`; and
the EMA retry of a proactive task is not told to sign in. -/
def Pc.admissible (sh : OAuthAdapterInner) : Pc → Bool
  | .missing => sh.state == .needsLogin || sh.state == .disconnected
  | .expired => sh.state != .disconnected
  | .refreshing _ e .inputs =>
    e != sh.grantEpoch || sh.refreshToken.isSome || sh.state != .disconnected
  | .refreshing .proactiveRetry e (.emaFailing err) =>
    e != sh.grantEpoch || err.target != .authRequired
  | _ => true

def undisturbed (s : Pool.State OAuthAdapterInner Thread) : Pool.Action Op Choice → Bool
  | .run i (.resume _) =>
    match pcAt s i with
    | none => true
    | some pc => pc.admissible s.shared &&
        (s.threads.eraseIdx i).all fun u => pc.leaves s.shared (u.owes s.shared)
  | _ => true

/-! ## What is owed, and what a step changes about it -/

theorem OAuthError.target_cases (err : OAuthError) :
    err.target = .authRequired ∨ err.target = .connectionFailed := by
  cases err <;> simp [OAuthError.target]

theorem EmaError.target_cases (err : EmaError) :
    err.target = .authRequired ∨ err.target = .connectionFailed := by
  cases err <;> simp [EmaError.target]

/-- Where both failures are admitted, that of the EMA chain is. -/
theorem EmaError.legal_target {old : OAuthState} (hdisc : old ≠ .disconnected)
    (hfailed : old.legal .connectionFailed) (err : EmaError) : old.legal err.target := by
  rcases err.target_cases with h | h <;> rw [h]
  · exact OAuthState.legal_authRequired.2 hdisc
  · exact hfailed

/-- From every state but two, whatever a thread may owe is admitted. -/
theorem OAuthState.legal_of_ne {old x : OAuthState} (hx : x = .authRequired ∨ x = .connectionFailed ∨
    x = .authenticated) (hauth : old ≠ .authRequired) (hdisc : old ≠ .disconnected) :
    old.legal x := by
  rcases hx with rfl | rfl | rfl
  · exact OAuthState.legal_authRequired.2 hdisc
  · exact OAuthState.legal_connectionFailed.2 ⟨hauth, hdisc⟩
  · exact OAuthState.legal_authenticated.2 ⟨hauth, hdisc⟩

/-- The grant epoch of a thread does not catch up with the current one, so a step of another thread
never adds to what a thread owes. -/
theorem Thread.owes_subset (hch : Change sh ts pc sh') (hle : u.pc.EpochLe sh.grantEpoch) :
    ∀ x ∈ u.owes sh', x ∈ u.owes sh := by
  intro x hx
  unfold Thread.owes at hx ⊢
  split at hx
  · cases hx
  · next hab =>
    rw [hch.thread_aborted (by simpa using hab), if_neg Bool.false_ne_true]
    have hepoch := hch.grantEpoch
    generalize u.pc = p at hx hle ⊢
    cases p with
    | refreshing d e p =>
      simp only [Pc.owes, Pc.EpochLe] at hx hle ⊢
      split at hx
      · rwa [if_pos (by omega)]
      · cases hx
    | followUp d e err =>
      simp only [Pc.owes, Pc.EpochLe] at hx hle ⊢
      split at hx
      · rwa [if_pos (by omega)]
      · cases hx
    | _ => exact hx

theorem Thread.owes_eq (h : t.aborted sh = false) : t.owes sh = t.pc.owes sh := by
  rw [Thread.owes, h, if_neg Bool.false_ne_true]

variable {d : Driver} {e : Nat} {x : OAuthState} {p : RefreshPc}

theorem Driver.onErr_owes_stale (err : OAuthError) (h : e ≠ sh.grantEpoch) :
    (d.onErr ema e err).owes sh = [] := by
  cases d <;> cases ema <;> simp [Driver.onErr, Driver.returned, Pc.owes, h]

@[simp] theorem Driver.returned_owes (d : Driver) : d.returned.owes sh = [] := by
  cases d <;> rfl

theorem RefreshPc.owes_cases (h : x ∈ p.owes) : x = .authRequired ∨ x = .connectionFailed := by
  cases p with
  | failing err =>
    rw [List.mem_singleton.1 h]
    exact err.target_cases
  | emaFailing err =>
    rw [List.mem_singleton.1 h]
    exact err.target_cases
  | _ => simp_all [RefreshPc.owes]

theorem Driver.failureState_cases (d : Driver) (err : OAuthError) :
    d.failureState err = .authRequired ∨ d.failureState err = .connectionFailed := by
  cases d with
  | proactiveRetry => exact err.target_cases
  | _ => exact .inl rfl

/-- Only failures and the success of an application are owed. -/
theorem Pc.owes_cases (h : x ∈ pc.owes sh) :
    x = .authRequired ∨ x = .connectionFailed ∨ x = .authenticated := by
  cases pc with
  | refreshing d e p =>
    simp only [Pc.owes] at h
    split at h
    · rcases RefreshPc.owes_cases h with hx | hx <;> simp [hx]
    · cases h
  | followUp d e err =>
    simp only [Pc.owes] at h
    split at h
    · rw [List.mem_singleton.1 h]
      rcases d.failureState_cases err with hx | hx <;> simp [hx]
    · cases h
  | applying d ap p => cases p <;> simp_all [Pc.owes, ApplyPc.owes, or_comm]
  | _ => cases h

theorem Change.state (h : Change sh ts pc sh') :
    sh'.state = sh.state ∨ (sh'.state ≠ .authRequired ∧ sh'.state ≠ .disconnected) ∨
      (sh'.state = .authRequired ∧ pc.writesAuthRequired sh = true) ∨
      sh'.state = .disconnected ∧ (pc = .disconnecting .settling ∨ pc = .shuttingDown .settling) := by
  have hfail : ∀ {e : Nat} {target : OAuthState}, target = .authRequired ∨ target = .connectionFailed →
      (pc.writesAuthRequired sh = (e == sh.grantEpoch && target == .authRequired)) →
      (sh.failIfCurrent e target).state = sh.state ∨
        ((sh.failIfCurrent e target).state ≠ .authRequired ∧
          (sh.failIfCurrent e target).state ≠ .disconnected) ∨
        ((sh.failIfCurrent e target).state = .authRequired ∧ pc.writesAuthRequired sh = true) ∨
        (sh.failIfCurrent e target).state = .disconnected ∧
          (pc = .disconnecting .settling ∨ pc = .shuttingDown .settling) := by
    intro e target htarget hwrites
    unfold OAuthAdapterInner.failIfCurrent
    split
    · next he =>
      rcases htarget with rfl | rfl
      · exact .inr (.inr (.inl ⟨rfl, by simp [hwrites, he]⟩))
      · exact .inr (.inl (by simp))
    · exact .inl rfl
  cases h with
  | failing => exact hfail (OAuthError.target_cases _) rfl
  | emaFailing => exact hfail (EmaError.target_cases _) rfl
  | followUp => exact hfail (Driver.failureState_cases _ _) rfl
  | starting =>
    unfold OAuthAdapterInner.transitionIfCurrent
    split <;> simp
  | emaStarting =>
    unfold OAuthAdapterInner.transitionIfCurrent
    split <;> simp
  | verdict hcurrent => exact .inr (.inr (.inl ⟨rfl, by simp [Pc.writesAuthRequired, hcurrent]⟩))
  | expired => exact .inr (.inr (.inl ⟨rfl, rfl⟩))
  | disconnected => exact .inr (.inr (.inr ⟨rfl, .inl rfl⟩))
  | shutdownSettling => exact .inr (.inr (.inr ⟨rfl, .inr rfl⟩))
  | _ => simp

/-! ## A step of its own -/

/-- A refresh enters `Refreshing` before it owes anything, and keeps to what it owes. -/
theorem RefreshPc.step_owes {p p' : RefreshPc} {m f : Bool} (h : p.step sh m f e a = some (sh', .at p'))
    (he : e = sh.grantEpoch) (howes : ∀ x ∈ p.owes, sh.state.legal x)
    (hinputs : p = .inputs → sh.refreshToken.isSome ∨ sh.state ≠ .disconnected) :
    ∀ x ∈ p'.owes, sh'.state.legal x := by
  cases p <;> simp only [RefreshPc.step] at h <;> (repeat' split at h) <;>
    simp only [Option.some.injEq, Prod.mk.injEq, reduceCtorEq, RefreshNext.at.injEq, and_false] at h <;>
    obtain ⟨rfl, rfl⟩ := h <;>
    simp_all [RefreshPc.owes, OAuthAdapterInner.transitionIfCurrent, OAuthState.legal_of_ne,
      OAuthError.target, OAuthState.legal_authRequired, EmaError.legal_target]

/-- An application enters `Refreshing` before it owes anything, and keeps to what it owes. -/
theorem ApplyPc.step_owes {p p' : ApplyPc} {f spawned : Bool} {fresh : Nat} {ap : Apply}
    (h : p.step ema sh f fresh ap a = some (sh', .at p', spawned))
    (howes : ∀ x ∈ p.owes, sh.state.legal x) : ∀ x ∈ p'.owes, sh'.state.legal x := by
  cases p <;> simp only [ApplyPc.step] at h <;> (repeat' split at h) <;>
    simp only [Option.some.injEq, Prod.mk.injEq, reduceCtorEq, ApplyNext.at.injEq, and_false,
      false_and] at h <;>
    obtain ⟨rfl, rfl, -⟩ := h <;>
    simp_all [ApplyPc.owes, OAuthState.legal_of_ne]

/-- After a failure the `Err` arm of the driver asks for no more than the state admits. -/
theorem RefreshPc.step_err_owes {m f : Bool} {err : OAuthError}
    (h : p.step sh m f e a = some (sh', .err err)) (hadm : (Pc.refreshing d e p).admissible sh = true) :
    ∀ x ∈ (d.onErr ema e err).owes sh', sh'.state.legal x := by
  intro x hx
  by_cases he : e = sh.grantEpoch
  · have howed : x = d.failureState err := by
      cases d <;> cases ema <;> simp_all [Driver.onErr, Driver.returned, Pc.owes]
    subst howed
    cases p with
    | failing err' =>
      simp only [RefreshPc.step] at h
      split at h <;> cases h
      rw [OAuthAdapterInner.failIfCurrent, if_pos he.symm]
      show err.target.legal _
      cases d <;> cases err <;> rfl
    | emaFailing err' =>
      simp only [RefreshPc.step] at h
      split at h <;> cases h
      rw [OAuthAdapterInner.failIfCurrent, if_pos he.symm]
      show err'.target.legal _
      by_cases hd : d = .proactiveRetry
      · subst hd
        have htarget : err'.target ≠ .authRequired := by
          simpa [Pc.admissible, he] using hadm
        rcases err'.target_cases with ht | ht
        · exact absurd ht htarget
        · rw [ht]
          rfl
      · have hauth : d.failureState .ema = .authRequired := by
          cases d <;> first | rfl | exact absurd rfl hd
        rw [hauth]
        cases err' <;> rfl
    | _ =>
      simp only [RefreshPc.step] at h
      (repeat' split at h) <;> simp_all
  · rw [Driver.onErr_owes_stale err] at hx
    · cases hx
    · intro he'
      apply he
      rw [he']
      cases p <;> simp only [RefreshPc.step] at h <;> (repeat' split at h) <;>
        simp only [Option.some.injEq, Prod.mk.injEq, reduceCtorEq, and_false] at h <;>
        obtain ⟨rfl, -⟩ := h <;> simp

theorem Pc.Entered.owes (h : Pc.Entered ema sh pc) : pc.owes sh' = [] := by
  cases h with
  | refresh => cases ema <;> simp [Pc.owes, RefreshPc.owes]
  | application => rfl
  | outside h => cases pc <;> first | rfl | cases h

/-- **What a thread owes after its step is admitted.** -/
theorem Pc.step_owes (h : pc.step ema sh ts a = some (sh', pc', new))
    (howes : ∀ x ∈ pc.owes sh, sh.state.legal x) (hadm : pc.admissible sh = true) :
    ∀ x ∈ pc'.owes sh', sh'.state.legal x := by
  cases pc with
  | refreshing d e p =>
    obtain ⟨next, hst, rfl, -⟩ := Pc.step_refreshing h
    cases next with
    | ok set => exact List.forall_mem_nil _
    | err err => exact RefreshPc.step_err_owes hst hadm
    | «at» p' =>
      have hepoch : sh'.grantEpoch = sh.grantEpoch := by
        rcases (Pc.step_change h).grantEpoch with hepoch | ⟨hb, -⟩
        · exact hepoch
        · cases hb
      intro x hx
      simp only [RefreshNext.pc, Pc.owes, hepoch] at hx
      split at hx
      · next he =>
        refine RefreshPc.step_owes hst he (fun y hy => howes y ?_) (fun hp => ?_) x hx
        · rw [Pc.owes, if_pos he]
          exact hy
        · subst hp
          simpa [Pc.admissible, he] using hadm
      · cases hx
  | applying d ap p =>
    obtain ⟨next, spawned, hst, rfl, -⟩ := Pc.step_applying h
    cases next with
    | returned => simp [ApplyNext.pc]
    | «at» p' => exact ApplyPc.step_owes hst howes
  | followUp d e err =>
    obtain ⟨-, -, rfl, -⟩ := Pc.step_followUp h
    simp
  | _ => simp [(Pc.step_outside h rfl).owes]

/-! ## Disconnecting -/

/-- Who owes something is engaged with the current grant, or applies a token set under the lock. -/
theorem Pc.engaged_of_owes (h : x ∈ pc.owes sh) :
    pc.engaged = some sh.grantEpoch ∨ pc.holdsApplyLock = true := by
  cases pc with
  | refreshing d e p =>
    simp only [Pc.owes] at h
    split at h
    · next he =>
      left
      cases p <;> simp_all [RefreshPc.owes, Pc.engaged, RefreshPc.engaged]
    · cases h
  | followUp d e err =>
    simp only [Pc.owes] at h
    split at h
    · next he => exact .inl (congrArg some he)
    · cases h
  | applying d ap p =>
    right
    cases p <;> simp_all [Pc.owes, ApplyPc.owes, Pc.holdsApplyLock, ApplyPc.holdsApplyLock]
  | _ => cases h

theorem owes_of_new (hnew : ∀ u ∈ new, u.pc = .tick ∨ u.pc = .sleep) :
    ∀ u ∈ new, u.owes sh = [] := by
  intro u hu
  unfold Thread.owes
  rcases hnew u hu with hp | hp <;> rw [hp] <;> split <;> rfl

section Runs

variable {ok : Pool.State OAuthAdapterInner Thread → Pool.Action Op Choice → Prop}
  {s : Pool.State OAuthAdapterInner Thread}

theorem Op.launch_owes {op : Op} (h : op.launch ema sh ts = some t) : t.owes sh' = [] := by
  unfold Thread.owes
  obtain ⟨-, ⟨d, hp⟩ | hp | ⟨set, hp⟩ | hp | hp⟩ := Op.launch_cases h <;> rw [hp] <;> split <;> rfl

/-- Once a disconnect has moved the epoch, nobody owes a transition until it is over. -/
theorem nobody_owes_after_bump (h : (oauthPool ema).system.ReachableWhile ok s) {i : Nat}
    (hi : s.threads[i]? = some t) (hab : t.aborted s.shared = false)
    (hp : t.pc = .disconnecting .settling) : ∀ u ∈ s.threads, u.owes s.shared = [] := by
  intro u hu
  refine List.eq_nil_iff_forall_not_mem.2 fun x hx => ?_
  unfold Thread.owes at hx
  split at hx
  · cases hx
  · next huab =>
    rcases Pc.engaged_of_owes hx with he | hholds
    · exact nobody_engaged h ⟨t, List.mem_of_getElem? hi, hab, by rw [hp]; rfl⟩ u hu he
    · obtain ⟨j, hj⟩ := List.mem_iff_getElem?.1 hu
      by_cases hji : j = i
      · subst hji
        cases hi.symm.trans hj
        rw [hp] at hx
        cases hx
      · exact Pool.not_holds_of_ne (applyLock_exclusive h) hi ⟨hab, by rw [hp]; rfl⟩ hj hji
          ⟨by simpa using huab, hholds⟩

/-- What another thread owes is admitted after an undisturbed step. -/
theorem legal_of_leaves (hch : Change sh ts pc sh') (hleaves : pc.leaves sh (u.owes sh) = true)
    (hdisc : pc = .disconnecting .settling → u.owes sh = []) (hx : x ∈ u.owes sh)
    (hlegal : sh.state.legal x) : sh'.state.legal x := by
  have hcases : x = .authRequired ∨ x = .connectionFailed ∨ x = .authenticated := by
    unfold Thread.owes at hx
    split at hx
    · cases hx
    · exact Pc.owes_cases hx
  rcases hch.state with hsame | ⟨hauth, hdisc'⟩ | ⟨hauth, hwrites⟩ | ⟨-, hpc | hpc⟩
  · rw [hsame]
    exact hlegal
  · exact OAuthState.legal_of_ne hcases hauth hdisc'
  · have hne : pc ≠ .shuttingDown .settling := by
      rintro rfl
      cases hwrites
    rw [Pc.leaves, if_neg hne, if_pos hwrites] at hleaves
    have hxa : x = .authRequired := by simpa using List.all_eq_true.1 hleaves x hx
    rw [hauth, hxa]
    rfl
  · rw [hdisc hpc] at hx
    cases hx
  · rw [Pc.leaves, if_pos hpc] at hleaves
    rw [List.isEmpty_iff.1 hleaves] at hx
    cases hx

/-- **The current state admits what is owed.** -/
theorem owed_legal
    (h : (oauthPool ema).system.ReachableWhile (fun s a => undisturbed s a = true) s) :
    ∀ u ∈ s.threads, ∀ x ∈ u.owes s.shared, s.shared.state.legal x := by
  refine Pool.invariant_of
    (J := fun s => ∀ u ∈ s.threads, ∀ x ∈ Thread.owes s.shared u, s.shared.state.legal x)
    (fun _ h => And.intro (epochs_le h) h) ?_ ?_ ?_ h
  · intro sh _ u hu
    cases hu
  · intro s op t _ hJ _ ht u hu x hx
    rcases List.mem_append.1 hu with hu | hu
    · exact hJ u hu x hx
    · rw [List.mem_singleton.1 hu, Op.launch_owes ht] at hx
      cases hx
  · intro s i c t sh' t' new ⟨hle, hreach⟩ hJ hok hi hst
    have hch := Thread.step_change hst
    have hti := List.mem_of_getElem? hi
    have hnewnil : ∀ u ∈ new, u.owes sh' = [] := owes_of_new (Thread.step_new hst)
    obtain ⟨hab, ⟨rfl, rfl, -, -⟩ | ⟨a, pc', rfl, hstep, rfl⟩⟩ := Thread.step_cases hst
    · refine Pool.forall_mem_stepped ?_ ?_ fun j u _ hj => hJ u (List.mem_of_getElem? hj)
      · intro x hx
        unfold Thread.owes at hx
        split at hx <;> cases hx
      · intro u hu x hx
        rw [hnewnil u hu] at hx
        cases hx
    · simp only [undisturbed, pcAt, hi, Option.map_some, Bool.and_eq_true, List.all_eq_true] at hok
      obtain ⟨hadm, hleaves⟩ := hok
      refine Pool.forall_mem_stepped ?_ ?_ ?_
      · intro x hx
        unfold Thread.owes at hx
        split at hx
        · cases hx
        · refine Pc.step_owes hstep (fun y hy => hJ t hti y ?_) hadm x hx
          rw [Thread.owes_eq hab]
          exact hy
      · intro u hu x hx
        rw [hnewnil u hu] at hx
        cases hx
      · intro j u hne hj x hx
        have hu := List.mem_of_getElem? hj
        have hx' := Thread.owes_subset hch (hle u hu) x hx
        refine legal_of_leaves hch (hleaves u (List.mem_eraseIdx_iff_getElem?.2 ⟨j, hne, hj⟩))
          (fun hpc => nobody_owes_after_bump hreach hi hab hpc u hu) hx' (hJ u hu x hx')

/-- Every transition a step requests is in the table. -/
theorem Change.legal (hch : Change sh ts pc sh') (howes : ∀ x ∈ pc.owes sh, sh.state.legal x)
    (hadm : pc.admissible sh = true) (hlog : ∀ ev ∈ sh.log, ev.Legal) : ∀ ev ∈ sh'.log, ev.Legal := by
  have hfail : ∀ {e : Nat} {target : OAuthState},
      (e = sh.grantEpoch → sh.state.legal target) → ∀ ev ∈ (sh.failIfCurrent e target).log, ev.Legal := by
    intro e target htarget
    unfold OAuthAdapterInner.failIfCurrent
    split
    · next he =>
      exact List.forall_mem_cons.2 ⟨trivial, List.forall_mem_cons.2 ⟨htarget he.symm, hlog⟩⟩
    · exact hlog
  have henter : ∀ {e : Nat}, ∀ ev ∈ (sh.transitionIfCurrent e .refreshing).log, ev.Legal := by
    intro e
    unfold OAuthAdapterInner.transitionIfCurrent
    split
    · exact List.forall_mem_cons.2 ⟨OAuthState.legal_refreshing _, hlog⟩
    · exact hlog
  cases hch with
  | failing => exact hfail fun he => howes _ (by simp [Pc.owes, RefreshPc.owes, he])
  | emaFailing => exact hfail fun he => howes _ (by simp [Pc.owes, RefreshPc.owes, he])
  | followUp => exact hfail fun he => howes _ (by simp [Pc.owes, he])
  | starting => exact henter
  | emaStarting => exact henter
  | entering => exact List.forall_mem_cons.2 ⟨OAuthState.legal_refreshing _, hlog⟩
  | authenticated => exact List.forall_mem_cons.2 ⟨howes _ (by simp [Pc.owes, ApplyPc.owes]), hlog⟩
  | connectionFailed => exact List.forall_mem_cons.2 ⟨howes _ (by simp [Pc.owes, ApplyPc.owes]), hlog⟩
  | disconnected => exact List.forall_mem_cons.2 ⟨OAuthState.legal_disconnected _, hlog⟩
  | shutdownSettling => exact List.forall_mem_cons.2 ⟨OAuthState.legal_disconnected _, hlog⟩
  | expired =>
    refine List.forall_mem_cons.2 ⟨OAuthState.legal_authRequired.2 ?_, hlog⟩
    simpa [Pc.admissible] using hadm
  | missing =>
    refine List.forall_mem_cons.2 ⟨OAuthState.legal_needsLogin.2 ?_, hlog⟩
    simpa [Pc.admissible] using hadm
  | exchanged =>
    refine List.forall_mem_append.2 ⟨?_, List.forall_mem_cons.2 ⟨trivial, hlog⟩⟩
    split
    · exact List.forall_mem_singleton.2 trivial
    · exact List.forall_mem_nil _
  | emaSave => exact List.forall_mem_cons.2 ⟨trivial, hlog⟩
  | rejected => exact List.forall_mem_cons.2 ⟨trivial, hlog⟩
  | publishing => exact List.forall_mem_cons.2 ⟨trivial, hlog⟩
  | arming => exact List.forall_mem_cons.2 ⟨trivial, hlog⟩
  | saving => exact List.forall_mem_append.2 ⟨by simp [Apply.effect, Event.Legal], hlog⟩
  | remembering => exact List.forall_mem_append.2 ⟨by simp [Apply.effect, Event.Legal], hlog⟩
  | _ => exact hlog

/-- **Every lifecycle transition is legal**, in every undisturbed run. -/
theorem transitions_legal
    (h : (oauthPool ema).system.ReachableWhile (fun s a => undisturbed s a = true) s) :
    ∀ ev ∈ s.shared.log, ev.Legal := by
  refine Pool.invariant_of (J := fun s => ∀ ev ∈ s.shared.log, ev.Legal)
    (fun _ h => owed_legal h) ?_ ?_ ?_ h
  · intro sh hsh
    obtain ⟨disk, rfl⟩ := hsh
    exact List.forall_mem_nil _
  · intro s op t _ hJ _ _
    exact hJ
  · intro s i c t sh' t' new hI hJ hok hi hst
    obtain ⟨hab, ⟨rfl, -, -, -⟩ | ⟨a, pc', rfl, hstep, -⟩⟩ := Thread.step_cases hst
    · exact hJ
    · simp only [undisturbed, pcAt, hi, Option.map_some, Bool.and_eq_true] at hok
      refine (Pc.step_change hstep).legal (fun x hx => hI t (List.mem_of_getElem? hi) x ?_) hok.1 hJ
      rw [Thread.owes_eq hab]
      exact hx

end Runs

/-- The EMA chain of thread `i`, past a stored token that has expired, fails. -/
def chainFails (i : Nat) (err : EmaError) : List (Pool.Action Op Choice) :=
  [.run i (.resume .fail), .run i (.resume .proceed), .run i (.resume .fail),
    .run i (.resume (.chain (.error err)))]

/-- The proactive refresh of an EMA endpoint fails on the network, and its retry is told that the user
has to sign in. -/
def signInAtRetry : List (Pool.Action Op Choice) :=
  .launch .initializeAdapter :: proceeds 15 0 ++ proceeds 4 1 ++ chainFails 1 .transport ++
    proceeds 5 1 ++ chainFails 1 .reauthRequired ++ proceeds 2 1

def afterRetry : Pool.State OAuthAdapterInner Thread :=
  ((oauthPool true).system.run ⟨.new (some firstTokens), []⟩ signInAtRetry).getD ⟨.new none, []⟩

/-- The retry goes from `AuthRequired` to `ConnectionFailed`. -/
theorem retry_leaves_authRequired :
    (oauthPool true).system.Reachable afterRetry ∧ ¬ ∀ ev ∈ afterRetry.shared.log, ev.Legal := by
  have hrun : (oauthPool true).system.run ⟨.new (some firstTokens), []⟩ signInAtRetry =
      some afterRetry := rfl
  refine ⟨(System.Reachable.init (oauthPool_init true _)).run hrun, fun h => ?_⟩
  exact absurd (h (.transition .authRequired .connectionFailed) (by decide)) (by decide)

/-- A login, a proactive refresh that fails on the network, and a shutdown while its retry waits. -/
def failsAndStops : List (Pool.Action Op Choice) :=
  login ++ proceeds 8 1 ++ .run 1 (.resume (.post .network)) :: proceeds 1 1 ++
    .launch .shutdown :: proceeds 4 2

def stopped : Pool.State OAuthAdapterInner Thread :=
  ((oauthPool false).system.runWhile undisturbed ⟨.new none, []⟩ failsAndStops).getD
    ⟨.new none, []⟩

theorem stopped_legal :
    .transition .connectionFailed .disconnected ∈ stopped.shared.log ∧
      ∀ ev ∈ stopped.shared.log, ev.Legal := by
  have hrun : (oauthPool false).system.runWhile undisturbed ⟨.new none, []⟩ failsAndStops =
      some stopped := rfl
  exact ⟨by decide, transitions_legal
    ((System.ReachableWhile.init (oauthPool_init false none)).run (fun _ _ h => h) hrun)⟩

end EndaraRelay
