import EndaraRelay.OAuth.Interleaving

/-!
# The OAuth adapter: refreshes stay within their grant

A refresh runs against the grant of the epoch it started with. Its effects are the refreshed set on
disk and in memory, and the lifecycle transition when it fails. All of them happen under `apply_lock`
after a look at the epoch, which is written under the same lock, so none touches a later grant
(`refresh_effects_in_force`).

One driver is outside the protocol. The startup of an EMA endpoint acquires its token set through a
refresh and applies it as a NEW grant, which asks for no epoch: a disconnect or a login that lands in
between is overwritten (`acquisition_outlives_its_grant`). Its commit is the one step the guard
`acquisitionInForce` is about.
-/

namespace EndaraRelay

open Verif

variable {ema : Bool} {sh sh' : OAuthAdapterInner} {ts new : List Thread} {t t' u : Thread}
  {c : Choice} {a : Answer} {pc pc' : Pc}

/-- The refresh started with the epoch that is current at its effect. -/
def Event.InForce : Event → Prop
  | .refreshed _ started current => started = current
  | _ => True

instance : (ev : Event) → Decidable ev.InForce
  | .refreshed _ started current => instDecidableEqNat started current
  | .transition _ _ | .installed | .armed | .posted _ _ | .rotated _ _ => .isTrue trivial

/-- A token set obtained by a refresh is not committed as a new grant when the grant the refresh
started with is gone. -/
def acquisitionInForce (s : Pool.State OAuthAdapterInner Thread) : Pool.Action Op Choice → Bool
  | .run i (.resume _) =>
    match pcAt s i with
    | some (.applying _ ap .lock) =>
      ap.refreshEpoch.isSome || ap.startedAt.all (· == s.shared.grantEpoch)
    | _ => true
  | _ => true

/-! ## The invariant -/

/-- The token set an application writes belongs to the grant in force; a new grant is the one after
that of its acquisition. -/
def Apply.InForce (sh : OAuthAdapterInner) (ap : Apply) : Prop :=
  ∀ started, ap.startedAt = some started → started = ap.current sh

/-- Past its look at the epoch, a thread works for the grant in force. -/
def Pc.InForce (sh : OAuthAdapterInner) : Pc → Prop
  | .refreshing _ e (.emaSave _) => e = sh.grantEpoch
  | .applying _ ap .lock => ∀ e, ap.refreshEpoch = some e → ap.startedAt = some e
  | .applying _ ap _ => ap.InForce sh
  | _ => True

theorem Apply.InForce.of_eq {ap : Apply} (h : ap.InForce sh)
    (he : sh'.grantEpoch = sh.grantEpoch) : ap.InForce sh' := by
  unfold Apply.InForce Apply.current at h ⊢
  rw [he]
  exact h

/-- Only a holder of `apply_lock` depends on the epoch. -/
theorem Pc.InForce.of_eq (h : pc.InForce sh)
    (he : pc.holdsApplyLock = true → sh'.grantEpoch = sh.grantEpoch) : pc.InForce sh' := by
  cases pc with
  | refreshing d e p =>
    cases p with
    | emaSave set => exact Eq.trans h (he rfl).symm
    | _ => trivial
  | applying d ap p =>
    cases p with
    | lock => exact h
    | _ => exact Apply.InForce.of_eq h (he rfl)
  | _ => trivial

theorem Driver.returned_inForce (d : Driver) : d.returned.InForce sh := by
  cases d <;> trivial

theorem Driver.onErr_inForce (d : Driver) (e : Nat) (err : OAuthError) :
    (d.onErr ema e err).InForce sh := by
  cases d <;> cases ema <;> trivial

theorem Driver.onOk_inForce (d : Driver) (e : Nat) (set : TokenSet) :
    (d.onOk ema e set).InForce sh := by
  intro e' he'
  dsimp only at he' ⊢
  split at he'
  · cases he'
  · exact he'

theorem Pc.Entered.inForce (h : Pc.Entered ema sh pc) : pc.InForce sh' := by
  cases h with
  | refresh => cases ema <;> trivial
  | application => rintro _ ⟨⟩
  | outside h => cases pc <;> trivial

/-- The commit of an application looks at the epoch. -/
theorem ApplyPc.lock_inForce {applyFree spawned : Bool} {fresh : Nat} {ap : Apply} {next : ApplyNext}
    (h : ApplyPc.lock.step ema sh applyFree fresh ap a = some (sh', next, spawned))
    (hap : ∀ e, ap.refreshEpoch = some e → ap.startedAt = some e)
    (hok : ap.refreshEpoch.isSome || ap.startedAt.all (· == sh.grantEpoch)) :
    next = .returned ∨ next = .at .entering ∧ ap.InForce sh' := by
  simp only [ApplyPc.step] at h
  split at h
  · cases h
  · cases hre : ap.refreshEpoch with
    | some e =>
      rw [hre] at h
      dsimp only at h
      split at h
      · cases h
        exact .inl rfl
      · next heq =>
        cases h
        refine .inr ⟨rfl, fun started hs => ?_⟩
        rw [hap e hre] at hs
        simp only [Apply.current, hre]
        cases hs
        simpa using heq
    | none =>
      rw [hre] at h
      cases h
      refine .inr ⟨rfl, fun started hs => ?_⟩
      simp only [hre, hs, Option.isSome_none, Option.all_some, beq_iff_eq, Bool.false_or] at hok
      simp [Apply.current, hre, hok]

/-- A thread looks at the epoch before it works for a grant. -/
theorem Pc.step_inForce (h : pc.step ema sh ts a = some (sh', pc', new)) (hpc : pc.InForce sh)
    (hok : ∀ d ap, pc = .applying d ap .lock →
      ap.refreshEpoch.isSome || ap.startedAt.all (· == sh.grantEpoch)) : pc'.InForce sh' := by
  cases pc with
  | refreshing d e p =>
    obtain ⟨next, hst, rfl, -⟩ := Pc.step_refreshing h
    cases next with
    | ok set => exact Driver.onOk_inForce d e set
    | err failure => exact Driver.onErr_inForce d e failure
    | «at» p' =>
      cases p' with
      | emaSave set =>
        -- only the epoch check under the lock leads here
        cases p <;> simp only [RefreshPc.step] at hst <;> (repeat' split at hst) <;>
          simp only [Option.some.injEq, Prod.mk.injEq, reduceCtorEq, RefreshNext.at.injEq,
            and_false] at hst
        next heq =>
          obtain ⟨rfl, -⟩ := hst
          exact not_not.1 heq
      | _ => trivial
  | applying d ap p =>
    obtain ⟨next, spawned, hst, rfl, -⟩ := Pc.step_applying h
    cases next with
    | returned => exact Driver.returned_inForce d
    | «at» p' =>
      cases p with
      | lock =>
        rcases ApplyPc.lock_inForce hst hpc (hok d ap rfl) with hret | ⟨hnext, hin⟩
        · cases hret
        · cases hnext
          exact hin
      | _ =>
        have hin : ap.InForce sh := hpc
        have he : sh'.grantEpoch = sh.grantEpoch := by
          rcases (Pc.step_change h).grantEpoch with he | ⟨hb, -⟩
          · exact he
          · cases hb
        have hne : p' ≠ .lock := by
          rintro rfl
          simp only [ApplyPc.step] at hst
          (repeat' split at hst) <;> simp at hst
        cases p' with
        | lock => exact absurd rfl hne
        | _ => exact hin.of_eq he
  | followUp d e err =>
    obtain ⟨-, -, rfl, -⟩ := Pc.step_followUp h
    exact Driver.returned_inForce d
  | _ => exact (Pc.step_outside h rfl).inForce

/-- A failure transition is performed only for the grant in force. -/
theorem failIfCurrent_inForce {e : Nat} {target : OAuthState} (hlog : ∀ ev ∈ sh.log, ev.InForce) :
    ∀ ev ∈ (sh.failIfCurrent e target).log, ev.InForce := by
  by_cases he : sh.grantEpoch = e
  · rw [OAuthAdapterInner.failIfCurrent, if_pos he]
    intro ev hev
    simp only [OAuthAdapterInner.transitionTo_log, OAuthAdapterInner.doTransition_log, List.mem_cons] at hev
    rcases hev with rfl | rfl | hev
    · exact he.symm
    · trivial
    · exact hlog ev hev
  · rw [sh.failIfCurrent_of_ne e target he]
    exact hlog

theorem Apply.effect_inForce {ap : Apply} {effect : RefreshEffect} (h : ap.InForce sh) :
    ∀ ev ∈ ap.effect sh effect, ev.InForce := by
  intro ev hev
  simp only [Apply.effect, List.mem_map, Option.mem_toList] at hev
  obtain ⟨started, hs, rfl⟩ := hev
  exact h started hs

/-- What a step logs is in force when the thread is. -/
theorem Change.inForce (h : Change sh ts pc sh') (hpc : pc.InForce sh)
    (hlog : ∀ ev ∈ sh.log, ev.InForce) : ∀ ev ∈ sh'.log, ev.InForce := by
  cases h with
  | failing => exact failIfCurrent_inForce hlog
  | emaFailing => exact failIfCurrent_inForce hlog
  | followUp => exact failIfCurrent_inForce hlog
  | emaSave => exact List.forall_mem_cons.2 ⟨hpc, hlog⟩
  | saving => exact List.forall_mem_append.2 ⟨Apply.effect_inForce hpc, hlog⟩
  | remembering => exact List.forall_mem_append.2 ⟨Apply.effect_inForce hpc, hlog⟩
  | starting =>
    unfold OAuthAdapterInner.transitionIfCurrent
    split
    · exact List.forall_mem_cons.2 ⟨trivial, hlog⟩
    · exact hlog
  | emaStarting =>
    unfold OAuthAdapterInner.transitionIfCurrent
    split
    · exact List.forall_mem_cons.2 ⟨trivial, hlog⟩
    · exact hlog
  | exchanged =>
    refine List.forall_mem_append.2 ⟨?_, List.forall_mem_cons.2 ⟨trivial, hlog⟩⟩
    split
    · exact List.forall_mem_singleton.2 trivial
    · exact List.forall_mem_nil _
  | idle | restore | storeHeartbeat | newGrant | aborting | clearing | storing | callbackSave | detach
  | verdict | disconnectAborting | disconnectClosing | forgetting | bumping | deleting
  | shutdownHeartbeat | shutdownRefreshTask | shutdownClosing => exact hlog
  | _ => exact List.forall_mem_cons.2 ⟨trivial, hlog⟩

/-! ## Runs -/

section Runs

variable {s : Pool.State OAuthAdapterInner Thread}

/-- Threads past their look at the epoch work for the grant in force. -/
theorem threads_inForce
    (h : (oauthPool ema).system.ReachableWhile (fun s a => acquisitionInForce s a = true) s) :
    ∀ t ∈ s.threads, t.aborted s.shared = false → t.pc.InForce s.shared := by
  refine Pool.forall_threads_of (L := fun sh t => Thread.aborted sh t = false → Pc.InForce sh t.pc)
    (fun _ h => applyLock_exclusive h) ?_ ?_ ?_ h
  · intro s op t _ ht _
    obtain ⟨-, ⟨d, hp⟩ | hp | ⟨set, hp⟩ | hp | hp⟩ := Op.launch_cases ht <;> rw [hp] <;> trivial
  · intro s i c t sh' t' new _ hok hi hL hst
    refine ⟨fun _ => ?_, fun u hu _ => ?_⟩
    · obtain ⟨hab, ⟨-, rfl, -, -⟩ | ⟨a, pc', rfl, hpc, rfl⟩⟩ := Thread.step_cases hst
      · trivial
      · refine Pc.step_inForce hpc (hL hab) fun d ap hpc => ?_
        simpa [acquisitionInForce, pcAt, hi, hpc] using hok
    · rcases Thread.step_new hst u hu with hp | hp <;> rw [hp] <;> trivial
  · intro s i c t sh' t' new j u hx _ hi hj hne _ hL hst hab
    have hab' := (Thread.step_change hst).thread_aborted hab
    exact (hL hab').of_eq fun hh => grantEpoch_of_holds hx hi hj hne ⟨hab', hh⟩ hst

/-- **Grant-epoch safety of token refresh.** In every run in which no startup acquisition is
committed after its grant is gone, every effect of a refresh belongs to the grant it started
with. -/
theorem refresh_effects_in_force
    (h : (oauthPool ema).system.ReachableWhile (fun s a => acquisitionInForce s a = true) s) :
    ∀ ev ∈ s.shared.log, ev.InForce := by
  refine Pool.invariant_of (J := fun s => ∀ ev ∈ s.shared.log, ev.InForce)
    (fun _ h => threads_inForce h) ?_ ?_ ?_ h
  · intro sh hsh
    obtain ⟨disk, rfl⟩ := hsh
    exact List.forall_mem_nil _
  · intro s op t _ hJ _ _
    exact hJ
  · intro s i c t sh' t' new hI hJ _ hi hst
    exact (Thread.step_change hst).inForce
      (hI t (List.mem_of_getElem? hi) (Thread.step_cases hst).1) hJ

end Runs

/-- An EMA endpoint starts with a stored token, whose fast path returns it; the user disconnects; the
startup then applies it. -/
def disconnectDuringStartup : List (Pool.Action Op Choice) :=
  .launch .initializeAdapter :: proceeds 3 0 ++ .launch .disconnect :: proceeds 7 1 ++ proceeds 3 0

def resurrected : Pool.State OAuthAdapterInner Thread :=
  ((oauthPool true).system.run ⟨.new (some firstTokens), []⟩ disconnectDuringStartup).getD
    ⟨.new none, []⟩

/-- The disconnected grant is back on disk. -/
theorem acquisition_outlives_its_grant :
    (oauthPool true).system.Reachable resurrected ∧
      resurrected.shared.disk = some firstTokens ∧
      ¬ ∀ ev ∈ resurrected.shared.log, ev.InForce := by
  have hrun : (oauthPool true).system.run ⟨.new (some firstTokens), []⟩ disconnectDuringStartup =
      some resurrected := rfl
  refine ⟨(System.Reachable.init (oauthPool_init true _)).run hrun, rfl, fun h => ?_⟩
  exact absurd (h (.refreshed .disk 0 1) (by decide)) (by decide)

/-- The same endpoint starts undisturbed, and its token set is refreshed when it expires. -/
def undisturbedStartup : List (Pool.Action Op Choice) :=
  .launch .initializeAdapter :: proceeds 15 0 ++ proceeds 14 1

def renewed : Pool.State OAuthAdapterInner Thread :=
  ((oauthPool true).system.runWhile acquisitionInForce ⟨.new (some firstTokens), []⟩
    undisturbedStartup).getD ⟨.new none, []⟩

theorem renewed_in_force :
    .refreshed .memory 1 1 ∈ renewed.shared.log ∧ ∀ ev ∈ renewed.shared.log, ev.InForce := by
  have hrun : (oauthPool true).system.runWhile acquisitionInForce ⟨.new (some firstTokens), []⟩
      undisturbedStartup = some renewed := rfl
  exact ⟨by decide, refresh_effects_in_force
    ((System.ReachableWhile.init (oauthPool_init true _)).run (fun _ _ h => h) hrun)⟩

end EndaraRelay
