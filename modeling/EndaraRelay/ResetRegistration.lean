import EndaraRelay.Logins

/-!
# Resets and the client record

`reset_keeps_registration`: in every run whose steps meet `recordUndisturbed`, the record that a discard
leaves is the one that was there when it began, or the one that was written last since.

`disconnect` deletes the record along with the tokens, and `oauth_reset` writes back what it has read. In
between the record is gone, and four things are in the way of its return: the record could not be read,
the tokens could not be deleted, which ends the reset before it writes, the write fails, which is only
logged, and a writer comes in between, whose record is overwritten. The guard excludes the four.
-/

namespace EndaraRelay

open Verif

/-- A reset has read the record and has still to delete it or to write it back. -/
def LoginThread.loaded : LoginThread → Bool
  | .reset (.deletingTokens _ _ _) | .reset (.deletingRecord _ _ _ _) => true
  | .reset (.restoring _ _ _) => true
  | _ => false

/-- The step of a reset does what the return of the record depends on. -/
def ResetPc.recovers (file : Option DcrText) (succeeds : Bool) : ResetPc → Bool
  | .loading _ _ => file = none || succeeds && (storedRecord file).isSome
  | .deletingTokens _ _ preserved => succeeds || preserved.isNone
  | .restoring _ _ creds => succeeds || file = some (.record creds)
  | _ => true

/-- No file operation of a reset fails on which the record depends, and nobody changes the record between
its read and the end of the discard. -/
def recordUndisturbed (s : LoginsState) : LoginsAction → Bool
  | .launch _ => true
  | .run i env => match s.threads[i]? with
    | some (.writing w) =>
      !s.threads.any LoginThread.loaded ||
        w.write.apply env.succeeds env.now s.shared.file = s.shared.file
    | some (.reset pc) => pc.recovers s.shared.file env.succeeds
    | _ => true

/-- What was written since a reset began. -/
def LoginStores.writtenSince (sh : LoginStores) (since : Nat) : List (Option DcrText) :=
  sh.written.take (sh.written.length - since)

/-- The record is the one that was there when the reset began, or the one that was written last since. -/
structure LoginStores.InDiscard (sh : LoginStores) (before : Option DcrText) (since : Nat) : Prop where
  started : since ≤ sh.written.length
  kept : sh.file = newest before (sh.writtenSince since)

/-- What a reset remembers is the record. -/
inductive ResetPc.Knows (sh : LoginStores) : ResetPc → Prop where
  | locking : Knows sh .locking
  | loading {before since} (h : sh.InDiscard before since) : Knows sh (.loading before since)
  | deletingTokens {before since preserved} (h : sh.InDiscard before since)
      (hread : preserved.map .record = sh.file) : Knows sh (.deletingTokens before since preserved)
  | deletingRecord {before since preserved tokensDeleted} (h : sh.InDiscard before since)
      (hread : preserved.map .record = sh.file) (hdeleted : tokensDeleted = true ∨ preserved = none) :
      Knows sh (.deletingRecord before since preserved tokensDeleted)
  | restoring {before since creds} (hstarted : since ≤ sh.written.length)
      (hread : some (.record creds) = newest before (sh.writtenSince since)) :
      Knows sh (.restoring before since creds)
  | ended : Knows sh .ended

def LoginThread.Knows (sh : LoginStores) : LoginThread → Prop
  | .reset pc => pc.Knows sh
  | _ => True

section Steps

variable {s : LoginsState} {sh sh' : LoginStores} {ts : List LoginThread} {t t' u : LoginThread}
  {env : LoginAnswer} {flow : LoginFlow} {pc pc' : ResetPc} {file before : Option DcrText} {since : Nat}

/-! ## What others do to a reset -/

/-- What a reset knows is about the record and what has been written. -/
theorem LoginThread.Knows.congr (hfile : sh'.file = sh.file) (hwritten : sh'.written = sh.written)
    (h : t.Knows sh) : t.Knows sh' := by
  have hsince (since : Nat) : sh'.writtenSince since = sh.writtenSince since := by
    rw [LoginStores.writtenSince, hwritten]
    rfl
  have hdiscard {before : Option DcrText} {since : Nat} (hin : sh.InDiscard before since) :
      sh'.InDiscard before since :=
    ⟨by rw [hwritten]; exact hin.started, by rw [hfile, hsince]; exact hin.kept⟩
  cases t with
  | reset pc =>
    cases h with
    | locking => exact .locking
    | loading hin => exact .loading (hdiscard hin)
    | deletingTokens hin hread => exact .deletingTokens (hdiscard hin) (hread.trans hfile.symm)
    | deletingRecord hin hread hdeleted =>
      exact .deletingRecord (hdiscard hin) (hread.trans hfile.symm) hdeleted
    | restoring hstarted hread =>
      exact .restoring (by rw [hwritten]; exact hstarted) (by rw [hsince]; exact hread)
    | ended => exact .ended
  | _ => trivial

theorem newest_cons (before file : Option DcrText) (written : List (Option DcrText)) :
    newest before (file :: written) = file := rfl

/-- What is written is the newest record for every reset under way. -/
theorem inDiscard_write (h : sh.InDiscard before since) (file : Option DcrText) :
    (sh.write file).InDiscard before since := by
  unfold LoginStores.write
  split
  · exact h
  · have hstarted := h.started
    refine ⟨Nat.le_succ_of_le hstarted, ?_⟩
    rw [LoginStores.writtenSince, List.length_cons, Nat.succ_sub hstarted, List.take_succ_cons,
      newest_cons]

/-- **A write** is the newest record for the resets that have still to read it. -/
theorem LoginThread.Knows.write (h : t.Knows sh) (hquiet : t.loaded = false) :
    t.Knows (sh.write file) := by
  cases t with
  | reset pc =>
    cases h with
    | locking => exact .locking
    | loading hin => exact .loading (inDiscard_write hin file)
    | ended => exact .ended
    | _ => cases hquiet
  | _ => trivial

/-- What a reset has to know it knows while it has the commit lock. -/
theorem knows_of_not_commits (h : t.commits = false) : t.Knows sh := by
  cases t with
  | reset pc =>
    cases pc with
    | locking => exact .locking
    | ended => exact .ended
    | _ => cases h
  | _ => trivial

/-! ## The steps of a reset -/

theorem deleteDcr_none (deleted : Bool) : deleteDcr deleted none = none := by
  cases deleted <;> rfl

theorem storedRecord_eq_file (h : (storedRecord file).isSome = true) :
    (storedRecord file).map .record = file := by
  match file, h with
  | some (.record creds), _ => rfl

/-- **The read** finds what there is. -/
theorem loading_reads (h : ResetPc.recovers file env.succeeds (.loading before since) = true) :
    (if env.succeeds then storedRecord file else none).map .record = file := by
  rw [ResetPc.recovers, Bool.or_eq_true, Bool.and_eq_true] at h
  obtain hnone | ⟨hok, hsome⟩ := h
  · rw [of_decide_eq_true hnone]
    cases env.succeeds <;> rfl
  · rw [if_pos hok]
    exact storedRecord_eq_file hsome

theorem ResetPc.step_knows (h : pc.step sh ts env = some (sh', pc'))
    (hok : pc.recovers sh.file env.succeeds = true) (hold : pc.Knows sh) : pc'.Knows sh' := by
  cases hold with
  | locking =>
    obtain ⟨heq, -⟩ := whenFree_eq_some h
    cases heq
    refine .loading ⟨Nat.le_refl _, ?_⟩
    rw [LoginStores.writtenSince, Nat.sub_self]
    rfl
  | loading hin =>
    cases h
    exact .deletingTokens hin (loading_reads hok)
  | deletingTokens hin hread =>
    cases h
    refine .deletingRecord hin hread ?_
    simpa [ResetPc.recovers] using hok
  | @deletingRecord before since preserved tokensDeleted hin hread hdeleted =>
    cases tokensDeleted with
    | false =>
      cases h
      exact .ended
    | true =>
      cases preserved with
      | none =>
        cases h
        exact .ended
      | some creds =>
        cases h
        exact .restoring hin.started (hread.trans hin.kept)
  | restoring hstarted hread =>
    cases h
    exact .ended
  | ended => cases h

/-- **The end of a discard**: nothing was there, or what was there is back. -/
theorem ResetPc.step_discards (h : pc.step sh ts env = some (sh', pc'))
    (hok : pc.recovers sh.file env.succeeds = true) (hold : pc.Knows sh)
    (hkept : ∀ d ∈ sh.discards, d.Kept) : ∀ d ∈ sh'.discards, d.Kept := by
  cases hold with
  | locking =>
    obtain ⟨heq, -⟩ := whenFree_eq_some h
    cases heq
    exact hkept
  | loading hin =>
    cases h
    exact hkept
  | deletingTokens hin hread =>
    cases h
    exact hkept
  | @deletingRecord before since preserved tokensDeleted hin hread hdeleted =>
    have hnothing (hnone : preserved = none) :
        ∀ d ∈ (sh.discarded before since (deleteDcr env.succeeds sh.file)).discards, d.Kept := by
      have hfile : sh.file = none := by
        rw [← hread, hnone]
        rfl
      refine List.forall_mem_cons.2 ⟨?_, hkept⟩
      rw [Discard.Kept, hfile, deleteDcr_none]
      exact hfile.symm.trans hin.kept
    cases tokensDeleted with
    | false =>
      cases h
      exact hnothing (hdeleted.resolve_left Bool.false_ne_true)
    | true =>
      cases preserved with
      | none =>
        cases h
        exact hnothing rfl
      | some creds =>
        cases h
        exact hkept
  | @restoring before since creds hstarted hread =>
    cases h
    refine List.forall_mem_cons.2 ⟨?_, hkept⟩
    have hback : saveDcr env.succeeds creds sh.file = some (.record creds) := by
      rw [ResetPc.recovers, Bool.or_eq_true] at hok
      by_cases hsaved : env.succeeds = true
      · rw [saveDcr, if_pos hsaved]
      · rw [saveDcr, if_neg hsaved]
        exact of_decide_eq_true (hok.resolve_left hsaved)
    exact hback.trans hread
  | ended => cases h

theorem write_discards (sh : LoginStores) (file : Option DcrText) :
    (sh.write file).discards = sh.discards := by
  unfold LoginStores.write
  split <;> rfl

theorem write_of_eq (h : file = sh.file) : sh.write file = sh := if_pos h

theorem writing_quiet {i : Nat} {w : ClientWrite} (h : recordUndisturbed s (.run i env) = true)
    (hi : s.threads[i]? = some (.writing w)) :
    (∀ u ∈ s.threads, u.loaded = false) ∨
      w.write.apply env.succeeds env.now s.shared.file = s.shared.file := by
  unfold recordUndisturbed at h
  dsimp only at h
  rw [hi, Bool.or_eq_true, Bool.not_eq_true', List.any_eq_false] at h
  exact h.imp (fun hall u hu => Bool.not_eq_true _ ▸ hall u hu) of_decide_eq_true

theorem reset_recovers {i : Nat} (h : recordUndisturbed s (.run i env) = true)
    (hi : s.threads[i]? = some (.reset pc)) : pc.recovers s.shared.file env.succeeds = true := by
  unfold recordUndisturbed at h
  dsimp only at h
  rwa [hi] at h

end Steps

section Runs

variable {s : LoginsState}

theorem resets_know (h : logins.system.ReachableWhile (fun s a => recordUndisturbed s a = true) s) :
    ∀ t ∈ s.threads, t.Knows s.shared := by
  refine Pool.forall_threads_of (L := LoginThread.Knows) (fun s hs => commitLock_exclusive hs)
    ?_ ?_ ?_ h
  · intro s op t _ ht
    cases op <;> cases ht
    · trivial
    · exact .locking
    · trivial
  · intro s i env t sh' t' new _ hok hi ht hst
    obtain ⟨⟨sh₁, t₁⟩, htask, heq⟩ := Option.map_eq_some_iff.1 hst
    cases heq
    refine ⟨?_, List.forall_mem_nil _⟩
    cases t with
    | callback flow pc =>
      obtain ⟨⟨sh₂, pc'⟩, -, heq⟩ := Option.map_eq_some_iff.1 htask
      cases heq
      trivial
    | reset pc =>
      obtain ⟨⟨sh₂, pc'⟩, hpc, heq⟩ := Option.map_eq_some_iff.1 htask
      cases heq
      exact ResetPc.step_knows hpc (reset_recovers hok hi) ht
    | writing w =>
      cases htask
      trivial
    | written => cases htask
  · intro s i env t sh' t' new j u hone hok hi hj hji _ hu hst
    obtain ⟨⟨sh₁, t₁⟩, htask, heq⟩ := Option.map_eq_some_iff.1 hst
    cases heq
    cases t with
    | callback flow pc =>
      obtain ⟨⟨sh₂, pc'⟩, hpc, heq⟩ := Option.map_eq_some_iff.1 htask
      cases heq
      obtain ⟨hfile, hwritten, -⟩ := CallbackPc.step_frame hpc
      exact LoginThread.Knows.congr hfile hwritten hu
    | reset pc =>
      obtain ⟨⟨sh₂, pc'⟩, hpc, heq⟩ := Option.map_eq_some_iff.1 htask
      cases heq
      -- one of the two has no commit lock
      by_cases hlock : LoginThread.commits (.reset pc) = true
      · have hnot := Pool.not_holds_of_ne (H := fun _ t => LoginThread.commits t = true) hone hi hlock hj hji
        exact knows_of_not_commits (Bool.not_eq_true _ ▸ hnot)
      · cases pc with
        | locking =>
          obtain ⟨heq, -⟩ := whenFree_eq_some hpc
          cases heq
          refine LoginThread.Knows.congr ?_ ?_ hu <;> rfl
        | ended => cases hpc
        | _ => exact absurd rfl hlock
    | writing w =>
      cases htask
      obtain hquiet | hsame := writing_quiet hok hi
      · exact LoginThread.Knows.write hu (hquiet u (List.mem_of_getElem? hj))
      · dsimp only
        rw [write_of_eq hsame]
        exact hu
    | written => cases htask

/-- **A reset keeps the client registration**, as long as its file operations succeed and nobody writes
the record meanwhile. -/
theorem reset_keeps_registration
    (h : logins.system.ReachableWhile (fun s a => recordUndisturbed s a = true) s) :
    ∀ d ∈ s.shared.discards, d.Kept := by
  refine Pool.invariant_of (J := fun s => ∀ d ∈ s.shared.discards, Discard.Kept d)
    (fun s hs => resets_know hs) ?_ ?_ ?_ h
  · intro sh hinit
    rw [hinit.2]
    exact List.forall_mem_nil _
  · intro s op t _ hJ _ _
    exact hJ
  · intro s i env t sh' t' new hknow hJ hok hi hst
    obtain ⟨⟨sh₁, t₁⟩, htask, heq⟩ := Option.map_eq_some_iff.1 hst
    cases heq
    have ht := hknow t (List.mem_of_getElem? hi)
    cases t with
    | callback flow pc =>
      obtain ⟨⟨sh₂, pc'⟩, hpc, heq⟩ := Option.map_eq_some_iff.1 htask
      cases heq
      dsimp only
      rw [(CallbackPc.step_frame hpc).2.2]
      exact hJ
    | reset pc =>
      obtain ⟨⟨sh₂, pc'⟩, hpc, heq⟩ := Option.map_eq_some_iff.1 htask
      cases heq
      exact ResetPc.step_discards hpc (reset_recovers hok hi) ht hJ
    | writing w =>
      cases htask
      dsimp only
      rw [write_discards]
      exact hJ
    | written => cases htask

end Runs

/-! ## Runs -/

def manualStored : LoginsState := ⟨⟨manualRecord, 0, [], [], []⟩, []⟩

theorem manualStored_init : logins.system.init manualStored := ⟨⟨rfl, rfl⟩, rfl⟩

/-- An operator supplies another client after the reset began and before it reads the record. -/
def resetAfterWrite : List LoginsAction :=
  [.launch .reset, .launch (.write (.oauthCredentials "second" none 9)), .run 0 {}, .run 1 {}] ++
    List.replicate 4 (.run 0 {})

theorem resetAfterWrite_run : ∃ s,
    logins.system.runWhile recordUndisturbed manualStored resetAfterWrite = some s ∧
      s.shared.discards.length = 1 ∧
      s.shared.file = some (.record (manualCredentials "second" none 9)) :=
  ⟨_, rfl, rfl, rfl⟩

theorem reset_keeps_registration_supplied : ∃ s,
    logins.system.ReachableWhile (fun s a => recordUndisturbed s a = true) s ∧
      s.shared.file = some (.record (manualCredentials "second" none 9)) ∧
      ∀ d ∈ s.shared.discards, d.Kept := by
  obtain ⟨s, hrun, -, hfile⟩ := resetAfterWrite_run
  have hreach := (System.ReachableWhile.init manualStored_init).run (fun _ _ h => h) hrun
  exact ⟨s, hreach, hfile, reset_keeps_registration hreach⟩

def resetFails : List LoginsAction :=
  [.launch .reset, .run 0 {}, .run 0 {}, .run 0 { succeeds := false }, .run 0 {}]

def droppedRegistration : Discard := ⟨manualRecord, [], none⟩

theorem resetFails_run : ∃ s, logins.system.run manualStored resetFails = some s ∧
    s.shared.discards = [droppedRegistration] :=
  ⟨_, rfl, rfl⟩

/-- A reset that fails has deleted the client record. -/
theorem failed_reset_drops_registration : ∃ s, logins.system.Reachable s ∧
    ∃ d ∈ s.shared.discards, d.before = manualRecord ∧ d.file = none ∧ ¬ d.Kept := by
  obtain ⟨s, hrun, hdiscards⟩ := resetFails_run
  refine ⟨s, (System.Reachable.init manualStored_init).run hrun, droppedRegistration, ?_, rfl, rfl, ?_⟩
  · rw [hdiscards]
    exact .head _
  · exact fun hkept => Option.some_ne_none _ hkept.symm

end EndaraRelay
