import EndaraRelay.OAuth.Interleaving

/-!
# The OAuth adapter: refresh tokens are not replayed

A server that rotates refresh tokens revokes the grant when it sees one again. `refresh_mutex` lets
one refresh at a time read a refresh token and POST it, but is released when the answer is there,
while the set reaches memory at the end of its application. In between the set is *pending*, and
memory holds a refresh token that is spent. The next refresh waits for `apply_lock` only if the
application already has it (`waiting_refresh_replays`).

`commitsInTurn` says when nothing is replayed: no refresh reads its inputs while a set is pending, no
waiter coalesces with a set that is already replaced, no pending set is lost with a dropped future or
an aborted task, the startup restores no spent set, and the server issues no token twice. Under it
the token in memory is unspent whenever no other set is pending (`TokensUnspent`), so what a refresh
reads under the mutex is unspent when it POSTs (`no_refresh_token_replay`). An endpoint of an
organisation POSTs no refresh token at all.
-/

namespace EndaraRelay

open Verif

variable {ema : Bool} {sh sh' : OAuthAdapterInner} {ts new : List Thread} {t t' u : Thread}
  {c : Choice} {a : Answer} {pc pc' : Pc} {d : Driver} {e : Nat} {rt : String} {set : TokenSet}

/-- No refresh token is POSTed after an exchange in its grant epoch has rotated it out. -/
def NoReplay : List Event → Prop
  | [] => True
  | .posted e rt :: log => .rotated e rt ∉ log ∧ NoReplay log
  | _ :: log => NoReplay log

instance NoReplay.decidable : (log : List Event) → Decidable (NoReplay log)
  | [] => .isTrue trivial
  | ev :: log => by
    have := NoReplay.decidable log
    cases ev <;> unfold NoReplay <;> infer_instance

/-! ## Pending sets -/

/-- A refresh that has read its refresh token and has no answer yet. -/
def Pc.poster : Pc → Option (Nat × String)
  | .refreshing _ e (.starting rt) | .refreshing _ e (.post rt) | .refreshing _ e (.rediscover rt)
  | .refreshing _ e (.repost rt) => some (e, rt)
  | _ => none

/-- Whether the application has the write to memory ahead of it. -/
def ApplyPc.beforeMemory : ApplyPc → Bool
  | .arming | .storing _ => false
  | _ => true

/-- The set a refresh came back with, until it is in memory, and the epoch of the refresh. -/
def Pc.result : Pc → Option (Nat × TokenSet)
  | .applying _ ap p => if p.beforeMemory then ap.refreshEpoch.map fun e => (e, ap.tokenSet) else none
  | _ => none

/-- The set of the current grant that waits in this thread to be written to memory. -/
def Thread.pending (sh : OAuthAdapterInner) (t : Thread) : Option TokenSet :=
  if t.aborted sh then none
  else (t.pc.result.filter fun r => r.1 == sh.grantEpoch).map (·.2)

/-- The task a step aborts. -/
def Pc.aborts (sh : OAuthAdapterInner) : Pc → Option Nat
  | .applying _ _ .aborting | .disconnecting .aborting | .shuttingDown .refreshTask =>
    sh.refreshTaskHandle
  | .shuttingDown .heartbeat => sh.heartbeatTaskHandle
  | _ => none

/-! ## Runs in which sets are committed in turn -/

/-- The token endpoint issues a refresh token it has rotated out before. -/
def Answer.reissues (sh : OAuthAdapterInner) (e : Nat) : Answer → Bool
  | .post (.success answer) => answer.refreshToken.any fun rt => decide (.rotated e rt ∈ sh.log)
  | _ => false

/-- What a step asks of the sets that are pending in other threads, and of the tokens it is given. -/
def Pc.inTurn (sh : OAuthAdapterInner) (pending : List TokenSet) (a : Answer) : Pc → Bool
  | .restore stored =>
    stored.refreshToken.all fun rt => !decide (.rotated sh.grantEpoch rt ∈ sh.log)
  | .refreshing _ e (.compare pre) =>
    e != sh.grantEpoch || sh.tokens.all (fun ts => some ts.accessToken == pre) ||
      pending.all (some · == sh.tokens)
  | .refreshing _ e .inputs => e != sh.grantEpoch || sh.refreshToken.isNone || pending.isEmpty
  | .refreshing _ e (.post _) | .refreshing _ e (.repost _) => !a.reissues sh e
  | _ => true

/-- Losing the thread loses no pending set: it has none, or memory holds it already. -/
def Thread.dispensable (sh : OAuthAdapterInner) (t : Thread) : Bool :=
  (t.pending sh).all (some · == sh.tokens)

def commitsInTurn (ema : Bool) (s : Pool.State OAuthAdapterInner Thread) :
    Pool.Action Op Choice → Bool
  | .launch _ => true
  | .run i c =>
    ema ||
      match s.threads[i]?, c with
      | none, _ => true
      | some t, .drop => t.dispensable s.shared
      | some t, .resume a =>
        t.pc.inTurn s.shared ((s.threads.eraseIdx i).filterMap (·.pending s.shared)) a &&
          s.threads.all fun u =>
            (u.task.isNone || u.task != t.pc.aborts s.shared) || u.dispensable s.shared

/-! ## Which refreshes POST -/

def RefreshPc.throughChain : RefreshPc → Bool
  | .emaStarting | .emaFastPath | .emaMutex | .emaRecheck | .emaChain | .emaGuard _ | .emaSave _
  | .emaFailing _ => true
  | _ => false

/-- A refresh runs through the chain exactly when the endpoint belongs to an organisation. -/
def Pc.OfKind (ema : Bool) : Pc → Prop
  | .refreshing _ _ p => p.throughChain = ema
  | _ => True

theorem Driver.returned_ofKind (d : Driver) : d.returned.OfKind ema := by
  cases d <;> trivial

theorem Pc.Entered.ofKind (h : Pc.Entered ema sh pc) : pc.OfKind ema := by
  cases h with
  | refresh => cases ema <;> rfl
  | application => trivial
  | outside h => cases pc <;> trivial

theorem Pc.step_ofKind (h : pc.step ema sh ts a = some (sh', pc', new)) (hpc : pc.OfKind ema) :
    pc'.OfKind ema := by
  cases pc with
  | refreshing d e p =>
    obtain ⟨next, hst, rfl, -⟩ := Pc.step_refreshing h
    cases next with
    | ok set => trivial
    | err failure => cases d <;> cases ema <;> trivial
    | «at» p' =>
      show p'.throughChain = ema
      have hp : p.throughChain = ema := hpc
      rw [← hp]
      cases p <;> simp only [RefreshPc.step] at hst <;> (repeat' split at hst) <;>
        simp only [Option.some.injEq, Prod.mk.injEq, reduceCtorEq, RefreshNext.at.injEq, and_false]
          at hst <;>
        obtain ⟨-, rfl⟩ := hst <;> rfl
  | applying d ap p =>
    obtain ⟨next, spawned, -, rfl, -⟩ := Pc.step_applying h
    cases next with
    | returned => exact Driver.returned_ofKind d
    | «at» p' => trivial
  | followUp d e err =>
    obtain ⟨-, -, rfl, -⟩ := Pc.step_followUp h
    exact Driver.returned_ofKind d
  | _ => exact (Pc.step_outside h rfl).ofKind

theorem Pc.poster_of_ofKind (h : pc.OfKind true) : pc.poster = none := by
  cases pc with
  | refreshing d e p => cases p <;> first | rfl | cases h
  | _ => rfl

/-! ## What a step does to refresh tokens -/

/-- A refresh token is rotated out by the refresh that POSTed it. -/
theorem Change.rotated (h : Change sh ts pc sh') (hr : .rotated e rt ∈ sh'.log) :
    .rotated e rt ∈ sh.log ∨ pc.poster = some (e, rt) := by
  cases h with
  | exchanged hp =>
    simp only [OAuthAdapterInner.exchanged, List.mem_append, List.mem_cons, reduceCtorEq,
      false_or] at hr
    rcases hr with hr | hr
    · right
      split at hr
      · cases List.mem_singleton.1 hr
        rcases hp with rfl | rfl <;> rfl
      · cases hr
    · exact .inl hr
  | starting | emaStarting =>
    left
    unfold OAuthAdapterInner.transitionIfCurrent at hr
    split at hr <;> simpa using hr
  | failing | emaFailing | followUp =>
    left
    unfold OAuthAdapterInner.failIfCurrent at hr
    split at hr <;> simpa using hr
  | saving | remembering =>
    left
    simpa [Apply.effect] using hr
  | rejected =>
    left
    simpa [OAuthAdapterInner.rejected] using hr
  | _ =>
    left
    simpa using hr

/-- A refresh token is POSTed by a refresh that has read it. -/
theorem Change.noReplay (h : Change sh ts pc sh') (hlog : NoReplay sh.log)
    (hposter : ∀ e rt, pc.poster = some (e, rt) → .rotated e rt ∉ sh.log) : NoReplay sh'.log := by
  cases h with
  | exchanged hp =>
    have hpost : NoReplay (.posted _ _ :: sh.log) :=
      ⟨hposter _ _ (by rcases hp with rfl | rfl <;> rfl), hlog⟩
    simp only [OAuthAdapterInner.exchanged]
    split
    · exact hpost
    · exact hpost
  | rejected hp => exact ⟨hposter _ _ (by rcases hp with rfl | rfl <;> rfl), hlog⟩
  | starting | emaStarting =>
    unfold OAuthAdapterInner.transitionIfCurrent
    split <;> exact hlog
  | failing | emaFailing | followUp =>
    unfold OAuthAdapterInner.failIfCurrent
    split <;> exact hlog
  | @saving _ ap =>
    simp only [Apply.effect]
    cases ap.startedAt <;> exact hlog
  | @remembering _ ap =>
    simp only [Apply.effect]
    cases ap.startedAt <;> exact hlog
  | _ => exact hlog

theorem Change.tokens (h : Change sh ts pc sh') :
    sh'.tokens = sh.tokens ∨ (∃ set, pc = .restore set ∧ sh'.tokens = some set) ∨
      sh'.tokens = none ∨ ∃ d ap, pc = .applying d ap .remembering ∧ sh'.tokens = some ap.tokenSet := by
  cases h with
  | restore => exact .inr (.inl ⟨_, rfl, rfl⟩)
  | forgetting => exact .inr (.inr (.inl rfl))
  | remembering => exact .inr (.inr (.inr ⟨_, _, rfl, rfl⟩))
  | _ => left; simp

theorem Change.aborts (h : Change sh ts pc sh') :
    ∀ id ∈ sh'.aborted, id ∈ sh.aborted ∨ pc.aborts sh = some id := by
  intro id hid
  cases h with
  | aborting | disconnectAborting | shutdownRefreshTask | shutdownHeartbeat =>
    simp only [OAuthAdapterInner.abortRefreshTask_aborted, OAuthAdapterInner.abortHeartbeat_aborted,
      OAuthAdapterInner.abort_aborted, List.mem_append, Option.mem_toList] at hid
    exact hid.symm
  | _ =>
    left
    simpa using hid

@[simp] theorem Driver.returned_poster (d : Driver) : d.returned.poster = none := by
  cases d <;> rfl

@[simp] theorem Driver.returned_result (d : Driver) : d.returned.result = none := by
  cases d <;> rfl

@[simp] theorem Driver.onErr_poster (d : Driver) (e : Nat) (err : OAuthError) :
    (d.onErr ema e err).poster = none := by
  cases d <;> cases ema <;> rfl

@[simp] theorem Driver.onErr_result (d : Driver) (e : Nat) (err : OAuthError) :
    (d.onErr ema e err).result = none := by
  cases d <;> cases ema <;> rfl

theorem Pc.Entered.poster (h : Pc.Entered ema sh pc) : pc.poster = none := by
  cases h with
  | refresh => cases ema <;> rfl
  | application => rfl
  | outside h => cases pc <;> first | rfl | cases h

theorem Pc.Entered.result (h : Pc.Entered ema sh pc) : pc.result = none := by
  cases h with
  | refresh | application => rfl
  | outside h => cases pc <;> first | rfl | cases h

/-- A refresh token about to be POSTed was read by this step, or before it. -/
theorem Pc.step_poster (h : pc.step ema sh ts a = some (sh', pc', new))
    (hp : pc'.poster = some (e, rt)) :
    (pc.poster = some (e, rt) ∧ ∀ e r, .rotated e r ∈ sh'.log → .rotated e r ∈ sh.log) ∨
      ∃ d, pc = .refreshing d e .inputs ∧ e = sh.grantEpoch ∧ sh.refreshToken = some rt ∧ sh' = sh := by
  cases pc with
  | refreshing d e' p =>
    obtain ⟨next, hst, rfl, -⟩ := Pc.step_refreshing h
    cases next with
    | ok set => cases hp
    | err failure => simp [RefreshNext.pc] at hp
    | «at» p' =>
      cases p with
      | inputs =>
        simp only [RefreshPc.step] at hst
        (repeat' split at hst) <;> cases hst <;> cases hp
        next hepoch hread => exact .inr ⟨d, rfl, not_not.1 hepoch, hread, rfl⟩
      | starting rt' =>
        simp only [RefreshPc.step] at hst
        split at hst <;> cases hst
        refine .inl ⟨hp, fun e r hr => ?_⟩
        unfold OAuthAdapterInner.transitionIfCurrent at hr
        split at hr <;> simpa using hr
      | post rt' =>
        simp only [RefreshPc.step] at hst
        (repeat' split at hst) <;> cases hst <;> cases hp
        exact .inl ⟨rfl, fun e r hr => by simpa [OAuthAdapterInner.rejected] using hr⟩
      | rediscover rt' =>
        simp only [RefreshPc.step] at hst
        (repeat' split at hst) <;> cases hst <;> cases hp
        exact .inl ⟨rfl, fun _ _ hr => hr⟩
      | _ =>
        simp only [RefreshPc.step] at hst
        (repeat' split at hst) <;>
          simp only [Option.some.injEq, Prod.mk.injEq, reduceCtorEq, RefreshNext.at.injEq, and_false]
            at hst <;>
          obtain ⟨-, rfl⟩ := hst <;> cases hp
  | applying d ap p =>
    obtain ⟨next, spawned, -, rfl, -⟩ := Pc.step_applying h
    cases next with
    | returned => simp [ApplyNext.pc] at hp
    | «at» p' => cases hp
  | followUp d e err =>
    obtain ⟨-, -, rfl, -⟩ := Pc.step_followUp h
    simp at hp
  | _ =>
    rw [(Pc.step_outside h rfl).poster] at hp
    cases hp

/-- A pending set was pending before the step, or is what memory held, or comes from the endpoint. -/
theorem Pc.step_result (h : pc.step ema sh ts a = some (sh', pc', new)) (hpc : pc.OfKind false)
    (hr : pc'.result = some (e, set)) :
    (pc.result = some (e, set) ∧ ∀ e r, .rotated e r ∈ sh'.log → .rotated e r ∈ sh.log) ∨
      (∃ d pre, pc = .refreshing d e (.compare pre) ∧ sh.tokens = some set ∧
        some set.accessToken ≠ pre ∧ sh' = sh) ∨
      ∃ d p rt answer, pc = .refreshing d e p ∧ (p = .post rt ∨ p = .repost rt) ∧
        a = .post (.success answer) ∧ set = answer.tokenSet sh.refreshToken ∧
        sh' = sh.exchanged e rt answer.refreshToken := by
  cases pc with
  | refreshing d e' p =>
    obtain ⟨next, hst, rfl, -⟩ := Pc.step_refreshing h
    cases next with
    | err failure => simp [RefreshNext.pc] at hr
    | «at» p' => cases hr
    | ok set' =>
      right
      have hset : e' = e ∧ set' = set := by
        simp only [RefreshNext.pc, Driver.onOk, Pc.result, ApplyPc.beforeMemory, if_true,
          Option.map_eq_some_iff, Prod.mk.injEq] at hr
        obtain ⟨e₁, hre, rfl, rfl⟩ := hr
        split at hre
        · cases hre
        · exact ⟨Option.some.inj hre, rfl⟩
      obtain ⟨rfl, rfl⟩ := hset
      have hkind : p.throughChain = false := hpc
      cases p with
      | compare pre =>
        simp only [RefreshPc.step] at hst
        split at hst
        · cases hst
        · next held hheld =>
          split at hst
          · cases hst
          · next hne =>
            cases hst
            exact .inl ⟨d, pre, rfl, hheld, hne, rfl⟩
      | post rt =>
        simp only [RefreshPc.step] at hst
        split at hst <;> cases hst
        exact .inr ⟨d, _, rt, _, rfl, .inl rfl, rfl, rfl, rfl⟩
      | repost rt =>
        simp only [RefreshPc.step] at hst
        split at hst <;> cases hst
        exact .inr ⟨d, _, rt, _, rfl, .inr rfl, rfl, rfl, rfl⟩
      | _ =>
        simp only [RefreshPc.step] at hst
        (repeat' split at hst) <;> simp [RefreshPc.throughChain] at hst hkind
  | applying d ap p =>
    obtain ⟨next, spawned, hst, rfl, -⟩ := Pc.step_applying h
    cases next with
    | returned => simp [ApplyNext.pc] at hr
    | «at» p' =>
      refine .inl ⟨?_, fun e r hrot => ?_⟩
      · have hp : p.beforeMemory = false → p'.beforeMemory = false := by
          intro hp
          cases p <;> cases hp
          · cases hst
            rfl
          · cases hst
        simp only [ApplyNext.pc, Pc.result] at hr ⊢
        cases hb : p.beforeMemory with
        | false =>
          rw [hp hb] at hr
          cases hr
        | true =>
          split at hr
          · exact hr
          · cases hr
      · rcases (Pc.step_change h).rotated hrot with hold | hposter
        · exact hold
        · cases hposter
  | followUp d e err =>
    obtain ⟨-, -, rfl, -⟩ := Pc.step_followUp h
    simp at hr
  | _ =>
    rw [(Pc.step_outside h rfl).result] at hr
    cases hr

theorem Driver.onOk_result (d : Driver) (e : Nat) (set : TokenSet) :
    (d.onOk false e set).result = some (e, set) := by
  simp [Driver.onOk, Pc.result, ApplyPc.beforeMemory]

theorem Pc.poster_cases (h : pc.poster = some (e, rt)) :
    ∃ d p, pc = .refreshing d e p ∧ p.holdsRefreshMutex = true ∧ p.engaged = true := by
  cases pc with
  | refreshing d e' p => cases p <;> cases h <;> exact ⟨d, _, rfl, rfl, rfl⟩
  | _ => cases h

/-- The answer that rotates a refresh token out is pending next. -/
theorem Pc.step_rotated (h : pc.step false sh ts a = some (sh', pc', new))
    (hr : .rotated e rt ∈ sh'.log) :
    .rotated e rt ∈ sh.log ∨ (∃ set, pc'.result = some (e, set)) ∧ sh'.aborted = sh.aborted := by
  rcases (Pc.step_change h).rotated hr with hold | hposter
  · exact .inl hold
  · obtain ⟨d, p, rfl, -, -⟩ := Pc.poster_cases hposter
    obtain ⟨next, hst, rfl, -⟩ := Pc.step_refreshing h
    cases p with
    | starting rt' =>
      cases hposter
      simp only [RefreshPc.step] at hst
      split at hst <;> cases hst
      unfold OAuthAdapterInner.transitionIfCurrent at hr
      split at hr <;> exact .inl (by simpa using hr)
    | rediscover rt' =>
      simp only [RefreshPc.step] at hst
      split at hst <;> cases hst <;> exact .inl hr
    | post rt' | repost rt' =>
      cases hposter
      simp only [RefreshPc.step] at hst
      split at hst <;> cases hst <;>
        first
        | exact .inr ⟨⟨_, Driver.onOk_result d e _⟩, rfl⟩
        | exact .inl (by simpa [OAuthAdapterInner.rejected] using hr)
    | _ => cases hposter

/-- A set stays pending until it is written to memory. -/
theorem Pc.step_keeps_result (h : pc.step ema sh ts a = some (sh', pc', new))
    (hr : pc.result = some (sh.grantEpoch, set)) :
    pc'.result = some (sh.grantEpoch, set) ∨ sh'.tokens = some set := by
  cases pc with
  | applying d ap p =>
    obtain ⟨next, spawned, hst, rfl, -⟩ := Pc.step_applying h
    have hap : p.beforeMemory = true ∧ ap.refreshEpoch = some sh.grantEpoch ∧ ap.tokenSet = set := by
      simp only [Pc.result] at hr
      split at hr
      · next hb =>
        simp only [Option.map_eq_some_iff, Prod.mk.injEq] at hr
        obtain ⟨e, hre, rfl, rfl⟩ := hr
        exact ⟨hb, hre, rfl⟩
      · cases hr
    obtain ⟨hb, hre, rfl⟩ := hap
    have hstays : ∀ {p' : ApplyPc}, p'.beforeMemory = true →
        (Pc.applying d ap p').result = some (sh.grantEpoch, ap.tokenSet) := by
      intro p' hb'
      simp [Pc.result, hb', hre]
    cases p with
    | lock =>
      simp only [ApplyPc.step, hre] at hst
      split at hst
      · cases hst
      · simp only [ne_eq, not_true_eq_false, if_false] at hst
        cases hst
        exact .inl (hstays rfl)
    | remembering =>
      cases hst
      exact .inr rfl
    | arming | storing => cases hb
    | _ =>
      left
      simp only [ApplyPc.step] at hst
      (repeat' split at hst) <;> cases hst <;> exact hstays rfl
  | _ => cases hr

/-! ## The invariant -/

/-- Nothing has rotated out the refresh token of the set in the current grant epoch. -/
def TokenSet.Unspent (sh : OAuthAdapterInner) (set : TokenSet) : Prop :=
  ∀ rt, set.refreshToken = some rt → .rotated sh.grantEpoch rt ∉ sh.log

/-- What a refresh may POST, what may be written to memory and what is in memory. -/
structure TokensUnspent (s : Pool.State OAuthAdapterInner Thread) : Prop where
  /-- Nothing is rotated out ahead of its epoch. -/
  past : ∀ e rt, .rotated e rt ∈ s.shared.log → e ≤ s.shared.grantEpoch
  posters : ∀ t ∈ s.threads, t.aborted s.shared = false → ∀ e rt, t.pc.poster = some (e, rt) →
    .rotated e rt ∉ s.shared.log
  /-- No set is pending while a refresh of the current grant has a refresh token to POST. -/
  alone : ∀ t ∈ s.threads, t.aborted s.shared = false →
    ∀ rt, t.pc.poster = some (s.shared.grantEpoch, rt) →
      ∀ u ∈ s.threads, u.pending s.shared = none
  results : ∀ u ∈ s.threads, ∀ set, u.pending s.shared = some set → set.Unspent s.shared
  /-- Memory may be behind only while a set is pending. -/
  memory : (∀ u ∈ s.threads, ∀ set, u.pending s.shared = some set → s.shared.tokens = some set) →
    ∀ set, s.shared.tokens = some set → set.Unspent s.shared
  /-- While the grant is being replaced nothing of the new one is rotated out. -/
  granted : (∃ w ∈ s.threads, w.aborted s.shared = false ∧ w.pc.movedEpoch = true) →
    ∀ rt, .rotated s.shared.grantEpoch rt ∉ s.shared.log

theorem Thread.pending_eq_some :
    t.pending sh = some set ↔ t.aborted sh = false ∧ t.pc.result = some (sh.grantEpoch, set) := by
  unfold Thread.pending
  split
  · next hab => simp [hab]
  · next hab =>
    simp [hab, Option.filter_eq_some_iff]

theorem Pc.result_epochLe {n : Nat} (hle : pc.EpochLe n) (hr : pc.result = some (e, set)) : e ≤ n := by
  cases pc with
  | applying d ap p =>
    simp only [Pc.result] at hr
    split at hr
    · simp only [Option.map_eq_some_iff, Prod.mk.injEq] at hr
      obtain ⟨e', hre, rfl, -⟩ := hr
      exact hle e' hre
    · cases hr
  | _ => cases hr

theorem Pc.poster_holdsRefreshMutex (h : pc.poster = some (e, rt)) : pc.holdsRefreshMutex = true := by
  obtain ⟨d, p, rfl, hp, -⟩ := Pc.poster_cases h
  exact hp

theorem Pc.poster_engaged (h : pc.poster = some (e, rt)) : pc.engaged = some e := by
  obtain ⟨d, p, rfl, -, hp⟩ := Pc.poster_cases h
  rw [Pc.engaged, if_pos hp]

theorem Pc.poster_epochLe {n : Nat} (hle : pc.EpochLe n) (h : pc.poster = some (e, rt)) : e ≤ n := by
  obtain ⟨d, p, rfl, -, -⟩ := Pc.poster_cases h
  exact hle

/-- A refresh that has something to POST has nothing pending. -/
theorem Pc.result_of_poster (h : pc.poster = some (e, rt)) : pc.result = none := by
  obtain ⟨d, p, rfl, -, -⟩ := Pc.poster_cases h
  rfl

/-- What is pending in another thread after a step was pending before it. -/
theorem Thread.pending_of_change (hch : Change sh ts pc sh') (hle : u.pc.EpochLe sh.grantEpoch)
    (hp : u.pending sh' = some set) :
    u.pending sh = some set ∧ sh'.grantEpoch = sh.grantEpoch := by
  rw [Thread.pending_eq_some] at hp ⊢
  have hepoch : sh'.grantEpoch = sh.grantEpoch := by
    have := Pc.result_epochLe hle hp.2
    rcases hch.grantEpoch with he | ⟨-, he⟩ <;> omega
  rw [hepoch] at hp
  exact ⟨⟨hch.thread_aborted hp.1, hp.2⟩, hepoch⟩

/-! ## Runs -/

variable {ok : Pool.State OAuthAdapterInner Thread → Pool.Action Op Choice → Prop}

section Runs

variable {s : Pool.State OAuthAdapterInner Thread} {i : Nat}

theorem Op.launch_poster {op : Op} (h : op.launch ema sh ts = some t) :
    t.pc.poster = none ∧ t.pc.result = none ∧ t.pc.movedEpoch = false := by
  obtain ⟨-, ⟨d, hp⟩ | hp | ⟨set, hp⟩ | hp | hp⟩ := Op.launch_cases h <;> rw [hp] <;>
    exact ⟨rfl, rfl, rfl⟩

theorem threads_ofKind (h : (oauthPool ema).system.ReachableWhile ok s) :
    ∀ t ∈ s.threads, t.pc.OfKind ema := by
  refine Pool.forall_threads (L := fun _ t => t.pc.OfKind ema) ?_ ?_ ?_ h
  · intro s op t _ ht
    obtain ⟨-, ⟨d, hp⟩ | hp | ⟨set, hp⟩ | hp | hp⟩ := Op.launch_cases ht <;> rw [hp] <;> trivial
  · intro sh ts t c sh' t' new hL hst
    refine ⟨?_, fun u hu => ?_⟩
    · rcases (Thread.step_cases hst).2 with ⟨-, rfl, -, -⟩ | ⟨a, pc', -, hpc, rfl⟩
      · trivial
      · exact Pc.step_ofKind hpc hL
    · rcases Thread.step_new hst u hu with hp | hp <;> rw [hp] <;> trivial
  · intro sh ts t c sh' t' new u _ hL _
    exact hL

/-- An endpoint of an organisation POSTs no refresh token. -/
theorem no_posters_of_ema (h : (oauthPool true).system.ReachableWhile ok s) :
    NoReplay s.shared.log := by
  refine Pool.invariant_of (J := fun s => NoReplay s.shared.log) (fun _ h => threads_ofKind h)
    ?_ ?_ ?_ h
  · intro sh hsh
    obtain ⟨disk, rfl⟩ := hsh
    trivial
  · intro s op t _ hJ _ _
    exact hJ
  · intro s i c t sh' t' new hkind hJ _ hi hst
    refine (Thread.step_change hst).noReplay hJ fun e rt hp => ?_
    rw [Pc.poster_of_ofKind (hkind t (List.mem_of_getElem? hi))] at hp
    cases hp

/-- What a step finds: the facts every run provides, and the invariant. -/
structure StepFrom (s : Pool.State OAuthAdapterInner Thread) (i : Nat) (t : Thread) : Prop where
  here : s.threads[i]? = some t
  live : t.aborted s.shared = false
  epochs : ∀ u ∈ s.threads, u.pc.EpochLe s.shared.grantEpoch
  mutex : s.threads.Pairwise fun t u =>
    ¬ (t.HoldsRefreshMutex s.shared ∧ u.HoldsRefreshMutex s.shared)
  unengaged : (∃ w ∈ s.threads, w.aborted s.shared = false ∧ w.pc.movedEpoch = true) →
    ∀ u ∈ s.threads, u.pc.engaged ≠ some s.shared.grantEpoch
  anchored : t.pc.Anchored s.shared
  kind : t.pc.OfKind false
  inv : TokensUnspent s

section

variable (hs : StepFrom s i t)
include hs

theorem StepFrom.mem : t ∈ s.threads := List.mem_of_getElem? hs.here

/-- Only the thread at the POST rotates a refresh token out. -/
theorem StepFrom.rotated (hch : Change s.shared s.threads t.pc sh') (hr : .rotated e rt ∈ sh'.log) :
    e ≤ s.shared.grantEpoch := by
  rcases hch.rotated hr with hold | hp
  · exact hs.inv.past e rt hold
  · exact Pc.poster_epochLe (hs.epochs t hs.mem) hp

theorem StepFrom.pending_nil (hnone : t.pc.result = none) {Q : TokenSet → Prop}
    (hothers : ∀ set ∈ (s.threads.eraseIdx i).filterMap (·.pending s.shared), Q set) :
    ∀ u ∈ s.threads, ∀ set, u.pending s.shared = some set → Q set := by
  intro u hu set hp
  obtain ⟨j, hj⟩ := List.mem_iff_getElem?.1 hu
  by_cases hji : j = i
  · subst hji
    cases hs.here.symm.trans hj
    rw [Thread.pending_eq_some, hnone] at hp
    cases hp.2
  · exact hothers set (List.mem_filterMap.2 ⟨u, List.mem_eraseIdx_iff_getElem?.2 ⟨j, hji, hj⟩, hp⟩)

/-- What this thread has pending after its step is unspent. -/
theorem StepFrom.own_result (hstep : t.pc.step ema s.shared s.threads a = some (sh', pc', new))
    (hturn : t.pc.inTurn s.shared ((s.threads.eraseIdx i).filterMap (·.pending s.shared)) a = true)
    (hr : pc'.result = some (sh'.grantEpoch, set)) : set.Unspent sh' := by
  have hch := Pc.step_change hstep
  have hepoch : sh'.grantEpoch = s.shared.grantEpoch := by
    have hle := Pc.result_epochLe (Pc.step_epochLe hstep (hs.epochs t hs.mem)) hr
    have hge := hch.grantEpoch_le
    omega
  rw [hepoch] at hr
  rcases Pc.step_result hstep hs.kind hr with ⟨hold, hlog⟩ | ⟨d, pre, hpc, htokens, hne, rfl⟩ |
    ⟨d, p, rt, answer, hpc, hp, rfl, rfl, rfl⟩
  · intro rt hrt hrot
    rw [hepoch] at hrot
    exact hs.inv.results t hs.mem set (Thread.pending_eq_some.2 ⟨hs.live, hold⟩) rt hrt
      (hlog _ _ hrot)
  · -- a waiter takes over the set in memory, which no pending one replaces
    refine hs.inv.memory (hs.pending_nil (by rw [hpc]; rfl) fun set' hset' => ?_) set htokens
    simp only [hpc, Pc.inTurn, htokens, bne_self_eq_false, Option.all_some, Bool.false_or,
      Bool.or_eq_true, beq_iff_eq, List.all_eq_true] at hturn
    rcases hturn with hsame | hall
    · exact absurd hsame hne
    · exact htokens.trans (hall set' hset').symm
  · have hposter : t.pc.poster = some (s.shared.grantEpoch, rt) := by
      rw [hpc]
      rcases hp with rfl | rfl <;> rfl
    have halone := hs.inv.alone t hs.mem hs.live rt hposter
    have hfresh : (Answer.post (.success answer)).reissues s.shared s.shared.grantEpoch = false := by
      rw [hpc] at hturn
      rcases hp with rfl | rfl <;> simpa [Pc.inTurn] using hturn
    intro rt' hrt' hrot
    simp only [OAuthAdapterInner.exchanged, List.mem_append, List.mem_cons, reduceCtorEq,
      false_or] at hrot
    cases hanswer : answer.refreshToken with
    | some issued =>
      have hissued : issued = rt' := by simpa [TokenAnswer.tokenSet, hanswer] using hrt'
      subst hissued
      rcases hrot with hrot | hrot
      · split at hrot
        · next hother =>
          cases List.mem_singleton.1 hrot
          simp [hanswer] at hother
        · cases hrot
      · simp [Answer.reissues, hanswer, hrot] at hfresh
    | none =>
      -- without a new one the refresh token in memory is kept
      rcases hrot with hrot | hrot
      · simp [hanswer] at hrot
      · simp only [TokenAnswer.tokenSet, hanswer, Option.none_or, OAuthAdapterInner.refreshToken,
          Option.bind_eq_some_iff] at hrt'
        obtain ⟨held, hheld, hrt'⟩ := hrt'
        refine hs.inv.memory (fun u hu set hset => ?_) held hheld rt' hrt' hrot
        rw [halone u hu] at hset
        cases hset

/-- At most one thread has a refresh token to POST, and none is compared meanwhile. -/
theorem StepFrom.not_holds {j : Nat} (hj : s.threads[j]? = some u) (hne : j ≠ i)
    (hab : u.aborted s.shared = false) (hp : u.pc.poster = some (e, rt)) :
    t.pc.holdsRefreshMutex = false := by
  have hnot := Pool.not_holds_of_ne hs.mutex hj ⟨hab, Pc.poster_holdsRefreshMutex hp⟩ hs.here hne.symm
  simpa [Thread.HoldsRefreshMutex, hs.live] using hnot

theorem StepFrom.other_poster (hch : Change s.shared s.threads t.pc sh') {j : Nat}
    (hj : s.threads[j]? = some u) (hne : j ≠ i) (hab : u.aborted s.shared = false)
    (hp : u.pc.poster = some (e, rt)) : .rotated e rt ∉ sh'.log := by
  intro hrot
  rcases hch.rotated hrot with hold | hposter
  · exact hs.inv.posters u (List.mem_of_getElem? hj) hab e rt hp hold
  · have hmutex := Pc.poster_holdsRefreshMutex hposter
    rw [hs.not_holds hj hne hab hp] at hmutex
    cases hmutex

/-- A refresh reads the refresh token in memory when nothing is pending. -/
theorem StepFrom.read
    (hturn : t.pc.inTurn s.shared ((s.threads.eraseIdx i).filterMap (·.pending s.shared)) a = true)
    (hpc : t.pc = .refreshing d s.shared.grantEpoch .inputs) (hread : s.shared.refreshToken = some rt) :
    (∀ u ∈ s.threads, u.pending s.shared = none) ∧ .rotated s.shared.grantEpoch rt ∉ s.shared.log := by
  have hnone : ∀ u ∈ s.threads, u.pending s.shared = none := by
    intro u hu
    refine Option.eq_none_iff_forall_ne_some.2 fun set hset => ?_
    refine hs.pending_nil (Q := fun _ => False) (by rw [hpc]; rfl) (fun set' hset' => ?_) u hu set hset
    simp only [hpc, Pc.inTurn, hread, bne_self_eq_false, Option.isNone_some, Bool.false_or,
      List.isEmpty_iff] at hturn
    rw [hturn] at hset'
    cases hset'
  refine ⟨hnone, ?_⟩
  simp only [OAuthAdapterInner.refreshToken, Option.bind_eq_some_iff] at hread
  obtain ⟨held, hheld, hrt⟩ := hread
  refine hs.inv.memory (fun u hu set hset => ?_) held hheld rt hrt
  rw [hnone u hu] at hset
  cases hset

theorem StepFrom.own_poster (hstep : t.pc.step ema s.shared s.threads a = some (sh', pc', new))
    (hturn : t.pc.inTurn s.shared ((s.threads.eraseIdx i).filterMap (·.pending s.shared)) a = true)
    (hp : pc'.poster = some (e, rt)) : .rotated e rt ∉ sh'.log := by
  rcases Pc.step_poster hstep hp with ⟨hold, hlog⟩ | ⟨d, hpc, rfl, hread, rfl⟩
  · exact fun hrot => hs.inv.posters t hs.mem hs.live e rt hold (hlog e rt hrot)
  · exact (hs.read hturn hpc hread).2

/-- While a refresh of the current grant has a refresh token to POST, nothing becomes pending. -/
theorem StepFrom.alone (hstep : t.pc.step ema s.shared s.threads a = some (sh', pc', new))
    (hturn : t.pc.inTurn s.shared ((s.threads.eraseIdx i).filterMap (·.pending s.shared)) a = true)
    (hposter : pc'.poster = some (sh'.grantEpoch, rt) ∨
      ∃ j u, s.threads[j]? = some u ∧ j ≠ i ∧ u.aborted s.shared = false ∧
        u.pc.poster = some (sh'.grantEpoch, rt)) :
    (∀ u ∈ s.threads, u.pending s.shared = none) ∧
      ∀ set, pc'.result ≠ some (sh'.grantEpoch, set) := by
  have hch := Pc.step_change hstep
  have hle : sh'.grantEpoch ≤ s.shared.grantEpoch := by
    rcases hposter with hp | ⟨j, u, hj, -, -, hp⟩
    · exact Pc.poster_epochLe (Pc.step_epochLe hstep (hs.epochs t hs.mem)) hp
    · exact Pc.poster_epochLe (hs.epochs u (List.mem_of_getElem? hj)) hp
  have hepoch : sh'.grantEpoch = s.shared.grantEpoch := Nat.le_antisymm hle hch.grantEpoch_le
  rw [hepoch] at hposter
  rcases hposter with hp | ⟨j, u, hj, hne, hab, hp⟩
  · refine ⟨?_, fun set hr => nomatch (Pc.result_of_poster hp).symm.trans hr⟩
    rcases Pc.step_poster hstep hp with ⟨hold, -⟩ | ⟨d, hpc, -, hread, -⟩
    · exact hs.inv.alone t hs.mem hs.live rt hold
    · exact (hs.read hturn hpc hread).1
  · have hnone := hs.inv.alone u (List.mem_of_getElem? hj) hab rt hp
    have hfree := hs.not_holds hj hne hab hp
    refine ⟨hnone, fun set hr => ?_⟩
    rw [hepoch] at hr
    rcases Pc.step_result hstep hs.kind hr with ⟨hold, -⟩ | ⟨d, pre, hpc, -⟩ |
      ⟨d, p, rt', answer, hpc, hpost, -⟩
    · have hpending := Thread.pending_eq_some.2 ⟨hs.live, hold⟩
      rw [hnone t hs.mem] at hpending
      cases hpending
    · rw [hpc] at hfree
      cases hfree
    · rw [hpc] at hfree
      rcases hpost with rfl | rfl <;> cases hfree

/-- What lies in memory after a step is unspent if nothing pending differs from it and no pending set
was lost. -/
theorem StepFrom.memory (hstep : t.pc.step false s.shared s.threads a = some (sh', pc', new))
    (hturn : t.pc.inTurn s.shared ((s.threads.eraseIdx i).filterMap (·.pending s.shared)) a = true)
    (hkept : ∀ u ∈ s.threads, u.aborted sh' = u.aborted s.shared ∨ u.dispensable s.shared = true)
    (hself : t.aborted sh' = false → ∀ set, pc'.result = some (sh'.grantEpoch, set) →
      sh'.tokens = some set)
    (hothers : ∀ j u, j ≠ i → s.threads[j]? = some u → ∀ set, u.pending sh' = some set →
      sh'.tokens = some set) (htokens : sh'.tokens = some set) : set.Unspent sh' := by
  have hch := Pc.step_change hstep
  intro rt hrt hrot
  by_cases hepoch : sh'.grantEpoch = s.shared.grantEpoch
  swap
  · -- nothing of a new epoch is rotated out
    have hle := hs.rotated hch hrot
    rcases hch.grantEpoch with he | ⟨-, he⟩ <;> omega
  rcases Pc.step_rotated hstep hrot with hold | ⟨⟨set', hr⟩, haborted⟩
  swap
  · -- the set that came with the rotation is pending, so it is the one in memory
    have hlive : t.aborted sh' = false := by
      have hab := hs.live
      unfold Thread.aborted at hab ⊢
      rwa [haborted]
    have hset := hself hlive set' hr
    rw [htokens] at hset
    cases hset
    exact hs.own_result hstep hturn hr rt hrt hrot
  rw [hepoch] at hold
  rcases hch.tokens with hsame | ⟨stored, hpc, hstored⟩ | hnone | ⟨d, ap, hpc, hap⟩
  · refine hs.inv.memory (fun u hu set' hpending => ?_) set (hsame ▸ htokens) rt hrt hold
    rcases hkept u hu with hab | hdisp
    · obtain ⟨hlive, hr⟩ := Thread.pending_eq_some.1 hpending
      obtain ⟨j, hj⟩ := List.mem_iff_getElem?.1 hu
      rw [← hsame]
      by_cases hji : j = i
      · subst hji
        cases hs.here.symm.trans hj
        rcases Pc.step_keeps_result hstep hr with hr' | hwritten
        · exact hself (hab.trans hlive) set' (hepoch ▸ hr')
        · exact hwritten
      · refine hothers j u hji hj set' (Thread.pending_eq_some.2 ⟨hab.trans hlive, ?_⟩)
        rw [hepoch]
        exact hr
    · rw [Thread.dispensable, hpending] at hdisp
      exact (by simpa using hdisp : some set' = s.shared.tokens).symm
  · rw [hstored] at htokens
    cases htokens
    rw [hpc, Pc.inTurn, hrt] at hturn
    simp [hold] at hturn
  · rw [hnone] at htokens
    cases htokens
  · rw [hap] at htokens
    cases htokens
    cases hre : ap.refreshEpoch with
    | none =>
      refine hs.inv.granted ⟨t, hs.mem, hs.live, ?_⟩ rt hold
      simp [hpc, Pc.movedEpoch, hre]
    | some e =>
      have he : e = s.shared.grantEpoch := by
        have hanchored := hs.anchored
        rw [hpc] at hanchored
        exact hanchored e hre
      subst he
      refine hs.inv.results t hs.mem ap.tokenSet (Thread.pending_eq_some.2 ⟨hs.live, ?_⟩) rt hrt hold
      simp [hpc, Pc.result, ApplyPc.beforeMemory, hre]

theorem StepFrom.granted (hstep : t.pc.step ema s.shared s.threads a = some (sh', pc', new))
    (hmoved : pc'.movedEpoch = true ∨
      ∃ w ∈ s.threads, w.aborted s.shared = false ∧ w.pc.movedEpoch = true) :
    .rotated sh'.grantEpoch rt ∉ sh'.log := by
  intro hrot
  have hch := Pc.step_change hstep
  by_cases hepoch : sh'.grantEpoch = s.shared.grantEpoch
  · have hbefore : ∃ w ∈ s.threads, w.aborted s.shared = false ∧ w.pc.movedEpoch = true := by
      rcases hmoved with hp | hw
      · rcases Pc.step_movedEpoch hstep hp with hb | hp
        · omega
        · exact ⟨t, hs.mem, hs.live, hp⟩
      · exact hw
    rw [hepoch] at hrot
    rcases hch.rotated hrot with hold | hposter
    · exact hs.inv.granted hbefore rt hold
    · exact hs.unengaged hbefore t hs.mem (Pc.poster_engaged hposter)
  · have hle := hs.rotated hch hrot
    rcases hch.grantEpoch with he | ⟨-, he⟩ <;> omega

end

/-- A task that is alive before a step and not after it was aborted by it. -/
theorem Change.thread_kept (hch : Change sh ts pc sh')
    (habort : (u.task.isNone || u.task != pc.aborts sh || u.dispensable sh) = true) :
    u.aborted sh' = u.aborted sh ∨ u.dispensable sh = true := by
  cases hab : u.aborted sh' with
  | false => exact .inl (hch.thread_aborted hab).symm
  | true =>
    unfold Thread.aborted at hab ⊢
    cases htask : u.task with
    | none => simp [htask] at hab
    | some id =>
      rw [htask] at hab habort
      simp only [Option.any_some, List.contains_eq_mem, decide_eq_true_eq] at hab ⊢
      rcases hch.aborts id hab with hold | haborts
      · simp [hold]
      · simpa [haborts] using Or.inr habort

/-- **One step keeps what is unspent.** -/
theorem StepFrom.step (hs : StepFrom s i t)
    (hstep : t.pc.step false s.shared s.threads a = some (sh', pc', new))
    (hturn : t.pc.inTurn s.shared ((s.threads.eraseIdx i).filterMap (·.pending s.shared)) a = true)
    (habort : ∀ u ∈ s.threads,
      (u.task.isNone || u.task != t.pc.aborts s.shared || u.dispensable s.shared) = true) :
    TokensUnspent ⟨sh', Pool.stepped s.threads i { t with pc := pc' } new⟩ := by
  have hch := Pc.step_change hstep
  have hspawned : ∀ u ∈ new, u.pc.poster = none ∧ u.pc.result = none ∧ u.pc.movedEpoch = false := by
    intro u hu
    rcases Pc.step_new hstep u hu with hp | hp <;> rw [hp] <;> exact ⟨rfl, rfl, rfl⟩
  have hnewnone : ∀ u ∈ new, u.pending sh' = none := by
    intro u hu
    refine Option.eq_none_iff_forall_ne_some.2 fun set hset => ?_
    rw [Thread.pending_eq_some, (hspawned u hu).2.1] at hset
    cases hset.2
  have hother : ∀ {j : Nat} {u : Thread} {set : TokenSet}, s.threads[j]? = some u → u.pending sh' = some set →
      u.pending s.shared = some set ∧ sh'.grantEpoch = s.shared.grantEpoch := fun hj hp =>
    Thread.pending_of_change hch (hs.epochs _ (List.mem_of_getElem? hj)) hp
  refine ⟨fun e rt hrot => ?_, ?_, ?_, ?_, ?_, ?_⟩
  · exact Nat.le_trans (hs.rotated hch hrot) hch.grantEpoch_le
  · refine Pool.forall_mem_stepped (fun _ e rt hp => hs.own_poster hstep hturn hp) ?_
      fun j u hne hj hab e rt hp => ?_
    · intro u hu _ e rt hp
      rw [(hspawned u hu).1] at hp
      cases hp
    · exact hs.other_poster hch hj hne (hch.thread_aborted hab) hp
  · intro v hv hab rt hp
    have hposter : pc'.poster = some (sh'.grantEpoch, rt) ∨
        ∃ j u, s.threads[j]? = some u ∧ j ≠ i ∧ u.aborted s.shared = false ∧
          u.pc.poster = some (sh'.grantEpoch, rt) := by
      rcases Pool.mem_stepped hv with rfl | hv | ⟨j, hne, hj⟩
      · exact .inl hp
      · rw [(hspawned v hv).1] at hp
        cases hp
      · exact .inr ⟨j, v, hj, hne, hch.thread_aborted hab, hp⟩
    have halone := hs.alone hstep hturn hposter
    refine Pool.forall_mem_stepped ?_ hnewnone fun j u _ hj => ?_
    · refine Option.eq_none_iff_forall_ne_some.2 fun set hset => ?_
      exact halone.2 set (Thread.pending_eq_some.1 hset).2
    · refine Option.eq_none_iff_forall_ne_some.2 fun set hset => ?_
      have hold := (hother hj hset).1
      rw [halone.1 u (List.mem_of_getElem? hj)] at hold
      cases hold
  · refine Pool.forall_mem_stepped (fun set hset => ?_) ?_ fun j u hne hj set hset => ?_
    · exact hs.own_result hstep hturn (Thread.pending_eq_some.1 hset).2
    · intro u hu set hset
      rw [hnewnone u hu] at hset
      cases hset
    · -- a set that is pending elsewhere is not the one POSTed here
      obtain ⟨hold, hepoch⟩ := hother hj hset
      intro rt hrt hrot
      rw [hepoch] at hrot
      rcases hch.rotated hrot with hrot | hposter
      · exact hs.inv.results u (List.mem_of_getElem? hj) set hold rt hrt hrot
      · rw [hs.inv.alone t hs.mem hs.live rt hposter u (List.mem_of_getElem? hj)] at hold
        cases hold
  · intro hsame set htokens
    refine hs.memory hstep hturn (fun u hu => hch.thread_kept (habort u hu)) (fun hab set' hr => ?_)
      (fun j u hne hj set' hset => ?_) htokens
    · exact hsame _ (Pool.mem_stepped_self hs.here) set' (Thread.pending_eq_some.2 ⟨hab, hr⟩)
    · exact hsame u (Pool.mem_stepped_of_ne hj hne) set' hset
  · rintro ⟨w, hw, hab, hp⟩ rt
    refine hs.granted hstep ?_
    rcases Pool.mem_stepped hw with rfl | hw | ⟨j, -, hj⟩
    · exact .inl hp
    · rw [(hspawned w hw).2.2] at hp
      cases hp
    · exact .inr ⟨w, List.mem_of_getElem? hj, hch.thread_aborted hab, hp⟩

/-- A future that is dropped takes no pending set with it that memory lacks. -/
theorem TokensUnspent.drop (hinv : TokensUnspent s) (hi : s.threads[i]? = some t)
    (hdisp : t.dispensable s.shared = true) :
    TokensUnspent ⟨s.shared, Pool.stepped s.threads i { t with pc := .done } []⟩ := by
  have hdone : Thread.pending s.shared { t with pc := .done } = none := by
    unfold Thread.pending
    split <;> rfl
  refine ⟨hinv.past, ?_, ?_, ?_, ?_, ?_⟩
  · refine Pool.forall_mem_stepped (fun _ _ _ hp => nomatch hp) (List.forall_mem_nil _)
      fun j u _ hj => hinv.posters u (List.mem_of_getElem? hj)
  · refine Pool.forall_mem_stepped (fun _ _ hp => nomatch hp) (List.forall_mem_nil _)
      fun j u _ hj hab rt hp => ?_
    have halone := hinv.alone u (List.mem_of_getElem? hj) hab rt hp
    exact Pool.forall_mem_stepped hdone (List.forall_mem_nil _) fun k v _ hk =>
      halone v (List.mem_of_getElem? hk)
  · refine Pool.forall_mem_stepped (fun set hset => ?_) (List.forall_mem_nil _)
      fun j u _ hj => hinv.results u (List.mem_of_getElem? hj)
    rw [hdone] at hset
    cases hset
  · intro hsame
    refine hinv.memory fun u hu set hset => ?_
    obtain ⟨j, hj⟩ := List.mem_iff_getElem?.1 hu
    by_cases hji : j = i
    · subst hji
      cases hi.symm.trans hj
      rw [Thread.dispensable, hset] at hdisp
      exact (by simpa using hdisp : some set = s.shared.tokens).symm
    · exact hsame u (Pool.mem_stepped_of_ne hj hji) set hset
  · rintro ⟨w, hw, hab, hp⟩
    rcases Pool.mem_stepped hw with rfl | hw | ⟨j, -, hj⟩
    · cases hp
    · cases hw
    · exact hinv.granted ⟨w, List.mem_of_getElem? hj, hab, hp⟩

theorem TokensUnspent.launch {op : Op} (hinv : TokensUnspent s)
    (ht : op.launch ema s.shared s.threads = some t) :
    TokensUnspent { s with threads := s.threads ++ [t] } := by
  obtain ⟨hposter, hresult, hmoved⟩ := Op.launch_poster ht
  have hnone : t.pending s.shared = none := by
    refine Option.eq_none_iff_forall_ne_some.2 fun set hset => ?_
    rw [Thread.pending_eq_some, hresult] at hset
    cases hset.2
  have hcons : ∀ {Q : Thread → Prop}, (∀ u ∈ s.threads, Q u) → Q t → ∀ u ∈ s.threads ++ [t], Q u :=
    fun hold hnew => List.forall_mem_append.2 ⟨hold, List.forall_mem_singleton.2 hnew⟩
  refine ⟨hinv.past, ?_, ?_, ?_, ?_, ?_⟩
  · exact hcons hinv.posters fun _ e rt hp => nomatch hposter.symm.trans hp
  · refine hcons (fun u hu hab rt hp => ?_) fun _ rt hp => nomatch hposter.symm.trans hp
    exact hcons (hinv.alone u hu hab rt hp) hnone
  · exact hcons hinv.results fun set hset => nomatch hnone.symm.trans hset
  · exact fun hsame => hinv.memory fun u hu => hsame u (List.mem_append_left _ hu)
  · rintro ⟨w, hw, hab, hp⟩
    rcases List.mem_append.1 hw with hw | hw
    · exact hinv.granted ⟨w, hw, hab, hp⟩
    · rw [List.mem_singleton.1 hw, hmoved] at hp
      cases hp

theorem tokens_unspent
    (h : (oauthPool false).system.ReachableWhile (fun s a => commitsInTurn false s a = true) s) :
    TokensUnspent s := by
  refine Pool.invariant_of (I := fun s =>
    (oauthPool false).system.ReachableWhile (fun s a => commitsInTurn false s a = true) s)
    (fun _ h => h) ?_ ?_ ?_ h
  · rintro sh ⟨disk, rfl⟩
    exact ⟨fun _ _ hr => (nomatch hr), List.forall_mem_nil _, List.forall_mem_nil _,
      List.forall_mem_nil _, fun _ _ ht => (nomatch ht), fun _ _ hr => (nomatch hr)⟩
  · intro s op t _ hJ _ ht
    exact hJ.launch ht
  · intro s i c t sh' t' new hreach hJ hok hi hst
    obtain ⟨hab, ⟨rfl, rfl, rfl, rfl⟩ | ⟨a, pc', rfl, hstep, rfl⟩⟩ := Thread.step_cases hst
    · refine hJ.drop hi ?_
      simpa [commitsInTurn, hi] using hok
    · have hti := List.mem_of_getElem? hi
      simp only [commitsInTurn, hi, Bool.false_or, Bool.and_eq_true, List.all_eq_true] at hok
      exact StepFrom.step ⟨hi, hab, epochs_le hreach, refreshMutex_exclusive hreach,
        nobody_engaged hreach, threads_anchored hreach t hti hab, threads_ofKind hreach t hti, hJ⟩
        hstep hok.1 hok.2

/-- **No refresh token is replayed** within a grant epoch, in every run in which sets are committed in
turn. -/
theorem no_refresh_token_replay
    (h : (oauthPool ema).system.ReachableWhile (fun s a => commitsInTurn ema s a = true) s) :
    NoReplay s.shared.log := by
  cases ema with
  | true => exact no_posters_of_ema h
  | false =>
    refine Pool.invariant_of (J := fun s => NoReplay s.shared.log) (fun _ h => tokens_unspent h)
      ?_ ?_ ?_ h
    · rintro sh ⟨disk, rfl⟩
      trivial
    · intro s op t _ hJ _ _
      exact hJ
    · intro s i c t sh' t' new hinv hJ _ hi hst
      exact (Thread.step_change hst).noReplay hJ
        (hinv.posters t (List.mem_of_getElem? hi) (Thread.step_cases hst).1)

end Runs

/-- Two requests get a 401. The first refreshes; the second waits for the mutex, takes it before the
first commits, and reads what is still in memory. -/
def waitingRefresh : List (Pool.Action Op Choice) :=
  login ++ .launch .unauthorized :: proceeds 6 2 ++ .launch .unauthorized :: proceeds 2 3 ++
    .run 2 (.resume (.post (.success secondTokens))) :: proceeds 4 3 ++
    [.run 3 (.resume (.post .httpError))]

def replayed : Pool.State OAuthAdapterInner Thread :=
  ((oauthPool false).system.run ⟨.new none, []⟩ waitingRefresh).getD ⟨.new none, []⟩

/-- The second request POSTs the refresh token the first has had rotated. -/
theorem waiting_refresh_replays :
    (oauthPool false).system.Reachable replayed ∧ ¬ NoReplay replayed.shared.log := by
  have hrun : (oauthPool false).system.run ⟨.new none, []⟩ waitingRefresh = some replayed := rfl
  refine ⟨(System.Reachable.init (oauthPool_init false none)).run hrun, ?_⟩
  decide

/-- The proactive refresh commits before a request reads the refresh token. -/
def refreshesInTurn : List (Pool.Action Op Choice) :=
  login ++ proceeds 8 1 ++ .run 1 (.resume (.post (.success secondTokens))) :: proceeds 10 1 ++
    .launch .unauthorized :: proceeds 6 3 ++ [.run 3 (.resume (.post .network))]

def inTurn : Pool.State OAuthAdapterInner Thread :=
  ((oauthPool false).system.runWhile (commitsInTurn false) ⟨.new none, []⟩ refreshesInTurn).getD
    ⟨.new none, []⟩

theorem refreshed_twice :
    .posted 1 "refresh-2" ∈ inTurn.shared.log ∧ .rotated 1 "refresh-1" ∈ inTurn.shared.log ∧
      NoReplay inTurn.shared.log := by
  have hrun : (oauthPool false).system.runWhile (commitsInTurn false) ⟨.new none, []⟩ refreshesInTurn =
      some inTurn := rfl
  exact ⟨by decide, by decide, no_refresh_token_replay
    ((System.ReachableWhile.init (oauthPool_init false none)).run (fun _ _ h => h) hrun)⟩

end EndaraRelay
