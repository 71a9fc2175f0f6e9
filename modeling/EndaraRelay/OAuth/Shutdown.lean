import EndaraRelay.OAuth.Interleaving

/-!
# The OAuth adapter: shutdown is final

`shutdown` aborts the heartbeat and whatever task is in the refresh slot, drops the inner adapter and
goes to `Disconnected`. It takes no lock and leaves the grant epoch alone, so it does not reach an
operation that is under way: a proactive refresh takes its handle out of the slot before it starts,
and sleeps a minute without it when it fails; a manual refresh never had one. Such an operation
commits afterwards and the adapter is back (`refresh_outlives_shutdown`).

`shutdown_is_final` says when it is final: when, as it returns, every other thread is `harmless`.
`Revives` is what must not happen, and `harmless` is kept by every step until a new grant is applied.
-/

namespace EndaraRelay

open Verif

variable {ema : Bool} {sh sh' : OAuthAdapterInner} {ts new : List Thread} {t t' u : Thread}
  {c : Choice} {a : Answer} {pc pc' : Pc}

/-- The step brings the adapter back: it leaves `Disconnected`, installs an inner adapter or arms a
proactive refresh. -/
def Revives (sh sh' : OAuthAdapterInner) : Prop :=
  (sh.state = .disconnected ∧ sh'.state ≠ .disconnected) ∨
    ∃ evs, sh'.log = evs ++ sh.log ∧ (.installed ∈ evs ∨ .armed ∈ evs)

/-- A driver that does not try again when its refresh fails. -/
def Driver.oneShot : Driver → Bool
  | .reactive | .manual | .proactiveRetry | .callback => true
  | .startup | .heartbeat | .proactive => false

/-- A place from which nothing but a new grant can bring the adapter back: a disconnect, a login
before its commit, an application with nothing left but to keep the set or the handle, and what
belongs to a grant that is gone, unless its driver tries again. -/
def Pc.harmless (ema : Bool) (sh : OAuthAdapterInner) : Pc → Bool
  | .disconnecting _ => true
  | .save _ => true
  | .applying d ap .lock =>
    match ap.refreshEpoch with
    | none => true
    | some e => d.returned == .done && decide (e < sh.grantEpoch)
  | .applying d ap .remembering => d.returned == .done && !ap.tokenSet.schedules ema
  | .applying d _ (.storing _) => d.returned == .done
  | .refreshing _ _ (.emaSave _) => false
  | .refreshing d e _ => d.oneShot && decide (e < sh.grantEpoch)
  | .followUp d e _ => d.returned == .done && decide (e < sh.grantEpoch)
  | .done => true
  | _ => false

def Thread.harmless (ema : Bool) (sh : OAuthAdapterInner) (t : Thread) : Bool :=
  t.aborted sh || t.pc.harmless ema sh

/-- `shutdown` returns while every other thread is harmless. -/
def quietShutdown (ema : Bool) (s : Pool.State OAuthAdapterInner Thread) :
    Pool.Action Op Choice → Bool
  | .run i (.resume _) =>
    match pcAt s i with
    | some (.shuttingDown .settling) => (s.threads.eraseIdx i).all (·.harmless ema s.shared)
    | _ => true
  | _ => true

/-! ## What is harmless stays so -/

theorem Pc.harmless_mono (hle : sh.grantEpoch ≤ sh'.grantEpoch) (h : pc.harmless ema sh = true) :
    pc.harmless ema sh' = true := by
  have hlt : ∀ {e : Nat}, e < sh.grantEpoch → e < sh'.grantEpoch := fun h => by omega
  cases pc with
  | applying d ap p =>
    cases p with
    | lock =>
      cases hre : ap.refreshEpoch with
      | none => simp [Pc.harmless, hre]
      | some e =>
        simp only [Pc.harmless, hre, Bool.and_eq_true, decide_eq_true_eq] at h ⊢
        exact ⟨h.1, hlt h.2⟩
    | remembering => exact h
    | storing task => exact h
    | _ => cases h
  | refreshing d e p =>
    cases p with
    | emaSave set => cases h
    | _ =>
      simp only [Pc.harmless, Bool.and_eq_true, decide_eq_true_eq] at h ⊢
      exact ⟨h.1, hlt h.2⟩
  | followUp d e err =>
    simp only [Pc.harmless, Bool.and_eq_true, decide_eq_true_eq] at h ⊢
    exact ⟨h.1, hlt h.2⟩
  | disconnecting p => rfl
  | save set => rfl
  | done => rfl
  | _ => cases h

/-- The steps of others leave a harmless thread harmless. -/
theorem Thread.harmless_of_change (hch : Change sh ts pc sh') (h : u.harmless ema sh = true) :
    u.harmless ema sh' = true := by
  simp only [Thread.harmless, Bool.or_eq_true] at h ⊢
  rcases h with hab | hpc
  · left
    by_contra hne
    rw [hch.thread_aborted (by simpa using hne)] at hab
    cases hab
  · exact .inr (Pc.harmless_mono hch.grantEpoch_le hpc)

/-- What the record of the last shutdown becomes. -/
theorem Change.shutdownReturned (h : Change sh ts pc sh') :
    sh'.shutdownReturned = sh.shutdownReturned ∨ sh'.shutdownReturned = none ∨
      pc = .shuttingDown .settling ∧ sh'.shutdownReturned = some ts.length := by
  cases h with
  | newGrant => exact .inr (.inl rfl)
  | shutdownSettling => exact .inr (.inr ⟨rfl, rfl⟩)
  | _ => left; simp

/-! ## A harmless thread brings nothing back -/

theorem not_revives_of_eq (h : sh' = sh) : ¬ Revives sh sh' := by
  subst h
  rintro (⟨hd, hnd⟩ | ⟨evs, hlog, hev⟩)
  · exact hnd hd
  · have hnil : evs = [] := by simpa using hlog
    simp [hnil] at hev

/-- A step that logs neither kind of event and does not leave `Disconnected`. -/
theorem not_revives (evs : List Event) (hlog : sh'.log = evs ++ sh.log)
    (hevs : ∀ ev ∈ evs, ev ≠ .installed ∧ ev ≠ .armed)
    (hstate : sh.state = .disconnected → sh'.state = .disconnected) : ¬ Revives sh sh' := by
  rintro (⟨hd, hnd⟩ | ⟨evs', hlog', hev⟩)
  · exact hnd (hstate hd)
  · have heq : evs' = evs := List.append_cancel_right (hlog'.symm.trans hlog)
    subst heq
    rcases hev with hev | hev
    · exact (hevs _ hev).1 rfl
    · exact (hevs _ hev).2 rfl

/-- A refresh of a grant that is gone at most POSTs; it transitions and saves nothing. -/
theorem RefreshPc.step_stale {p : RefreshPc} {m f : Bool} {e : Nat} {next : RefreshNext}
    (h : p.step sh m f e a = some (sh', next)) (hstale : e < sh.grantEpoch)
    (hp : ∀ set, p ≠ .emaSave set) :
    ¬ Revives sh sh' ∧ sh'.grantEpoch = sh.grantEpoch ∧ ∀ set, next ≠ .at (.emaSave set) := by
  have hne : sh.grantEpoch ≠ e := by omega
  have hrejected : ∀ rt, ¬ Revives sh (sh.rejected e rt) := fun rt =>
    not_revives [.posted e rt] rfl (by simp) id
  have hexchanged : ∀ rt answered, ¬ Revives sh (sh.exchanged e rt answered) := by
    intro rt answered
    refine not_revives ((if answered.any (· != rt) then [.rotated e rt] else []) ++
      [.posted e rt]) (by simp [OAuthAdapterInner.exchanged]) ?_ id
    split <;> simp
  cases p with
  | emaSave set => exact absurd rfl (hp set)
  | emaGuard set =>
    simp only [RefreshPc.step, if_pos hne.symm] at h
    split at h
    · cases h
    · cases h
      exact ⟨not_revives_of_eq rfl, rfl, by simp⟩
  | _ =>
    simp only [RefreshPc.step, sh.transitionIfCurrent_of_ne e _ hne, sh.failIfCurrent_of_ne e _ hne]
      at h
    (repeat' split at h) <;>
      simp only [Option.some.injEq, Prod.mk.injEq, reduceCtorEq] at h <;> obtain ⟨rfl, rfl⟩ := h <;>
      simp [not_revives_of_eq, hrejected, hexchanged]

theorem Driver.oneShot_onErr {d : Driver} {e : Nat} (hd : d.oneShot = true)
    (he : e < sh.grantEpoch) (err : OAuthError) : (d.onErr ema e err).harmless ema sh = true := by
  cases d with
  | startup | heartbeat | proactive => cases hd
  | _ => simp [Driver.onErr, Driver.returned, Pc.harmless, he]

theorem Driver.oneShot_onOk {d : Driver} {e : Nat} (hd : d.oneShot = true)
    (he : e < sh.grantEpoch) (set : TokenSet) : (d.onOk ema e set).harmless ema sh = true := by
  cases d with
  | startup | heartbeat | proactive => cases hd
  | _ => simp [Driver.onOk, Driver.returned, Pc.harmless, he]

/-- **A harmless step.** It brings nothing back, and leaves the thread harmless or applies a new
grant. -/
theorem Pc.harmless_step (h : pc.step ema sh ts a = some (sh', pc', new))
    (hh : pc.harmless ema sh = true) :
    ¬ Revives sh sh' ∧ (sh'.shutdownReturned = none ∨ pc'.harmless ema sh' = true) := by
  cases pc with
  | disconnecting p =>
    obtain ⟨hst, -⟩ := Pc.step_disconnecting h
    have hpc' : pc'.harmless ema sh' = true := by
      cases p <;> simp only [DisconnectPc.step] at hst <;> (repeat' split at hst) <;> cases hst <;> rfl
    refine ⟨?_, .inr hpc'⟩
    cases Pc.step_change h with
    | idle => exact not_revives_of_eq rfl
    | disconnected => exact not_revives [_] rfl (by simp) fun _ => rfl
    | _ => exact not_revives [] rfl (by simp) id
  | save set =>
    simp only [Pc.step] at h
    split at h
    · cases h
      exact ⟨not_revives [] rfl (by simp) id, .inr rfl⟩
    · cases h
      exact ⟨not_revives_of_eq rfl, .inr rfl⟩
    · cases h
  | applying d ap p =>
    cases p with
    | lock =>
      obtain ⟨next, spawned, hst, rfl, -⟩ := Pc.step_applying h
      simp only [ApplyPc.step] at hst
      split at hst
      · cases hst
      · cases hre : ap.refreshEpoch with
        | none =>
          rw [hre] at hst
          cases hst
          exact ⟨not_revives [] rfl (by simp) id, .inl rfl⟩
        | some e =>
          simp only [Pc.harmless, hre, Bool.and_eq_true, beq_iff_eq, decide_eq_true_eq] at hh
          rw [hre] at hst
          dsimp only at hst
          rw [if_pos (by omega)] at hst
          cases hst
          exact ⟨not_revives_of_eq rfl, .inr (by simp [ApplyNext.pc, hh.1, Pc.harmless])⟩
    | remembering =>
      simp only [Pc.harmless, Bool.and_eq_true, beq_iff_eq, Bool.not_eq_true'] at hh
      obtain ⟨next, spawned, hst, rfl, -⟩ := Pc.step_applying h
      simp only [ApplyPc.step, hh.2, Bool.false_eq_true, if_false] at hst
      cases hst
      refine ⟨not_revives (ap.effect sh .memory) rfl ?_ id,
        .inr (by simp [ApplyNext.pc, hh.1, Pc.harmless])⟩
      simp [Apply.effect]
    | storing task =>
      simp only [Pc.harmless, beq_iff_eq] at hh
      obtain ⟨next, spawned, hst, rfl, -⟩ := Pc.step_applying h
      cases hst
      exact ⟨not_revives [] rfl (by simp) id,
        .inr (by simp [ApplyNext.pc, hh, Pc.harmless])⟩
    | _ => cases hh
  | refreshing d e p =>
    have hp : ∀ set, p ≠ .emaSave set := by
      intro set hp
      rw [hp] at hh
      cases hh
    have hd : d.oneShot = true ∧ e < sh.grantEpoch := by
      cases p <;> simp_all [Pc.harmless]
    obtain ⟨next, hst, rfl, -⟩ := Pc.step_refreshing h
    obtain ⟨hrev, hepoch, hnext⟩ := RefreshPc.step_stale hst hd.2 hp
    have hlt : e < sh'.grantEpoch := hepoch ▸ hd.2
    refine ⟨hrev, .inr ?_⟩
    cases next with
    | ok set => exact Driver.oneShot_onOk hd.1 hlt set
    | err failure => exact Driver.oneShot_onErr hd.1 hlt failure
    | «at» p' =>
      cases p' with
      | emaSave set => exact absurd rfl (hnext set)
      | _ => simp [RefreshNext.pc, Pc.harmless, hd.1, hlt]
  | followUp d e err =>
    simp only [Pc.harmless, Bool.and_eq_true, beq_iff_eq, decide_eq_true_eq] at hh
    simp only [Pc.step, sh.failIfCurrent_of_ne e _ (by omega)] at h
    split at h
    · cases h
      exact ⟨not_revives_of_eq rfl, .inr (by simp [hh.1, Pc.harmless])⟩
    · cases h
  | done => cases h
  | _ => cases hh

theorem Thread.harmless_step (h : t.step ema sh ts c = some (sh', t', new))
    (hh : t.harmless ema sh = true) :
    ¬ Revives sh sh' ∧ (sh'.shutdownReturned = none ∨ t'.harmless ema sh' = true) := by
  obtain ⟨hab, ⟨hsh, rfl, -, -⟩ | ⟨a, pc', -, hpc, rfl⟩⟩ := Thread.step_cases h
  · exact ⟨not_revives_of_eq hsh, .inr (by simp [Thread.harmless, Pc.harmless])⟩
  · simp only [Thread.harmless, hab, Bool.false_or] at hh
    obtain ⟨hrev, hnone | hh'⟩ := Pc.harmless_step hpc hh
    · exact ⟨hrev, .inl hnone⟩
    · exact ⟨hrev, .inr (by simp [Thread.harmless, hh'])⟩

/-! ## Runs -/

section Runs

variable {s s' : Pool.State OAuthAdapterInner Thread} {i n : Nat}

/-- The first `n` threads are harmless. -/
def HarmlessBefore (ema : Bool) (n : Nat) (s : Pool.State OAuthAdapterInner Thread) : Prop :=
  n ≤ s.threads.length ∧ ∀ j < n, ∀ u, s.threads[j]? = some u → u.harmless ema s.shared = true

theorem HarmlessBefore.launch (h : HarmlessBefore ema n s) :
    HarmlessBefore ema n { s with threads := s.threads ++ [t] } := by
  obtain ⟨hle, hold⟩ := h
  refine ⟨by simp; omega, fun j hj u hu => hold j hj u ?_⟩
  rwa [List.getElem?_append_left (by omega)] at hu

theorem HarmlessBefore.stepped (hle : n ≤ s.threads.length)
    (hch : Change s.shared s.threads t.pc sh')
    (hothers : ∀ j < n, j ≠ i → ∀ u, s.threads[j]? = some u → u.harmless ema s.shared = true)
    (hself : i < n → t'.harmless ema sh' = true) :
    HarmlessBefore ema n ⟨sh', Pool.stepped s.threads i t' new⟩ := by
  refine ⟨by simp [Pool.stepped]; omega, fun j hj u hu => ?_⟩
  dsimp only at hu
  unfold Pool.stepped at hu
  rw [List.getElem?_append_left (by simp; omega)] at hu
  by_cases hji : j = i
  · subst hji
    rw [List.getElem?_set_self (by omega)] at hu
    cases hu
    exact hself hj
  · rw [List.getElem?_set_ne (Ne.symm hji)] at hu
    exact Thread.harmless_of_change hch (hothers j hj hji u hu)

/-- What was there when `shutdown` returned is harmless until a new grant is applied. -/
theorem harmless_since_shutdown
    (h : (oauthPool ema).system.ReachableWhile (fun s a => quietShutdown ema s a = true) s) :
    ∀ n, s.shared.shutdownReturned = some n → HarmlessBefore ema n s := by
  refine Pool.invariant_of (I := fun _ => True)
    (J := fun s => ∀ n, s.shared.shutdownReturned = some n → HarmlessBefore ema n s)
    (fun _ _ => trivial) ?_ ?_ ?_ h
  · intro sh hsh n hn
    obtain ⟨disk, rfl⟩ := hsh
    cases hn
  · intro s op t _ hJ _ _ n hn
    exact (hJ n hn).launch
  · intro s i c t sh' t' new _ hJ hok hi hst n hn
    have hch := Thread.step_change hst
    -- unless the step is the return of a shutdown, the record was there before
    have hsame : s.shared.shutdownReturned = some n →
        HarmlessBefore ema n ⟨sh', Pool.stepped s.threads i t' new⟩ := by
      intro hsame
      obtain ⟨hle, hold⟩ := hJ n hsame
      refine HarmlessBefore.stepped hle hch (fun j hj _ => hold j hj) fun hin => ?_
      rcases (Thread.harmless_step hst (hold i hin t hi)).2 with hnone | hself
      · exact nomatch hnone.symm.trans hn
      · exact hself
    rcases hch.shutdownReturned with hkept | hnone | ⟨hpc, hcount⟩
    · exact hsame (hkept ▸ hn)
    · exact nomatch hnone.symm.trans hn
    · obtain rfl : s.threads.length = n := Option.some.inj (hcount.symm.trans hn)
      obtain ⟨-, ⟨hsh, -, -, -⟩ | ⟨a, pc', rfl, hstep, rfl⟩⟩ := Thread.step_cases hst
      · exact hsame (hsh ▸ hcount)
      · have hquiet : ∀ u ∈ s.threads.eraseIdx i, u.harmless ema s.shared = true := by
          simpa [quietShutdown, pcAt, hi, hpc] using hok
        refine HarmlessBefore.stepped (Nat.le_refl _) hch (fun j _ hji u hu =>
          hquiet u (List.mem_eraseIdx_iff_getElem?.2 ⟨j, hji, hu⟩)) fun _ => ?_
        rw [hpc] at hstep
        cases hstep
        simp [Thread.harmless, Pc.harmless, ShutdownPc.step]

/-- **Shutdown is final.** In every run in which each `shutdown` returns while the other threads are
harmless, no thread that was there when it returned brings the adapter back, until a new grant is
applied. -/
theorem shutdown_is_final
    (h : (oauthPool ema).system.ReachableWhile (fun s a => quietShutdown ema s a = true) s)
    (hn : s.shared.shutdownReturned = some n) (hi : i < n)
    (hst : (oauthPool ema).system.step s (.run i c) = some s') :
    ¬ Revives s.shared s'.shared := by
  obtain ⟨t, sh', t', new, ht, hstep, rfl⟩ := Pool.next_run hst
  exact (Thread.harmless_step hstep ((harmless_since_shutdown h n hn).2 i hi t ht)).1

end Runs

/-- The proactive refresh has POSTed when the endpoint is shut down; its answer arrives afterwards. -/
def shutdownDuringRefresh : List (Pool.Action Op Choice) :=
  login ++ proceeds 8 1 ++ .launch .shutdown :: proceeds 4 2 ++
    .run 1 (.resume (.post (.success secondTokens))) :: proceeds 5 1

def beforeRevival : Pool.State OAuthAdapterInner Thread :=
  ((oauthPool false).system.run ⟨.new none, []⟩ shutdownDuringRefresh).getD ⟨.new none, []⟩

/-- The refresh installs its inner adapter in an endpoint that has been shut down. -/
theorem refresh_outlives_shutdown :
    (oauthPool false).system.Reachable beforeRevival ∧
      beforeRevival.shared.shutdownReturned = some 3 ∧
      ∃ s', (oauthPool false).system.step beforeRevival (.run 1 (.resume .proceed)) = some s' ∧
        Revives beforeRevival.shared s'.shared := by
  have hrun : (oauthPool false).system.run ⟨.new none, []⟩ shutdownDuringRefresh =
      some beforeRevival := rfl
  exact ⟨(System.Reachable.init (oauthPool_init false none)).run hrun, rfl, _, rfl,
    .inr ⟨[.installed], rfl, .inl (by decide)⟩⟩

/-- The endpoint is shut down while the proactive task sleeps and a disconnect waits for its turn. -/
def shutdownAtRest : List (Pool.Action Op Choice) :=
  login ++ .launch .disconnect :: .launch .shutdown :: proceeds 4 3

def atRest : Pool.State OAuthAdapterInner Thread :=
  ((oauthPool false).system.runWhile (quietShutdown false) ⟨.new none, []⟩ shutdownAtRest).getD
    ⟨.new none, []⟩

def disconnecting : Pool.State OAuthAdapterInner Thread :=
  ((oauthPool false).system.step atRest (.run 2 (.resume .proceed))).getD ⟨.new none, []⟩

theorem disconnect_after_shutdown :
    (oauthPool false).system.step atRest (.run 2 (.resume .proceed)) = some disconnecting ∧
      ¬ Revives atRest.shared disconnecting.shared := by
  have hrun : (oauthPool false).system.runWhile (quietShutdown false) ⟨.new none, []⟩ shutdownAtRest =
      some atRest := rfl
  have hst : (oauthPool false).system.step atRest (.run 2 (.resume .proceed)) =
      some disconnecting := rfl
  exact ⟨hst, shutdown_is_final
    ((System.ReachableWhile.init (oauthPool_init false none)).run (fun _ _ h => h) hrun)
    (n := 4) rfl (show 2 < 4 by decide) hst⟩

end EndaraRelay
