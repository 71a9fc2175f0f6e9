import EndaraRelay.Lib.Pool
import EndaraRelay.Adapter

/-!
# The tool cache of one adapter entry

`cached_list_tools` fills the tool cache of its entry without holding the cache's lock across the
call: it reads `tool_cache_epoch`, awaits `list_tools`, and stores the answer under the write lock
if the epoch is still the same. `invalidate_tool_cache` clears the cache and bumps the epoch under
that lock.

`ListPc.step` goes from one await of `cached_list_tools` to the next. Its callers and the
invalidations are threads of a pool; the adapter's health changes as the environment likes, and a
caller's future can be dropped at any await. A cached list carries two marks no code reads: how many
invalidations were complete when its `list_tools` call began, and the adapter's health when the call
completed. The marks say what the guards are for:

* `tool_cache_current`: in every run, what is cached was listed after the latest invalidation;
* `tool_cache_sound`: it is also from an adapter that was healthy when the call completed, as long
  as no adapter loses its health during a call that began in the healthy branch. The bypass branch
  checks the health again after the call, the healthy branch does not.
-/

namespace EndaraRelay

open Verif

/-! ## The entry -/

/-- What `list_tools` returned, with the marks of its call. -/
structure CachedTools where
  tools : List ToolInfo
  begun : Nat
  completedIn : HealthStatus

/-- One entry. `invalidated` counts the completed invalidations, for the marks. -/
structure ToolCacheEntry where
  health : HealthStatus
  toolCache : Option CachedTools
  toolCacheEpoch : Nat
  invalidated : Nat

/-- `store_if_epoch_unchanged`, holding the write lock. -/
def ToolCacheEntry.storeIfEpochUnchanged (sh : ToolCacheEntry) (epochBefore : Nat)
    (listed : CachedTools) : ToolCacheEntry :=
  if sh.toolCacheEpoch = epochBefore then { sh with toolCache := some listed } else sh

/-! ## Threads -/

/-- The two branches of the slow path. -/
inductive ListBranch where
  | healthy
  | bypass
deriving DecidableEq

/-- The awaits of `cached_list_tools`. -/
inductive ListPc where
  | start
  /-- Healthy: `tool_cache.read` of the fast path. -/
  | fastPath
  | populateLock
  /-- The populate lock is taken. -/
  | recheck
  /-- Healthy: `tool_cache.read` under the populate lock. -/
  | recheckCache
  /-- Before `tool_cache_epoch.load`. -/
  | epoch (branch : ListBranch)
  | call (branch : ListBranch) (epochBefore : Nat)
  /-- `list_tools` is in flight. -/
  | listing (branch : ListBranch) (epochBefore begun : Nat)
  | ttlExpiry (epochBefore : Nat) (listed : CachedTools)
  | store (epochBefore : Nat) (listed : CachedTools)
  | returned (result : Except AdapterError (List ToolInfo))
  | dropped

def ListPc.populates : ListPc → Bool
  | .recheck | .recheckCache | .epoch _ | .call _ _ | .listing _ _ _ | .ttlExpiry _ _ | .store _ _ =>
    true
  | _ => false

/-- The environment's part in a step. -/
inductive ToolCacheChoice where
  /-- Go on; `fresh` says whether a cached list is inside its `ttlMs`. -/
  | go (fresh : Bool)
  | answer (result : Except AdapterError (List ToolInfo))
  /-- The caller's future is dropped. -/
  | drop

/-- The adapter answered: what is listed is kept for the store in the healthy branch, and in the bypass
branch if the adapter is healthy by now. -/
def ListPc.answered (sh : ToolCacheEntry) (branch : ListBranch) (epochBefore begun : Nat)
    (tools : List ToolInfo) : ListPc :=
  let listed : CachedTools := ⟨tools, begun, sh.health⟩
  match branch with
  | .healthy => .ttlExpiry epochBefore listed
  | .bypass => if sh.health.isHealthy then .ttlExpiry epochBefore listed else .returned (.ok tools)

/-- One step of `cached_list_tools`. `populating` and `writing` say whether the populate lock and the
write lock of `tool_cache` are taken. -/
def ListPc.step (sh : ToolCacheEntry) (populating writing : Bool) :
    ListPc → ToolCacheChoice → Option (ToolCacheEntry × ListPc)
  | .returned _, _ | .dropped, _ => none
  | _, .drop => some (sh, .dropped)
  | .start, .go _ => some (sh, if sh.health.isHealthy then .fastPath else .populateLock)
  | .fastPath, .go fresh =>
    if writing then none
    else
      match sh.toolCache with
      | some cached =>
        some (sh, if fresh then .returned (.ok cached.tools) else .populateLock)
      | none => some (sh, .populateLock)
  | .populateLock, .go _ => if populating then none else some (sh, .recheck)
  | .recheck, .go _ => some (sh, if sh.health.isHealthy then .recheckCache else .epoch .bypass)
  | .recheckCache, .go fresh =>
    if writing then none
    else
      match sh.toolCache with
      | some cached =>
        some (sh, if fresh then .returned (.ok cached.tools) else .epoch .healthy)
      | none => some (sh, .epoch .healthy)
  | .epoch branch, .go _ => some (sh, .call branch sh.toolCacheEpoch)
  | .call branch epochBefore, .go _ => some (sh, .listing branch epochBefore sh.invalidated)
  | .listing branch epochBefore begun, .answer (.ok tools) =>
    some (sh, .answered sh branch epochBefore begun tools)
  | .listing _ _ _, .answer (.error err) => some (sh, .returned (.error err))
  | .ttlExpiry epochBefore listed, .go _ => some (sh, .store epochBefore listed)
  | .store epochBefore listed, .go _ =>
    if writing then none
    else some (sh.storeIfEpochUnchanged epochBefore listed, .returned (.ok listed.tools))
  | _, _ => none

inductive ToolCacheThread where
  | list (pc : ListPc)
  /-- `invalidate_tool_cache`, before the write lock. -/
  | invalidate
  /-- The cache is cleared, the write lock still held. -/
  | cleared
  /-- The adapter's health is about to change. -/
  | healthChange (health : HealthStatus)
  | finished

namespace ToolCacheThread

def populates : ToolCacheThread → Bool
  | .list pc => pc.populates
  | _ => false

/-- Holding the write lock of `tool_cache` across a step. -/
def writes : ToolCacheThread → Bool
  | .cleared => true
  | _ => false

def step (sh : ToolCacheEntry) (ts : List ToolCacheThread) (c : ToolCacheChoice) :
    ToolCacheThread → Option (ToolCacheEntry × ToolCacheThread)
  | .list pc => (pc.step sh (ts.any populates) (ts.any writes) c).map fun r => (r.1, .list r.2)
  | .invalidate =>
    if ts.any writes then none else some ({ sh with toolCache := none }, .cleared)
  | .cleared =>
    some ({ sh with
      toolCacheEpoch := sh.toolCacheEpoch + 1
      invalidated := sh.invalidated + 1 }, .finished)
  | .healthChange health => some ({ sh with health := health }, .finished)
  | .finished => none

end ToolCacheThread

inductive ToolCacheOperation where
  | cachedListTools
  | invalidateToolCache
  | healthChanges (health : HealthStatus)

def ToolCacheOperation.thread : ToolCacheOperation → ToolCacheThread
  | .cachedListTools => .list .start
  | .invalidateToolCache => .invalidate
  | .healthChanges health => .healthChange health

/-- One entry under concurrent callers, invalidations and changes of health. -/
def toolCachePool : Pool ToolCacheEntry ToolCacheThread ToolCacheOperation ToolCacheChoice where
  init sh := sh.toolCache = none ∧ sh.toolCacheEpoch = sh.invalidated
  launch _ _ op := some op.thread
  step sh ts t c := (t.step sh ts c).map fun r => (r.1, r.2, [])

/-! ## What a step does -/

section

variable {sh sh' : ToolCacheEntry} {ts new : List ToolCacheThread} {t t' : ToolCacheThread}
  {pc pc' : ListPc} {populating writing : Bool} {c : ToolCacheChoice}

theorem toolCachePool_step (h : toolCachePool.step sh ts t c = some (sh', t', new)) :
    t.step sh ts c = some (sh', t') ∧ new = [] := by
  obtain ⟨r, hr, heq⟩ := Option.map_eq_some_iff.1 h
  cases heq
  exact ⟨hr, rfl⟩

/-- A step of a caller leaves the entry alone, or it is the store, with nobody writing. -/
theorem ListPc.step_entry (h : pc.step sh populating writing c = some (sh', pc')) :
    sh' = sh ∨ ∃ epochBefore listed, pc = .store epochBefore listed ∧ writing = false ∧
      sh' = sh.storeIfEpochUnchanged epochBefore listed := by
  cases pc with
  | store epochBefore listed =>
    cases c with
    | go fresh =>
      simp only [ListPc.step] at h
      split at h
      · cases h
      · next hw =>
        cases h
        exact .inr ⟨epochBefore, listed, rfl, by simpa using hw, rfl⟩
    | drop => cases h; exact .inl rfl
    | answer _ => cases h
  | _ =>
    left
    cases c with
    | go fresh => 
      simp only [ListPc.step] at h
      repeat' split at h
      all_goals first | cases h; rfl | cases h
    | drop => 
      simp only [ListPc.step] at h
      cases h
      try rfl
    | answer r =>
      cases r <;> simp only [ListPc.step] at h <;> cases h <;> rfl

end

/-! ## The epoch guard -/

/-- What a caller knows of the invalidations: its epoch was read before its call began. -/
def ListPc.Current (sh : ToolCacheEntry) : ListPc → Prop
  | .call _ epochBefore => epochBefore ≤ sh.invalidated
  | .listing _ epochBefore begun => epochBefore ≤ begun ∧ begun ≤ sh.invalidated
  | .ttlExpiry epochBefore listed | .store epochBefore listed =>
    epochBefore ≤ listed.begun ∧ listed.begun ≤ sh.invalidated
  | _ => True

variable {sh sh' : ToolCacheEntry} {pc : ListPc} {c : ToolCacheChoice} {t : ToolCacheThread}

theorem ListPc.Current.mono (h : pc.Current sh) (hle : sh.invalidated ≤ sh'.invalidated) :
    pc.Current sh' := by
  cases pc with
  | call _ _ => exact Nat.le_trans h hle
  | listing _ _ _ | ttlExpiry _ _ | store _ _ => exact ⟨h.1, Nat.le_trans h.2 hle⟩
  | _ => trivial

theorem ListPc.step_current {pc pc' : ListPc} {populating writing : Bool}
    (hepoch : sh.toolCacheEpoch = sh.invalidated) (h : pc.Current sh)
    (hstep : pc.step sh populating writing c = some (sh', pc')) : pc'.Current sh := by
  cases pc with
  | epoch branch =>
    cases c with
    | go _ =>
      cases hstep
      exact Nat.le_of_eq hepoch
    | _ => cases hstep <;> trivial
  | call branch epochBefore =>
    cases c with
    | go _ =>
      cases hstep
      exact ⟨h, Nat.le_refl _⟩
    | _ => cases hstep <;> trivial
  | listing branch epochBefore begun =>
    cases c with
    | go _ => cases hstep
    | drop =>
      cases hstep
      trivial
    | answer result =>
      cases result with
      | error err =>
        cases hstep
        trivial
      | ok tools =>
        cases hstep
        unfold ListPc.answered
        cases branch with
        | healthy => exact h
        | bypass =>
          dsimp only
          split
          · exact h
          · trivial
  | ttlExpiry epochBefore listed =>
    cases c with
    | go _ =>
      cases hstep
      exact h
    | _ => cases hstep <;> trivial
  | _ =>
    cases c <;> simp only [ListPc.step] at hstep <;> repeat' split at hstep
    all_goals first | cases hstep; trivial | cases hstep

/-- The invalidation that has cleared the cache holds the write lock, so nothing is stored. -/
def ToolCacheThread.Current (sh : ToolCacheEntry) : ToolCacheThread → Prop
  | .list pc => pc.Current sh
  | .cleared => sh.toolCache = none
  | _ => True

/-- What is cached was listed after the latest invalidation, and no caller is ahead of its epoch. -/
structure ToolCacheInv (s : Pool.State ToolCacheEntry ToolCacheThread) : Prop where
  epoch : s.shared.toolCacheEpoch = s.shared.invalidated
  cached : ∀ listed, s.shared.toolCache = some listed → listed.begun = s.shared.invalidated
  threads : ∀ t ∈ s.threads, t.Current s.shared

variable {s : Pool.State ToolCacheEntry ToolCacheThread}
  {ok : Pool.State ToolCacheEntry ToolCacheThread →
    Pool.Action ToolCacheOperation ToolCacheChoice → Prop}

theorem ToolCacheEntry.storeIfEpochUnchanged_cached {epochBefore : Nat} {listed cached : CachedTools}
    (h : (sh.storeIfEpochUnchanged epochBefore listed).toolCache = some cached) :
    sh.toolCache = some cached ∨ cached = listed ∧ sh.toolCacheEpoch = epochBefore := by
  unfold ToolCacheEntry.storeIfEpochUnchanged at h
  split at h
  · next he => exact .inr ⟨(Option.some.inj h).symm, he⟩
  · exact .inl h

/-- A store changes nothing but the cache. -/
@[simp] theorem ToolCacheEntry.storeIfEpochUnchanged_epoch (sh : ToolCacheEntry) (epochBefore : Nat)
    (listed : CachedTools) :
    (sh.storeIfEpochUnchanged epochBefore listed).toolCacheEpoch = sh.toolCacheEpoch := by
  unfold ToolCacheEntry.storeIfEpochUnchanged
  split <;> rfl

@[simp] theorem ToolCacheEntry.storeIfEpochUnchanged_invalidated (sh : ToolCacheEntry)
    (epochBefore : Nat) (listed : CachedTools) :
    (sh.storeIfEpochUnchanged epochBefore listed).invalidated = sh.invalidated := by
  unfold ToolCacheEntry.storeIfEpochUnchanged
  split <;> rfl

/-- The threads that did not move keep what they know, when no invalidation is undone and nothing is
cached over a cleared cache. -/
theorem ToolCacheThread.Current.mono (h : t.Current sh) (hle : sh.invalidated ≤ sh'.invalidated)
    (hcleared : t.writes = true → sh.toolCache = none → sh'.toolCache = none) : t.Current sh' := by
  cases t with
  | list pc => exact ListPc.Current.mono h hle
  | cleared => exact hcleared rfl h
  | _ => trivial

theorem toolCacheInv_run (h : toolCachePool.system.ReachableWhile ok s) : ToolCacheInv s := by
  refine Pool.invariant_of (I := fun _ => True) (fun _ _ => trivial) ?_ ?_ ?_ h
  · intro sh hsh
    refine ⟨hsh.2, fun listed hl => ?_, List.forall_mem_nil _⟩
    rw [show sh.toolCache = none from hsh.1] at hl
    cases hl
  · intro s op t _ hJ _ ht
    refine ⟨hJ.epoch, hJ.cached, ?_⟩
    intro u hu
    rcases List.mem_append.1 hu with hu | hu
    · exact hJ.threads u hu
    · rw [List.mem_singleton.1 hu]
      cases op <;> cases ht <;> trivial
  · intro s i c t sh' t' new _ hJ _ hi hstep
    obtain ⟨hst, rfl⟩ := toolCachePool_step hstep
    have hthread := hJ.threads t (List.mem_of_getElem? hi)
    have hothers : ∀ j u, j ≠ i → s.threads[j]? = some u → u.Current s.shared :=
      fun j u _ hj => hJ.threads u (List.mem_of_getElem? hj)
    cases t with
    | list pc =>
      obtain ⟨⟨sh₁, pc'⟩, hpc, heq⟩ := Option.map_eq_some_iff.1 hst
      cases heq
      have hcur : pc'.Current s.shared := ListPc.step_current hJ.epoch hthread hpc
      rcases ListPc.step_entry hpc with rfl | ⟨epochBefore, listed, rfl, hwriting, rfl⟩
      · exact ⟨hJ.epoch, hJ.cached,
          Pool.forall_mem_stepped hcur (List.forall_mem_nil _) hothers⟩
      · refine ⟨by simpa using hJ.epoch, ?_, ?_⟩
        · intro cached hcached
          rw [ToolCacheEntry.storeIfEpochUnchanged_invalidated]
          rcases ToolCacheEntry.storeIfEpochUnchanged_cached hcached with hold | ⟨rfl, he⟩
          · exact hJ.cached cached hold
          · -- the epoch read before the call is still current, so no invalidation came between
            have hle : epochBefore ≤ cached.begun ∧ cached.begun ≤ s.shared.invalidated := hthread
            have hepoch := hJ.epoch
            omega
        · refine Pool.forall_mem_stepped (hcur.mono (by simp)) (List.forall_mem_nil _) ?_
          intro j u hne hj
          refine (hothers j u hne hj).mono (by simp) fun hw _ => ?_
          rw [List.any_eq_false] at hwriting
          exact absurd hw (hwriting u (List.mem_of_getElem? hj))
    | invalidate =>
      simp only [ToolCacheThread.step] at hst
      split at hst
      · cases hst
      · cases hst
        refine ⟨hJ.epoch, fun _ hnone => (by cases hnone), ?_⟩
        refine Pool.forall_mem_stepped rfl (List.forall_mem_nil _) fun j u hne hj => ?_
        exact (hothers j u hne hj).mono (Nat.le_refl _) fun _ _ => rfl
    | cleared =>
      cases hst
      have hnone : s.shared.toolCache = none := hthread
      refine ⟨by simp [hJ.epoch], fun cached hcached => ?_, ?_⟩
      · rw [show _ = some cached from hcached] at hnone
        cases hnone
      · refine Pool.forall_mem_stepped trivial (List.forall_mem_nil _) fun j u hne hj => ?_
        exact (hothers j u hne hj).mono (Nat.le_succ _) fun _ h => h
    | healthChange health =>
      cases hst
      refine ⟨hJ.epoch, hJ.cached, ?_⟩
      refine Pool.forall_mem_stepped trivial (List.forall_mem_nil _) fun j u hne hj => ?_
      exact (hothers j u hne hj).mono (Nat.le_refl _) fun _ h => h
    | finished => cases hst

/-- **What is cached was listed after the latest completed invalidation**, in every run. -/
theorem tool_cache_current (h : toolCachePool.system.Reachable s) {listed : CachedTools}
    (hcached : s.shared.toolCache = some listed) : listed.begun = s.shared.invalidated :=
  (toolCacheInv_run h).cached listed hcached

/-! ## Health -/

/-- The answer of a call that began in the healthy branch finds the adapter healthy, or the epoch
already bumped, so that it will not be stored. -/
def staysHealthy (s : Pool.State ToolCacheEntry ToolCacheThread) :
    Pool.Action ToolCacheOperation ToolCacheChoice → Bool
  | .run i (.answer (.ok _)) =>
    match s.threads[i]? with
    | some (.list (.listing .healthy epochBefore _)) =>
      s.shared.health.isHealthy || s.shared.toolCacheEpoch != epochBefore
    | _ => true
  | _ => true

/-- A list about to be stored is from a healthy adapter, or from before an invalidation. -/
def ListPc.Sound (sh : ToolCacheEntry) : ListPc → Prop
  | .ttlExpiry epochBefore listed | .store epochBefore listed =>
    listed.completedIn.isHealthy = true ∨ epochBefore < sh.toolCacheEpoch
  | _ => True

theorem ListPc.step_sound {pc pc' : ListPc} {populating writing : Bool} (h : pc.Sound sh)
    (hguard : ∀ epochBefore begun tools, pc = .listing .healthy epochBefore begun →
      c = .answer (.ok tools) → sh.health.isHealthy = true ∨ epochBefore < sh.toolCacheEpoch)
    (hstep : pc.step sh populating writing c = some (sh', pc')) : pc'.Sound sh := by
  cases pc with
  | listing branch epochBefore begun =>
    cases c with
    | go _ => cases hstep
    | drop =>
      cases hstep
      trivial
    | answer result =>
      cases result with
      | error err =>
        cases hstep
        trivial
      | ok tools =>
        cases hstep
        unfold ListPc.answered
        cases branch with
        | healthy => exact hguard epochBefore begun tools rfl rfl
        | bypass =>
          dsimp only
          split
          · next hhealthy => exact .inl hhealthy
          · trivial
  | ttlExpiry epochBefore listed =>
    cases c with
    | go _ =>
      cases hstep
      exact h
    | _ => cases hstep <;> trivial
  | _ =>
    cases c <;> simp only [ListPc.step] at hstep <;> repeat' split at hstep
    all_goals first | cases hstep; trivial | cases hstep

theorem ListPc.Sound.mono (h : pc.Sound sh) (hle : sh.toolCacheEpoch ≤ sh'.toolCacheEpoch) :
    pc.Sound sh' := by
  cases pc with
  | ttlExpiry _ _ | store _ _ => exact h.imp_right fun hlt => Nat.lt_of_lt_of_le hlt hle
  | _ => trivial

def ToolCacheThread.Sound (sh : ToolCacheEntry) : ToolCacheThread → Prop
  | .list pc => pc.Sound sh
  | _ => True

theorem ToolCacheThread.Sound.mono (h : t.Sound sh) (hle : sh.toolCacheEpoch ≤ sh'.toolCacheEpoch) :
    t.Sound sh' := by
  cases t with
  | list pc => exact ListPc.Sound.mono h hle
  | _ => trivial

/-- What is cached, and what is about to be stored, is from a healthy adapter. -/
structure ToolCacheSound (s : Pool.State ToolCacheEntry ToolCacheThread) : Prop where
  cached : ∀ listed, s.shared.toolCache = some listed → listed.completedIn.isHealthy = true
  threads : ∀ t ∈ s.threads, t.Sound s.shared

/-- No step takes the epoch back, and only a store with the epoch it read fills the cache. -/
theorem ToolCacheThread.step_cached {ts : List ToolCacheThread} {t t' : ToolCacheThread}
    (h : t.step sh ts c = some (sh', t')) :
    sh.toolCacheEpoch ≤ sh'.toolCacheEpoch ∧
      ∀ cached, sh'.toolCache = some cached → sh.toolCache = some cached ∨
        t = .list (.store sh.toolCacheEpoch cached) := by
  cases t with
  | list pc =>
    obtain ⟨⟨sh₁, pc'⟩, hpc, heq⟩ := Option.map_eq_some_iff.1 h
    cases heq
    rcases ListPc.step_entry hpc with rfl | ⟨epochBefore, listed, rfl, -, rfl⟩
    · exact ⟨Nat.le_refl _, fun _ hc => .inl hc⟩
    · refine ⟨by simp, fun cached hc => ?_⟩
      rcases ToolCacheEntry.storeIfEpochUnchanged_cached hc with hold | ⟨rfl, rfl⟩
      · exact .inl hold
      · exact .inr rfl
  | invalidate =>
    simp only [ToolCacheThread.step] at h
    split at h
    · cases h
    · cases h
      exact ⟨Nat.le_refl _, fun _ hc => (by cases hc)⟩
  | cleared =>
    cases h
    exact ⟨Nat.le_succ _, fun _ hc => .inl hc⟩
  | healthChange health =>
    cases h
    exact ⟨Nat.le_refl _, fun _ hc => .inl hc⟩
  | finished => cases h

theorem ToolCacheThread.step_sound {s : Pool.State ToolCacheEntry ToolCacheThread} {i : Nat}
    {t t' : ToolCacheThread} (hinv : ToolCacheInv s) (hguard : staysHealthy s (.run i c) = true)
    (hi : s.threads[i]? = some t) (ht : t.Sound s.shared)
    (hstep : t.step s.shared s.threads c = some (sh', t')) : t'.Sound sh' := by
  have hmono := (ToolCacheThread.step_cached hstep).1
  cases t with
  | list pc =>
    obtain ⟨⟨sh₁, pc'⟩, hpc, heq⟩ := Option.map_eq_some_iff.1 hstep
    cases heq
    refine ListPc.Sound.mono (ListPc.step_sound ht ?_ hpc) hmono
    intro epochBefore begun tools hlisting hanswer
    subst hlisting hanswer
    have hcur : epochBefore ≤ begun ∧ begun ≤ s.shared.invalidated :=
      hinv.threads _ (List.mem_of_getElem? hi)
    have hepoch := hinv.epoch
    simp only [staysHealthy, hi, Bool.or_eq_true, bne_iff_ne] at hguard
    exact hguard.imp_right fun hne => (by omega)
  | invalidate =>
    simp only [ToolCacheThread.step] at hstep
    split at hstep
    · cases hstep
    · cases hstep
      trivial
  | cleared | healthChange _ =>
    cases hstep
    trivial
  | finished => cases hstep

theorem toolCacheSound_run
    (h : toolCachePool.system.ReachableWhile (fun s a => staysHealthy s a = true) s) :
    ToolCacheSound s := by
  refine Pool.invariant_of (fun _ => toolCacheInv_run) ?_ ?_ ?_ h
  · intro sh hsh
    refine ⟨fun listed hl => ?_, List.forall_mem_nil _⟩
    rw [show sh.toolCache = none from hsh.1] at hl
    cases hl
  · intro s op t _ hJ _ ht
    refine ⟨hJ.cached, fun u hu => ?_⟩
    rcases List.mem_append.1 hu with hu | hu
    · exact hJ.threads u hu
    · rw [List.mem_singleton.1 hu]
      cases op <;> cases ht <;> trivial
  · intro s i c t sh' t' new hI hJ hguard hi hstep
    obtain ⟨hst, rfl⟩ := toolCachePool_step hstep
    have hthread := hJ.threads t (List.mem_of_getElem? hi)
    obtain ⟨hmono, hstore⟩ := ToolCacheThread.step_cached hst
    refine ⟨fun cached hcached => ?_, ?_⟩
    · rcases hstore cached hcached with hold | rfl
      · exact hJ.cached cached hold
      · -- the epoch is unchanged at the store, so the list is not from before an invalidation
        have hsound : cached.completedIn.isHealthy = true ∨
            s.shared.toolCacheEpoch < s.shared.toolCacheEpoch := hthread
        exact hsound.resolve_right (Nat.lt_irrefl _)
    · refine Pool.forall_mem_stepped ?_ (List.forall_mem_nil _) ?_
      · exact ToolCacheThread.step_sound hI hguard hi hthread hst
      · intro j u _ hj
        exact ToolCacheThread.Sound.mono (hJ.threads u (List.mem_of_getElem? hj)) hmono

/-- **The tool cache of an entry.** In every run in which no adapter loses its health during a call of
the healthy branch, what is cached was listed after the latest completed invalidation, by an adapter
that was healthy when the call completed. -/
theorem tool_cache_sound
    (h : toolCachePool.system.ReachableWhile (fun s a => staysHealthy s a = true) s) :
    ∀ listed, s.shared.toolCache = some listed →
      listed.begun = s.shared.invalidated ∧ listed.completedIn = .healthy := by
  intro listed hcached
  refine ⟨(toolCacheInv_run h).cached listed hcached, ?_⟩
  have hhealthy := (toolCacheSound_run h).cached listed hcached
  cases hend : listed.completedIn with
  | healthy => rfl
  | _ =>
    rw [hend] at hhealthy
    cases hhealthy

/-! ## Runs -/

def registered : ToolCacheEntry := ⟨.healthy, none, 0, 0⟩

theorem registered_init : toolCachePool.system.init ⟨registered, []⟩ := ⟨⟨rfl, rfl⟩, rfl⟩

/-- `n` steps of a thread that need no answer, over a cache past its `ttlMs`. -/
def goes (n i : Nat) : List (Pool.Action ToolCacheOperation ToolCacheChoice) :=
  List.replicate n (.run i (.go false))

/-- The adapter stops while the call of a caller is in flight; the call still succeeds. -/
def stopsDuringCall : List (Pool.Action ToolCacheOperation ToolCacheChoice) :=
  .launch .cachedListTools :: goes 7 0 ++
    [.launch (.healthChanges .stopped), .run 1 (.go false), .run 0 (.answer (.ok []))] ++ goes 2 0

theorem stopped_adapter_cached :
    ¬ ∀ s, toolCachePool.system.Reachable s → ∀ listed, s.shared.toolCache = some listed →
      listed.begun = s.shared.invalidated ∧ listed.completedIn = .healthy := by
  intro h
  obtain ⟨s, hrun, hcached⟩ : ∃ s, toolCachePool.system.run ⟨registered, []⟩ stopsDuringCall = some s ∧
      s.shared.toolCache = some ⟨[], 0, .stopped⟩ := ⟨_, rfl, rfl⟩
  have hreach := (System.Reachable.init registered_init).run hrun
  cases (h s hreach _ hcached).2

/-- A caller fills the cache, it is invalidated, and a second caller, who finds the adapter starting,
fills it again once the adapter has recovered. -/
def recoversDuringCall : List (Pool.Action ToolCacheOperation ToolCacheChoice) :=
  .launch .cachedListTools :: goes 7 0 ++ .run 0 (.answer (.ok [])) :: goes 2 0 ++
    .launch .invalidateToolCache :: goes 2 1 ++
    .launch (.healthChanges .starting) :: goes 1 2 ++
    .launch .cachedListTools :: goes 5 3 ++
    .launch (.healthChanges .healthy) :: goes 1 4 ++
    .run 3 (.answer (.ok [])) :: goes 2 3

theorem recovered_adapter_cached :
    ∃ (s : Pool.State ToolCacheEntry ToolCacheThread) (listed : CachedTools),
      s.shared.toolCache = some listed ∧ s.shared.invalidated = 1 ∧
      listed.begun = s.shared.invalidated ∧ listed.completedIn = .healthy := by
  obtain ⟨s, hrun, hcached, hone⟩ : ∃ s,
      toolCachePool.system.runWhile staysHealthy ⟨registered, []⟩ recoversDuringCall = some s ∧
        s.shared.toolCache = some ⟨[], 1, .healthy⟩ ∧ s.shared.invalidated = 1 := ⟨_, rfl, rfl, rfl⟩
  have hreach := (System.ReachableWhile.init registered_init).run (fun _ _ h => h) hrun
  exact ⟨s, _, hcached, hone, tool_cache_sound hreach _ hcached⟩

theorem refilled_cache_current : ∃ (s : Pool.State ToolCacheEntry ToolCacheThread) (listed : CachedTools),
    s.shared.toolCache = some listed ∧ listed.begun = s.shared.invalidated := by
  obtain ⟨s, hrun, hcached⟩ : ∃ s, toolCachePool.system.run ⟨registered, []⟩ recoversDuringCall = some s ∧
      s.shared.toolCache = some ⟨[], 1, .healthy⟩ := ⟨_, rfl, rfl⟩
  exact ⟨s, _, hcached, tool_cache_current ((System.Reachable.init registered_init).run hrun) hcached⟩

end EndaraRelay
