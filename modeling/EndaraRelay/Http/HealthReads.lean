import EndaraRelay.ToolCache

/-!
# Reading the health of an HTTP adapter

`HttpAdapter::health` only tries the health lock, and answers `Starting` when a task holds it or waits
for it to write. Every request that succeeds, and every one that finds the upstream dead, does so for
its accounting. A catalog build reads the health of an endpoint three times: for the label, and twice
inside `cached_list_tools`.

The adapter is `Healthy` here throughout. A build comes out with the endpoint marked as available or
not, and with its tools or with the error of `list_tools`. It is *fair* to the endpoint when the
endpoint is marked as available, and the build fails only where no fresh list was in the tool cache.

**Theorem (`builds_fair`).** Builds, and the catalog in the cache, are fair as long as the label is read
while nobody has the lock, and so is the health under the populate lock if a fresh list is cached then.

A build that meets a request's accounting marks the endpoint `UNAVAILABLE`, and one that meets it at
both reads drops the endpoint over an error of the upstream, a fresh list in the tool cache
(`accounting_drops_endpoint`).
-/

namespace EndaraRelay.Http

open Verif

/-! ## Builds and requests -/

/-- What a build has of the endpoint: the label, what `cached_list_tools` returned, and whether it had
passed by a fresh list in the tool cache. -/
structure EndpointBuild where
  isHealthy : Bool
  listed : Except AdapterError (List ToolInfo)
  passedBy : Bool

structure EndpointCatalog where
  entry : ToolCacheEntry
  catalogGeneration : Nat
  catalogCache : Option EndpointBuild

/-- The part of `refresh_catalog` that concerns the endpoint. -/
inductive BuildPc where
  | start
  /-- The generation is read; `is_healthy` comes next. -/
  | label (generationBefore : Nat)
  | listing (generationBefore : Nat) (isHealthy passedBy : Bool) (pc : ListPc)
  | store (generationBefore : Nat) (built : EndpointBuild)
  | done (built : EndpointBuild)

/-- How a request ends. -/
inductive AccountedOutcome where
  | success
  | transportDead
  /-- The upstream is alive: nothing is accounted. -/
  | alive

inductive EndpointThread where
  | build (pc : BuildPc)
  /-- Another caller of `cached_list_tools`, or an invalidation of the tool cache. -/
  | cache (t : ToolCacheThread)
  | request
  /-- The request has asked for the health lock and not yet released it. -/
  | accounting
  | invalidateCatalog
  | finished

inductive EndpointChoice where
  | go (c : ToolCacheChoice)
  | outcome (o : AccountedOutcome)

namespace EndpointThread

def obstructs : EndpointThread → Bool
  | .accounting => true
  | _ => false

def atCache : EndpointThread → ToolCacheThread
  | .build (.listing _ _ _ pc) => .list pc
  | .cache t => t
  | _ => .finished

end EndpointThread

/-- `HttpAdapter::health`. -/
def observedHealth (ts : List EndpointThread) (health : HealthStatus) : HealthStatus :=
  if ts.any (·.obstructs) then .starting else health

/-- The entry as a task sees it that reads the health now. -/
def EndpointCatalog.observed (sh : EndpointCatalog) (ts : List EndpointThread) : ToolCacheEntry :=
  { sh.entry with health := observedHealth ts sh.entry.health }

/-- What a step at the tool cache leaves. -/
def EndpointCatalog.setEntry (sh : EndpointCatalog) (entry : ToolCacheEntry) : EndpointCatalog :=
  { sh with entry := { entry with health := sh.entry.health } }

/-- A build under the populate lock goes past a list that is cached and fresh. -/
def passesBy (entry : ToolCacheEntry) : ListPc → ToolCacheChoice → Bool
  | .recheck, .go fresh => !entry.health.isHealthy && entry.toolCache.isSome && fresh
  | _, _ => false

/-- `cached_list_tools` has returned to the build, or is still under way. -/
def BuildPc.resume (generationBefore : Nat) (isHealthy passedBy : Bool) : ListPc → BuildPc
  | .returned listed => .store generationBefore ⟨isHealthy, listed, passedBy⟩
  | pc => .listing generationBefore isHealthy passedBy pc

def EndpointThread.step (sh : EndpointCatalog) (ts : List EndpointThread) :
    EndpointThread → EndpointChoice → Option (EndpointCatalog × EndpointThread)
  | .build .start, .go _ => some (sh, .build (.label sh.catalogGeneration))
  | .build (.label generationBefore), .go _ =>
    some (sh, .build (.listing generationBefore (sh.observed ts).health.isHealthy false .start))
  | .build (.listing generationBefore isHealthy passedBy pc), .go c =>
    (pc.step (sh.observed ts) (ts.any (·.atCache.populates)) (ts.any (·.atCache.writes)) c).map
      fun next => (sh.setEntry next.1, .build (.resume generationBefore isHealthy
        (passedBy || passesBy (sh.observed ts) pc c) next.2))
  | .build (.store generationBefore built), .go _ =>
    some ({ sh with
      catalogCache :=
        if sh.catalogGeneration = generationBefore then some built else sh.catalogCache },
      .build (.done built))
  | .cache t, .go c =>
    (t.step (sh.observed ts) (ts.map (·.atCache)) c).map fun next => (sh.setEntry next.1, .cache next.2)
  | .request, .outcome .alive => some (sh, .finished)
  | .request, .outcome _ => some (sh, .accounting)
  | .accounting, .go _ => some (sh, .finished)
  | .invalidateCatalog, .go _ =>
    some ({ sh with catalogCache := none, catalogGeneration := sh.catalogGeneration + 1 }, .finished)
  | _, _ => none

inductive EndpointOperation where
  | refreshCatalog
  | cachedListTools
  | invalidateToolCache
  | invalidateCatalog
  | request

def EndpointOperation.thread : EndpointOperation → EndpointThread
  | .refreshCatalog => .build .start
  | .cachedListTools => .cache (.list .start)
  | .invalidateToolCache => .cache .invalidate
  | .invalidateCatalog => .invalidateCatalog
  | .request => .request

/-- Catalog builds over an endpoint that stays `Healthy`, and requests on its adapter. -/
def endpointCatalog : Pool EndpointCatalog EndpointThread EndpointOperation EndpointChoice where
  init sh := sh.entry.health = .healthy ∧ sh.entry.toolCache = none ∧ sh.catalogCache = none
  launch _ _ op := some op.thread
  step sh ts t c := (t.step sh ts c).map fun next => (next.1, next.2, [])

abbrev EndpointState := Pool.State EndpointCatalog EndpointThread

abbrev EndpointAction := Pool.Action EndpointOperation EndpointChoice

/-! ## Fair builds -/

/-- The endpoint counts as available, and its tools are left out only where no list was to be had
without asking the upstream, which failed. -/
def EndpointBuild.Fair (built : EndpointBuild) : Prop :=
  built.isHealthy = true ∧ ∀ err, built.listed = .error err → built.passedBy = false

/-- The finished builds and the cached catalog are fair to the endpoint. -/
def BuildsFair (s : EndpointState) : Prop :=
  (∀ built, .build (.done built) ∈ s.threads → built.Fair) ∧
    ∀ built, s.shared.catalogCache = some built → built.Fair

/-- A build reads the health for its label, and under the populate lock if a fresh list is cached,
while nobody writes it or waits to. -/
def unobstructed (s : EndpointState) : EndpointAction → Bool
  | .launch _ => true
  | .run i c =>
    match s.threads[i]?, c with
    | some (.build (.label _)), .go _ => !s.threads.any (·.obstructs)
    | some (.build (.listing _ _ _ .recheck)), .go (.go fresh) =>
      !s.threads.any (·.obstructs) || s.shared.entry.toolCache.isNone || !fresh
    | _, _ => true

section

variable {sh sh' : EndpointCatalog} {ts : List EndpointThread} {t t' : EndpointThread}
  {c : EndpointChoice} {s : EndpointState}

def BuildPc.Fair : BuildPc → Prop
  | .listing _ isHealthy passedBy _ => isHealthy = true ∧ passedBy = false
  | .store _ built | .done built => built.Fair
  | _ => True

def EndpointThread.Fair : EndpointThread → Prop
  | .build pc => pc.Fair
  | _ => True

theorem resume_fair {generationBefore : Nat} {pc : ListPc} :
    (BuildPc.resume generationBefore true false pc).Fair := by
  unfold BuildPc.resume
  split
  · exact ⟨rfl, fun _ _ => rfl⟩
  · exact ⟨rfl, rfl⟩

theorem observed_health (hhealth : sh.entry.health = .healthy)
    (hfree : (ts.any (·.obstructs)) = false) : (sh.observed ts).health.isHealthy = true := by
  simp only [EndpointCatalog.observed, observedHealth, hfree, hhealth]
  rfl

theorem passesBy_eq_false (hhealth : sh.entry.health = .healthy) {pc : ListPc} {c : ToolCacheChoice}
    (h : ∀ fresh, pc = .recheck → c = .go fresh →
      ((ts.any (·.obstructs)) = false ∨ sh.entry.toolCache.isNone ∨ fresh = false)) :
    (false || passesBy (sh.observed ts) pc c) = false := by
  rw [Bool.false_or]
  unfold passesBy
  split
  · next fresh =>
    rcases h fresh rfl rfl with hfree | hnone | rfl
    · rw [observed_health hhealth hfree]
      rfl
    · have hcached : (sh.observed ts).toolCache = none := Option.isNone_iff_eq_none.1 hnone
      rw [hcached]
      simp
    · simp
  · rfl

/-- **A step** keeps the adapter healthy and the catalog fair, where the guard holds. -/
theorem EndpointThread.step_fair (hhealth : sh.entry.health = .healthy)
    (hcache : ∀ built, sh.catalogCache = some built → built.Fair) (ht : t.Fair)
    (hlabel : ∀ g, t = .build (.label g) → (ts.any (·.obstructs)) = false)
    (hrecheck : ∀ g h p fresh, t = .build (.listing g h p .recheck) → c = .go (.go fresh) →
      ((ts.any (·.obstructs)) = false ∨ sh.entry.toolCache.isNone ∨ fresh = false))
    (hstep : t.step sh ts c = some (sh', t')) :
    sh'.entry.health = .healthy ∧ (∀ built, sh'.catalogCache = some built → built.Fair) ∧
      t'.Fair := by
  revert hstep
  fun_cases EndpointThread.step sh ts t c <;> intro hstep
  case case2 g _ =>
    cases hstep
    refine ⟨hhealth, hcache, ?_, rfl⟩
    exact observed_health hhealth (hlabel g rfl)
  case case3 g isHealthy passedBy pc c =>
    obtain ⟨next, -, heq⟩ := Option.map_eq_some_iff.1 hstep
    cases heq
    obtain ⟨rfl, rfl⟩ := ht
    refine ⟨hhealth, hcache, ?_⟩
    rw [passesBy_eq_false hhealth fun fresh hpc hc => hrecheck g true false fresh (by rw [hpc]) (by rw [hc])]
    exact resume_fair
  case case4 g built _ =>
    cases hstep
    refine ⟨hhealth, fun b hb => ?_, ht⟩
    dsimp only at hb
    split at hb
    · cases hb
      exact ht
    · exact hcache b hb
  case case5 t c =>
    obtain ⟨next, -, heq⟩ := Option.map_eq_some_iff.1 hstep
    cases heq
    exact ⟨hhealth, hcache, trivial⟩
  case case9 =>
    cases hstep
    exact ⟨hhealth, fun _ hb => (nomatch hb), trivial⟩
  all_goals
    cases hstep
    try exact ⟨hhealth, hcache, trivial⟩

theorem endpointCatalog_step {new : List EndpointThread}
    (h : endpointCatalog.step sh ts t c = some (sh', t', new)) :
    t.step sh ts c = some (sh', t') ∧ new = [] := by
  obtain ⟨r, hr, heq⟩ := Option.map_eq_some_iff.1 h
  cases heq
  exact ⟨hr, rfl⟩

/-- **Builds are fair** to an endpoint that stays healthy, as long as they read its health
unobstructed. -/
theorem builds_fair
    (h : endpointCatalog.system.ReachableWhile (fun s a => unobstructed s a = true) s) :
    BuildsFair s := by
  have hinv : (s.shared.entry.health = .healthy ∧
      ∀ built, s.shared.catalogCache = some built → built.Fair) ∧ ∀ t ∈ s.threads, t.Fair := by
    refine Pool.invariant_of (I := fun _ => True)
      (J := fun s => (s.shared.entry.health = .healthy ∧
        ∀ built, s.shared.catalogCache = some built → built.Fair) ∧ ∀ t ∈ s.threads, t.Fair)
      (fun _ _ => trivial) ?_ ?_ ?_ h
    · intro sh hinit
      refine ⟨⟨hinit.1, fun built hb => ?_⟩, List.forall_mem_nil _⟩
      rw [hinit.2.2] at hb
      cases hb
    · intro s op t _ hJ _ hlaunch
      refine ⟨hJ.1, fun u hu => ?_⟩
      rcases List.mem_append.1 hu with hu | hu
      · exact hJ.2 u hu
      · rw [List.mem_singleton.1 hu]
        cases hlaunch
        cases op <;> trivial
    · intro s i c t sh t' new _ hJ hok hi hstep
      obtain ⟨hthread, rfl⟩ := endpointCatalog_step hstep
      have hlabel : ∀ g, t = .build (.label g) → (s.threads.any (·.obstructs)) = false := by
        rintro g rfl
        cases c with
        | go c =>
          simp only [unobstructed, hi] at hok
          simpa using hok
        | outcome o => cases hthread
      have hrecheck : ∀ g h p fresh, t = .build (.listing g h p .recheck) → c = .go (.go fresh) →
          ((s.threads.any (·.obstructs)) = false ∨ s.shared.entry.toolCache.isNone ∨
            fresh = false) := by
        rintro g h p fresh rfl rfl
        simp only [unobstructed, hi] at hok
        simpa [or_assoc] using hok
      obtain ⟨hhealth, hcache, hfair⟩ := EndpointThread.step_fair hJ.1.1 hJ.1.2
        (hJ.2 t (List.mem_of_getElem? hi)) hlabel hrecheck hthread
      refine ⟨⟨hhealth, hcache⟩, Pool.forall_mem_stepped hfair (List.forall_mem_nil _) ?_⟩
      intro j u _ hj
      exact hJ.2 u (List.mem_of_getElem? hj)
  refine ⟨fun built hb => ?_, hinv.1.2⟩
  exact hinv.2 _ hb

end

/-! ## An obstructed build -/

def steps (i n : Nat) : List EndpointAction := List.replicate n (.run i (.go (.go true)))

def fillCache : List EndpointAction :=
  [.launch .cachedListTools] ++ steps 0 7 ++
    [.run 0 (.go (.answer (.ok [bareTool "search"])))] ++ steps 0 2

def emptyEndpoint : EndpointCatalog := ⟨⟨.healthy, none, 0, 0⟩, 0, none⟩

theorem endpointCatalog_init : endpointCatalog.system.init ⟨emptyEndpoint, []⟩ :=
  ⟨⟨rfl, rfl, rfl⟩, rfl⟩

/-- A build meets the accounting of one request at its label and its first read of the health, and that
of another under the populate lock. The upstream answers its `list_tools` with an error. -/
def obstructedBuild : List EndpointAction :=
  fillCache ++ [.launch .request, .launch .request, .launch .refreshCatalog,
    .run 1 (.outcome .success)] ++ steps 3 3 ++ steps 1 1 ++ [.run 2 (.outcome .success)] ++ steps 3 2 ++
    steps 2 1 ++ steps 3 2 ++ [.run 3 (.go (.answer (.error (.httpError 503 "busy"))))] ++ steps 3 1

/-- **The endpoint is dropped and marked as unavailable**, healthy all the time and with a fresh list in
its tool cache. -/
theorem accounting_drops_endpoint :
    ∃ s : EndpointState, endpointCatalog.system.Reachable s ∧
      s.shared.entry.toolCache.isSome = true ∧ ¬ BuildsFair s ∧
        s.shared.catalogCache = some ⟨false, .error (.httpError 503 "busy"), true⟩ := by
  obtain ⟨s, hrun, hsome, hcached⟩ :
      ∃ s, endpointCatalog.system.run ⟨emptyEndpoint, []⟩ obstructedBuild = some s ∧
        s.shared.entry.toolCache.isSome = true ∧
          s.shared.catalogCache = some ⟨false, .error (.httpError 503 "busy"), true⟩ :=
    ⟨_, rfl, rfl, rfl⟩
  refine ⟨s, System.Reachable.run (.init endpointCatalog_init) hrun, hsome, fun hfair => ?_, hcached⟩
  cases (hfair.2 _ hcached).1

/-- A build between two requests takes the list from the tool cache. -/
theorem builds_fair_between :
    ∃ s : EndpointState, s.shared.catalogCache = some ⟨true, .ok [bareTool "search"], false⟩ ∧
      BuildsFair s := by
  obtain ⟨s, hrun, hcached⟩ :
      ∃ s, endpointCatalog.system.runWhile unobstructed ⟨emptyEndpoint, []⟩
        (fillCache ++ [.launch .request, .launch .request, .launch .refreshCatalog,
          .run 1 (.outcome .success)] ++ steps 1 1 ++ steps 3 5 ++ [.run 2 (.outcome .success)]) =
        some s ∧ s.shared.catalogCache = some ⟨true, .ok [bareTool "search"], false⟩ :=
    ⟨_, rfl, rfl⟩
  exact ⟨s, hcached, builds_fair (.run (fun _ _ h => h) (.init endpointCatalog_init) hrun)⟩

end EndaraRelay.Http
