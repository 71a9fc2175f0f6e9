import EndaraRelay.Lib.Pool
import EndaraRelay.Registry

/-!
# The catalog cache

How the operations of `registry.rs` interleave. Every `await` of the source is a point where another
task may run, so each operation is a thread of a `Verif.Pool` that takes one step between two
awaits.

**Reads.** `merged_catalog_with_lookup` returns the cached catalog when there is one, else it goes
through `refresh_catalog`: read the generation, take `adapters.read`, visit one entry after the
other (`cached_list_tools`), and store the result if the generation did not move. The read lock is
held over the whole build. A profile's call reads the catalog twice: once for its membership check,
and once more inside the registry (`CatalogUse`).

**Mutators** are programs of elementary operations: `register` inserts an entry and invalidates,
the watcher edits the flags of the entry it has just registered, a background initialisation swaps
the adapter in and invalidates the tool cache of its endpoint. Writers wait until no thread holds
the read lock.

What an adapter lists and whether it is healthy are fixed for each adapter; `fresh` is the choice
of the environment whether a cached tool list is still inside its freshness window.
-/

namespace EndaraRelay

open Verif

variable {A : Type}

/-! ## The shared state -/

/-- A `tools/call` through a profile with these `allowed_endpoints`. -/
structure ProfileCall where
  allowedEndpoints : List String
  prefixedName : String
  arguments : Json

/-- What the operations on the registry share. `routed` records the calls that reached
`call_tool`, with the endpoint whose adapter received them. -/
structure SharedRegistry (A : Type) where
  entries : Entries A
  catalogCache : Option Catalog
  catalogGeneration : Nat
  routed : List (ProfileCall × String)

/-- `AdapterRegistry::new()`. -/
def SharedRegistry.new : SharedRegistry A := ⟨∅, none, 0, []⟩

/-! ## Reading the catalog -/

/-- A build in progress: the generation read before it, the prefix mode, the entries still to be
visited, and what was collected so far. -/
structure Build where
  generationBefore : Nat
  skipPrefix : Bool
  todo : List String
  acc : Catalog

/-- Where `merged_catalog_with_lookup` stands. -/
inductive CatalogRead where
  /-- Before the look at the cache. -/
  | start
  /-- `refresh_catalog` is entered. -/
  | refresh
  /-- The generation is read, `adapters.read` comes next. -/
  | lock (generationBefore : Nat)
  /-- Holding `adapters.read`, before the next entry. -/
  | visit (b : Build)
  /-- The fast path of `cached_list_tools` missed; the populate lock of the entry comes next. -/
  | parked (b : Build)
  /-- Holding the populate lock; `list_tools` is in flight. -/
  | listing (b : Build) (epochBefore : Nat)
  /-- Built; the store comes next. -/
  | store (generationBefore : Nat) (result : Catalog)
  /-- The catalog is returned. -/
  | done (result : Catalog)

/-- What the reader of a catalog does with it. -/
inductive CatalogUse where
  | plain
  /-- The membership check of a profile's call. -/
  | check (call : ProfileCall)
  /-- `route_tool_call` of the registry, on behalf of a call that passed the check. -/
  | dispatch (call : ProfileCall)

variable [McpAdapter A]

/-- The tool list `cached_list_tools` takes from the cache, if it takes one. -/
def RegisteredAdapter.cacheHit (entry : RegisteredAdapter A) (fresh : Bool) :
    Option (List ToolInfo) :=
  if entry.isHealthy && fresh then entry.toolCache else none

/-- `store_if_epoch_unchanged`, after the `list_tools` of a healthy adapter. -/
def RegisteredAdapter.storeTools (epochBefore : Nat) (entry : RegisteredAdapter A) :
    RegisteredAdapter A :=
  match McpAdapter.listTools entry.adapter with
  | .ok tools =>
    if entry.isHealthy && entry.toolCacheEpoch == epochBefore then
      { entry with toolCache := some tools }
    else entry
  | .error _ => entry

/-- Collect the tools of the entry being visited and go to the next one. -/
def Build.collect (b : Build) (name : String) (entry : RegisteredAdapter A) (todo : List String)
    (listed : Except AdapterError (List ToolInfo)) : Build :=
  { b with todo := todo, acc := addEndpoint b.skipPrefix name entry listed b.acc }

/-- The build that starts once the read lock is taken. -/
def Build.begin (generationBefore : Nat) (entries : Entries A) : Build :=
  ⟨generationBefore, EndaraRelay.skipPrefix entries, entries.keys, ⟨[], []⟩⟩

/-- One step of `merged_catalog_with_lookup`. `populating` says whose populate lock is taken. -/
def CatalogRead.step (sh : SharedRegistry A) (populating : String → Bool) (fresh : Bool) :
    CatalogRead → Option (SharedRegistry A × CatalogRead)
  | .start =>
    match sh.catalogCache with
    | some cached => some (sh, .done cached)
    | none => some (sh, .refresh)
  | .refresh => some (sh, .lock sh.catalogGeneration)
  | .lock generationBefore => some (sh, .visit (.begin generationBefore sh.entries))
  | .visit b =>
    match b.todo with
    | [] => some (sh, .store b.generationBefore b.acc.sorted)
    | name :: todo =>
      match sh.entries.lookup name with
      | none => some (sh, .visit { b with todo := todo })
      | some entry =>
        if entry.disabled then some (sh, .visit { b with todo := todo })
        else
          match entry.cacheHit fresh with
          | some tools => some (sh, .visit (b.collect name entry todo (.ok tools)))
          | none => some (sh, .parked b)
  | .parked b =>
    match b.todo with
    | [] => none
    | name :: todo =>
      match sh.entries.lookup name with
      | none => none
      | some entry =>
        if populating name then none
        else
          match entry.cacheHit fresh with
          | some tools => some (sh, .visit (b.collect name entry todo (.ok tools)))
          | none => some (sh, .listing b entry.toolCacheEpoch)
  | .listing b epochBefore =>
    match b.todo with
    | [] => none
    | name :: todo =>
      match sh.entries.lookup name with
      | none => none
      | some entry =>
        some ({ sh with entries := sh.entries.modify name (·.storeTools epochBefore) },
          .visit (b.collect name entry todo (McpAdapter.listTools entry.adapter)))
  | .store generationBefore result =>
    some ({ sh with
      catalogCache :=
        if sh.catalogGeneration = generationBefore then some result else sh.catalogCache },
      .done result)
  | .done _ => none

def CatalogRead.holdsRead : CatalogRead → Bool
  | .visit _ | .parked _ | .listing _ _ => true
  | _ => false

/-- Holding the populate lock of this entry. -/
def CatalogRead.populates (name : String) : CatalogRead → Bool
  | .listing b _ => b.todo.head? == some name
  | _ => false

/-! ## Mutators -/

/-- The arguments of `register`. -/
structure Registration (A : Type) where
  name : String
  adapter : A
  transport : String
  description : Option String
  toolPrefix : Option String

/-- The elementary operations mutators are made of. -/
inductive RegistryOp (A : Type) where
  /-- `adapters.write().insert`. -/
  | insert (r : Registration A)
  /-- `adapters.write().remove`, and the invalidation when there was an entry. -/
  | erase (name : String)
  /-- `entry.disabled = …; entry.disabled_tools = …` in place. -/
  | setFlags (name : String) (disabled : Bool) (disabledTools : List String)
  /-- `entry.adapter = …` in place. -/
  | install (name : String) (adapter : A)
  /-- `invalidate_all_tool_caches`, before it takes `adapters.read`. -/
  | sweepAll
  /-- `invalidate_all_tool_caches` with these entries still to clear. -/
  | sweep (todo : List String)
  /-- The first block of `invalidate_endpoint_tool_cache`. -/
  | clearToolCache (name : String)
  /-- Clear the catalog cache and bump the generation, under the cache's write lock. -/
  | bump

def invalidateCatalogCache : List (RegistryOp A) := [.sweepAll, .bump]

def invalidateEndpointToolCache (name : String) : List (RegistryOp A) :=
  [.clearToolCache name, .bump]

/-- One elementary operation, and what is left to do after it. `readHeld` says whether a thread
holds `adapters.read`, which writers wait for. -/
def RegistryOp.step (sh : SharedRegistry A) (readHeld : Bool) (rest : List (RegistryOp A)) :
    RegistryOp A → Option (SharedRegistry A × List (RegistryOp A))
  | .insert r =>
    if readHeld then none
    else
      some ({ sh with
        entries := sh.entries.insert r.name
          (freshEntry r.adapter r.transport r.description r.toolPrefix) }, rest)
  | .erase name =>
    if readHeld then none
    else
      some ({ sh with entries := sh.entries.erase name },
        if name ∈ sh.entries then invalidateCatalogCache ++ rest else rest)
  | .setFlags name disabled disabledTools =>
    if readHeld then none
    else
      some ({ sh with
        entries := sh.entries.modify name fun entry =>
          { entry with disabled := disabled, disabledTools := disabledTools } }, rest)
  | .install name adapter =>
    if readHeld then none
    else
      some ({ sh with
        entries := sh.entries.modify name fun entry => { entry with adapter := adapter } }, rest)
  | .sweepAll => some (sh, .sweep sh.entries.keys :: rest)
  | .sweep [] => some (sh, rest)
  | .sweep (name :: todo) =>
    some ({ sh with entries := sh.entries.modify name (·.invalidateToolCache) }, .sweep todo :: rest)
  | .clearToolCache name =>
    some ({ sh with entries := sh.entries.modify name (·.invalidateToolCache) }, rest)
  | .bump =>
    some ({ sh with catalogCache := none, catalogGeneration := sh.catalogGeneration + 1 }, rest)

/-! ## Threads -/

inductive RegistryThread (A : Type) where
  | read (pc : CatalogRead) (use : CatalogUse)
  /-- A call is at its adapter; `adapters.read` is held until it returns. -/
  | calling
  | mutate (program : List (RegistryOp A))

namespace RegistryThread

def finished : RegistryThread A := .mutate []

def holdsRead : RegistryThread A → Bool
  | .read pc _ => pc.holdsRead
  | .calling => true
  | .mutate (.sweep _ :: _) => true
  | .mutate _ => false

def populates (name : String) : RegistryThread A → Bool
  | .read pc _ => pc.populates name
  | _ => false

end RegistryThread

/-- What becomes of a thread that has its catalog. The membership check of a profile looks the name
up, and goes on inside the registry when the endpoint is allowed. -/
def useCatalog (validateArguments : Option (String → Json → Json → Option Json))
    (sh : SharedRegistry A) (catalog : Catalog) :
    CatalogUse → SharedRegistry A × RegistryThread A
  | .plain => (sh, .finished)
  | .check call =>
    match catalog.lookup.lookup call.prefixedName with
    | none => (sh, .finished)
    | some (endpoint, _) =>
      if endpoint ∈ call.allowedEndpoints then (sh, .read .start (.dispatch call))
      else (sh, .finished)
  | .dispatch call =>
    match routeDecision validateArguments catalog sh.entries call.prefixedName call.arguments with
    | .called endpoint _ _ => ({ sh with routed := (call, endpoint) :: sh.routed }, .calling)
    | _ => (sh, .finished)

def RegistryThread.step (validateArguments : Option (String → Json → Json → Option Json))
    (sh : SharedRegistry A) (ts : List (RegistryThread A)) (fresh : Bool) :
    RegistryThread A → Option (SharedRegistry A × RegistryThread A)
  | .read (.done catalog) use => some (useCatalog validateArguments sh catalog use)
  | .read pc use =>
    (pc.step sh (fun name => ts.any (·.populates name)) fresh).map fun r => (r.1, .read r.2 use)
  | .calling => some (sh, .finished)
  | .mutate [] => none
  | .mutate (op :: rest) =>
    (op.step sh (ts.any (·.holdsRead)) rest).map fun r => (r.1, .mutate r.2)

section

variable (validateArguments : Option (String → Json → Json → Option Json)) (sh : SharedRegistry A)
  (ts : List (RegistryThread A)) (fresh : Bool)

theorem RegistryThread.step_done (catalog : Catalog) (use : CatalogUse) :
    (RegistryThread.read (.done catalog) use).step validateArguments sh ts fresh =
      some (useCatalog validateArguments sh catalog use) := rfl

theorem RegistryThread.step_read {pc : CatalogRead} (h : ∀ catalog, pc ≠ .done catalog)
    (use : CatalogUse) :
    (RegistryThread.read pc use).step validateArguments sh ts fresh =
      (pc.step sh (fun name => ts.any (·.populates name)) fresh).map
        fun r => (r.1, .read r.2 use) := by
  cases pc with
  | done catalog => exact absurd rfl (h catalog)
  | _ => rfl

theorem RegistryThread.step_mutate (op : RegistryOp A) (rest : List (RegistryOp A)) :
    (RegistryThread.mutate (op :: rest)).step validateArguments sh ts fresh =
      (op.step sh (ts.any (·.holdsRead)) rest).map fun r => (r.1, .mutate r.2) := rfl

end

inductive RegistryOperation (A : Type) where
  | mergedCatalogWithLookup
  | refreshCatalog
  | profileRouteToolCall (call : ProfileCall)
  | register (r : Registration A)
  | remove (name : String)
  | invalidateCatalogCache
  | invalidateEndpointToolCache (name : String)
  | invalidateAllToolCaches
  /-- The management API disables or enables an endpoint or one of its tools. -/
  | manageFlags (name : String) (disabled : Bool) (disabledTools : List String)
  /-- The management API or a background initialisation of `main.rs` swaps an adapter in. -/
  | swapAdapter (name : String) (adapter : A)
  /-- The watcher registers a `FailedAdapter` and sets the flags of its entry. -/
  | watcherFailed (r : Registration A) (disabled : Bool) (disabledTools : List String)
  /-- The watcher registers a `StartingAdapter`, sets the flags of its entry and initialises
  `adapter` in the background. -/
  | watcherStarting (r : Registration A) (disabled : Bool) (disabledTools : List String) (adapter : A)

def RegistryOperation.thread : RegistryOperation A → RegistryThread A
  | .mergedCatalogWithLookup => .read .start .plain
  | .refreshCatalog => .read .refresh .plain
  | .profileRouteToolCall call => .read .start (.check call)
  | .register r => .mutate (.insert r :: EndaraRelay.invalidateCatalogCache)
  | .remove name => .mutate [.erase name]
  | .invalidateCatalogCache => .mutate EndaraRelay.invalidateCatalogCache
  | .invalidateEndpointToolCache name => .mutate (EndaraRelay.invalidateEndpointToolCache name)
  | .invalidateAllToolCaches => .mutate [.sweepAll]
  | .manageFlags name disabled disabledTools =>
    .mutate (.setFlags name disabled disabledTools :: EndaraRelay.invalidateCatalogCache)
  | .swapAdapter name adapter =>
    .mutate (.install name adapter :: EndaraRelay.invalidateCatalogCache)
  | .watcherFailed r disabled disabledTools =>
    .mutate (.insert r :: (EndaraRelay.invalidateCatalogCache ++
      [.setFlags r.name disabled disabledTools]))
  | .watcherStarting r disabled disabledTools adapter =>
    .mutate (.insert r :: (EndaraRelay.invalidateCatalogCache ++
      (.setFlags r.name disabled disabledTools :: .install r.name adapter ::
        EndaraRelay.invalidateEndpointToolCache r.name)))

/-- The registry under concurrent operations. -/
def registryPool (validateArguments : Option (String → Json → Json → Option Json)) :
    Pool (SharedRegistry A) (RegistryThread A) (RegistryOperation A) Bool where
  init sh := sh = .new
  launch _ _ op := some op.thread
  step sh ts t fresh := (t.step validateArguments sh ts fresh).map fun r => (r.1, r.2, [])

theorem registryPool_step {validateArguments : Option (String → Json → Json → Option Json)}
    {sh sh' : SharedRegistry A} {ts new : List (RegistryThread A)} {t t' : RegistryThread A}
    {fresh : Bool}
    (h : (registryPool validateArguments).step sh ts t fresh = some (sh', t', new)) :
    t.step validateArguments sh ts fresh = some (sh', t') ∧ new = [] := by
  obtain ⟨r, hr, heq⟩ := Option.map_eq_some_iff.1 h
  cases heq
  exact ⟨hr, rfl⟩

end EndaraRelay
