import EndaraRelay.Lib.Clock
import EndaraRelay.CatalogNames
import EndaraRelay.CatalogRebuild

/-!
# Upstream freshness windows

The registry under a clock. `CatalogCache` leaves to the environment whether a cached tool list is
inside its freshness window; here the clock decides, and adapters change what they list, their health
and their `ttlMs` hint as they like.

A read notes what it takes: for every endpoint it serves, the tool list, the deadline the list has in
the cache of its adapter, and whether this very read listed it. The catalog cache keeps the notes of
the read that filled it. Nothing looks at them: they say what `merged_catalog` serves.

**Theorem (`ttl_honoured`).** A read serves no list whose deadline had passed when the read began, as
long as no read finds a catalog in the catalog cache that was built from such a list. The catalog cache
itself knows no deadline, and serves them (`expired_list_served`).
-/

namespace EndaraRelay

open Verif

variable {A : Type}

/-! ## The registry under a clock -/

/-- What a read takes for one endpoint. -/
structure ToolSource where
  endpoint : String
  tools : List ToolInfo
  /-- The deadline of the list in the cache of its adapter, if it has one. -/
  expiresAt : Option Int
  takenAt : Int
  /-- The read itself listed the adapter. -/
  relisted : Bool

/-- `expiresAt` is the deadline of each entry's cached list, `sources` what the cached catalog was
built from. -/
structure TimedRegistry (A : Type) where
  registry : SharedRegistry A
  now : Int
  expiresAt : String → Option Int
  sources : List ToolSource

def isFresh (now : Int) : Option Int → Bool
  | none => true
  | some deadline => now < deadline

def ttlExpiry (now : Int) (ttlMs : Option Nat) : Option Int :=
  ttlMs.bind fun ms => Clock.checkedAdd now (ms * 1000000)

def CatalogRead.todo : CatalogRead → List String
  | .visit b | .parked b | .listing b _ => b.todo
  | _ => []

/-- A read, with what it takes. -/
structure TimedRead where
  pc : CatalogRead
  began : Int
  taken : List ToolSource

section

variable [McpAdapter A]

/-- Whether the cached list of the entry being visited is fresh. -/
def TimedRegistry.fresh (sh : TimedRegistry A) (pc : CatalogRead) : Bool :=
  match pc.todo with
  | [] => false
  | name :: _ => isFresh sh.now (sh.expiresAt name)

/-- The entry being visited. -/
def TimedRegistry.visiting (sh : TimedRegistry A) (pc : CatalogRead) :
    Option (String × RegisteredAdapter A) :=
  match pc.todo with
  | [] => none
  | name :: _ => (sh.registry.entries.lookup name).map fun entry => (name, entry)

/-- `store_if_epoch_unchanged` stores what this entry lists. -/
def RegisteredAdapter.stores (entry : RegisteredAdapter A) (epochBefore : Nat) : Bool :=
  entry.isHealthy && entry.toolCacheEpoch == epochBefore

/-- The deadline that is stored along with what an entry lists. -/
def TimedRegistry.newDeadline (ttlMs : A → Option Nat) (sh : TimedRegistry A)
    (entry : RegisteredAdapter A) (epochBefore : Nat) : Option Int :=
  if entry.stores epochBefore then ttlExpiry sh.now (ttlMs entry.adapter) else none

/-- What a build takes from the cache of an entry, if it does. -/
def TimedRegistry.cachedSource (sh : TimedRegistry A) (fresh : Bool) (name : String)
    (entry : RegisteredAdapter A) : List ToolSource :=
  if entry.disabled then []
  else
    match entry.cacheHit fresh with
    | some tools => [⟨name, tools, sh.expiresAt name, sh.now, false⟩]
    | none => []

/-- What a build takes from an entry that it lists. -/
def TimedRegistry.listedSource (ttlMs : A → Option Nat) (sh : TimedRegistry A) (epochBefore : Nat)
    (name : String) (entry : RegisteredAdapter A) : List ToolSource :=
  match McpAdapter.listTools entry.adapter with
  | .ok tools => [⟨name, tools, sh.newDeadline ttlMs entry epochBefore, sh.now, true⟩]
  | .error _ => []

/-- What a read takes in its next step. -/
def TimedRead.takes (ttlMs : A → Option Nat) (sh : TimedRegistry A) (r : TimedRead) :
    List ToolSource :=
  match r.pc with
  | .start =>
    if sh.registry.catalogCache.isSome then
      sh.sources.map fun src => { src with takenAt := sh.now, relisted := false }
    else []
  | .visit _ | .parked _ =>
    match sh.visiting r.pc with
    | some (name, entry) => sh.cachedSource (sh.fresh r.pc) name entry
    | none => []
  | .listing _ epochBefore =>
    match sh.visiting r.pc with
    | some (name, entry) => sh.listedSource ttlMs epochBefore name entry
    | none => []
  | _ => []

/-- The deadlines after a step of a read: the step that stores a list stores its deadline. -/
def TimedRead.deadlines (ttlMs : A → Option Nat) (sh : TimedRegistry A) (r : TimedRead) :
    String → Option Int :=
  match r.pc, sh.visiting r.pc with
  | .listing _ epochBefore, some (name, entry) =>
    match McpAdapter.listTools entry.adapter with
    | .ok _ =>
      if entry.stores epochBefore then
        Function.update sh.expiresAt name (ttlExpiry sh.now (ttlMs entry.adapter))
      else sh.expiresAt
    | .error _ => sh.expiresAt
  | _, _ => sh.expiresAt

/-- What the catalog in the cache was built from, after a step of a read. -/
def TimedRead.cachedSources (sh : TimedRegistry A) (r : TimedRead) : List ToolSource :=
  match r.pc with
  | .store generationBefore _ =>
    if sh.registry.catalogGeneration = generationBefore then r.taken else sh.sources
  | _ => sh.sources

/-- One step of `merged_catalog_with_lookup`, under the clock. -/
def TimedRead.step (ttlMs : A → Option Nat) (sh : TimedRegistry A) (populating : String → Bool)
    (r : TimedRead) : Option (TimedRegistry A × TimedRead) :=
  (r.pc.step sh.registry populating (sh.fresh r.pc)).map fun next =>
    ({ sh with
        registry := next.1
        expiresAt := r.deadlines ttlMs sh
        sources := r.cachedSources sh },
      { r with pc := next.2, taken := r.taken ++ r.takes ttlMs sh })

inductive TimedThread (A : Type) where
  | read (r : TimedRead)
  | mutate (program : List (RegistryOp A))
  /-- The clock is about to advance. -/
  | wait (nanos : Nat)
  /-- The adapter of this entry is about to change. -/
  | adapterChange (name : String) (adapter : A)

namespace TimedThread

omit [McpAdapter A]

def finished : TimedThread A := .mutate []

def holdsRead : TimedThread A → Bool
  | .read r => r.pc.holdsRead
  | .mutate (.sweep _ :: _) => true
  | _ => false

def populates (name : String) : TimedThread A → Bool
  | .read r => r.pc.populates name
  | _ => false

end TimedThread

def TimedThread.step (ttlMs : A → Option Nat) (sh : TimedRegistry A) (ts : List (TimedThread A)) :
    TimedThread A → Option (TimedRegistry A × TimedThread A)
  | .read r =>
    (r.step ttlMs sh fun name => ts.any (·.populates name)).map fun next => (next.1, .read next.2)
  | .mutate [] => none
  | .mutate (op :: rest) =>
    (op.step sh.registry (ts.any (·.holdsRead)) rest).map fun next =>
      ({ sh with registry := next.1 }, .mutate next.2)
  | .wait nanos => some ({ sh with now := sh.now + nanos }, .finished)
  | .adapterChange name adapter =>
    some ({ sh with
      registry := { sh.registry with
        entries := sh.registry.entries.modify name fun entry => { entry with adapter := adapter } } },
      .finished)

inductive TimedOperation (A : Type) where
  | mergedCatalogWithLookup
  | refreshCatalog
  /-- Any program of mutations. -/
  | mutate (program : List (RegistryOp A))
  | wait (nanos : Nat)
  | adapterChange (name : String) (adapter : A)

def TimedOperation.thread (sh : TimedRegistry A) : TimedOperation A → TimedThread A
  | .mergedCatalogWithLookup => .read ⟨.start, sh.now, []⟩
  | .refreshCatalog => .read ⟨.refresh, sh.now, []⟩
  | .mutate program => .mutate program
  | .wait nanos => .wait nanos
  | .adapterChange name adapter => .adapterChange name adapter

/-- The registry under a clock. `ttlMs` is what `list_tools_ttl_ms` of an adapter answers. -/
def timedRegistry (ttlMs : A → Option Nat) :
    Pool (TimedRegistry A) (TimedThread A) (TimedOperation A) Unit where
  init sh := sh.registry = .new
  launch sh _ op := some (op.thread sh)
  step sh ts t _ := (t.step ttlMs sh ts).map fun next => (next.1, next.2, [])

end

abbrev TimedState (A : Type) := Pool.State (TimedRegistry A) (TimedThread A)

abbrev TimedAction (A : Type) := Pool.Action (TimedOperation A) Unit

/-! ## What a read serves -/

/-- Not a list that had expired when the read began. -/
def ToolSource.Honours (began : Int) (src : ToolSource) : Prop :=
  src.relisted = true ∨ began ≤ src.takenAt ∧ isFresh src.takenAt src.expiresAt = true

/-- Every tool of the catalog is from one of these lists. -/
def Covers (sources : List ToolSource) (catalog : Catalog) : Prop :=
  ∀ p ∈ catalog.lookup, ∃ src ∈ sources, src.endpoint = p.2.1 ∧ ∃ tool ∈ src.tools, tool.name = p.2.2

/-- Every tool a finished read serves is from a list that the read took, and every such list is one the
read listed itself or took from the adapter's cache before its deadline. -/
def TimedRead.HonoursTtl (r : TimedRead) : Prop :=
  ∀ catalog, r.pc = .done catalog →
    Covers r.taken catalog ∧ ∀ src ∈ r.taken, src.Honours r.began

/-- A read that finds a catalog in the cache finds one built from lists that are still fresh. -/
def findsFresh (s : TimedState A) : TimedAction A → Bool
  | .launch _ => true
  | .run i _ =>
    match s.threads[i]? with
    | some (.read r) =>
      match r.pc with
      | .start =>
        s.shared.registry.catalogCache.isNone ||
          s.shared.sources.all fun src => isFresh s.shared.now src.expiresAt
      | _ => true
    | _ => true

/-! ## What a step of a read takes -/

def CatalogRead.collected : CatalogRead → Option Catalog
  | .visit b | .parked b | .listing b _ => some b.acc
  | .store _ result | .done result => some result
  | _ => none

theorem Covers.mono {sources sources' : List ToolSource} {catalog : Catalog}
    (h : Covers sources catalog) (hsub : ∀ src ∈ sources, src ∈ sources') :
    Covers sources' catalog := by
  intro p hp
  obtain ⟨src, hsrc, hfrom⟩ := h p hp
  exact ⟨src, hsub src hsrc, hfrom⟩

variable {name : String} {entry : RegisteredAdapter A} {b : Build} {pc : CatalogRead}
  {sources : List ToolSource}

section

variable [McpAdapter A] {ttlMs : A → Option Nat} {sh sh' : TimedRegistry A} {r r' : TimedRead}
  {populating : String → Bool}

/-- Where a row of the reverse lookup is from. -/
theorem mem_addEndpoint {skip : Bool} {listed : Except AdapterError (List ToolInfo)} {acc : Catalog}
    {p : String × (String × String)} (h : p ∈ (addEndpoint skip name entry listed acc).lookup) :
    p ∈ acc.lookup ∨ entry.disabled = false ∧ ∃ tools, listed = .ok tools ∧ p.2.1 = name ∧
      ∃ tool ∈ tools, tool.name = p.2.2 := by
  rw [addEndpoint_eq, List.mem_append, List.mem_reverse, List.mem_map] at h
  rcases h with ⟨row, hrow, rfl⟩ | h
  · refine .inr ?_
    have hname := endpoint_of_entryRows hrow
    unfold entryRows at hrow
    split at hrow
    · cases hrow
    · next hdisabled =>
      split at hrow
      · next tools =>
        obtain ⟨tool, htool, rfl⟩ := List.mem_map.1 hrow
        exact ⟨by simpa using hdisabled, tools, rfl, rfl, tool, (List.mem_filter.1 htool).1, rfl⟩
      · cases hrow
  · exact .inl h

/-- What is collected from an entry is covered once the list it gave is taken. -/
theorem Covers.collect {todo : List String} {listed : Except AdapterError (List ToolInfo)}
    {sources new : List ToolSource} (h : Covers sources b.acc)
    (hnew : entry.disabled = false → ∀ tools, listed = .ok tools →
      ∃ src ∈ new, src.endpoint = name ∧ src.tools = tools) :
    Covers (sources ++ new) (b.collect name entry todo listed).acc := by
  intro p hp
  rcases mem_addEndpoint hp with hp | ⟨hdisabled, tools, hlisted, hname, hraw⟩
  · exact h.mono (fun src hsrc => List.mem_append_left _ hsrc) p hp
  · obtain ⟨src, hsrc, hendpoint, rfl⟩ := hnew hdisabled tools hlisted
    exact ⟨src, List.mem_append_right _ hsrc, hendpoint.trans hname.symm, hraw⟩

/-- What a build takes from the cache of the entry it is at is fresh. -/
theorem cachedSource_honours {began : Int} (hbegan : began ≤ sh.now)
    (hvisiting : sh.visiting pc = some (name, entry)) :
    ∀ src ∈ sh.cachedSource (sh.fresh pc) name entry, src.Honours began := by
  intro src hsrc
  have hfresh : sh.fresh pc = isFresh sh.now (sh.expiresAt name) := by
    unfold TimedRegistry.visiting at hvisiting
    unfold TimedRegistry.fresh
    split at hvisiting
    · cases hvisiting
    · next htodo =>
      obtain ⟨_, _, heq⟩ := Option.map_eq_some_iff.1 hvisiting
      cases heq
      simp
  rw [hfresh] at hsrc
  unfold TimedRegistry.cachedSource RegisteredAdapter.cacheHit at hsrc
  by_cases hhit : (entry.isHealthy && isFresh sh.now (sh.expiresAt name)) = true
  · rw [if_pos hhit] at hsrc
    split at hsrc
    · cases hsrc
    · split at hsrc
      · rw [List.mem_singleton.1 hsrc]
        exact .inr ⟨hbegan, (Bool.and_eq_true_iff.1 hhit).2⟩
      · cases hsrc
  · rw [if_neg hhit] at hsrc
    split at hsrc <;> cases hsrc

/-- What a step takes is fresh or has just been listed; from the catalog cache it is as the guard
finds it. -/
theorem TimedRead.takes_honours (hbegan : r.began ≤ sh.now)
    (hguard : r.pc = .start → sh.registry.catalogCache.isSome →
      ∀ src ∈ sh.sources, isFresh sh.now src.expiresAt = true) :
    ∀ src ∈ r.takes ttlMs sh, src.Honours r.began := by
  intro src hsrc
  revert hsrc
  fun_cases TimedRead.takes ttlMs sh r <;> intro hsrc
  case case1 hstart hsome =>
    obtain ⟨src', hmem, rfl⟩ := List.mem_map.1 hsrc
    exact .inr ⟨hbegan, hguard hstart hsome src' hmem⟩
  case case3 b hpc name entry hvisiting => exact cachedSource_honours hbegan hvisiting src hsrc
  case case5 b hpc name entry hvisiting => exact cachedSource_honours hbegan hvisiting src hsrc
  case case7 b epochBefore hpc name entry hvisiting =>
    unfold TimedRegistry.listedSource at hsrc
    split at hsrc
    · rw [List.mem_singleton.1 hsrc]
      exact .inl rfl
    · cases hsrc
  all_goals cases hsrc

omit [McpAdapter A] in
theorem visiting_eq {todo : List String} (htodo : pc.todo = name :: todo)
    (hentry : sh.registry.entries.lookup name = some entry) : sh.visiting pc = some (name, entry) := by
  rw [TimedRegistry.visiting, htodo]
  simp [hentry]

theorem Covers.hit {todo : List String} {tools : List ToolInfo} {fresh : Bool}
    (h : Covers sources b.acc) (hhit : entry.cacheHit fresh = some tools) :
    Covers (sources ++ sh.cachedSource fresh name entry) (b.collect name entry todo (.ok tools)).acc := by
  refine h.collect fun hdisabled tools' heq => ?_
  cases heq
  unfold TimedRegistry.cachedSource
  rw [hdisabled, hhit]
  exact ⟨_, List.mem_singleton_self _, rfl, rfl⟩

theorem Covers.listed {todo : List String} {epochBefore : Nat} (h : Covers sources b.acc) :
    Covers (sources ++ sh.listedSource ttlMs epochBefore name entry)
      (b.collect name entry todo (McpAdapter.listTools entry.adapter)).acc := by
  refine h.collect fun _ tools hlisted => ?_
  unfold TimedRegistry.listedSource
  rw [hlisted]
  exact ⟨_, List.mem_singleton_self _, rfl, rfl⟩

/-- **A read covers what it has collected**, step by step. -/
theorem TimedRead.covers_step {registry' : SharedRegistry A} {pc' : CatalogRead}
    (hcache : ∀ c, sh.registry.catalogCache = some c → Covers sh.sources c)
    (h : ∀ c, r.pc.collected = some c → Covers r.taken c)
    (hpc : r.pc.step sh.registry populating (sh.fresh r.pc) = some (registry', pc')) :
    ∀ c, pc'.collected = some c → Covers (r.taken ++ r.takes ttlMs sh) c := by
  have hkeep : ∀ c, (∃ c', r.pc.collected = some c' ∧ c'.lookup = c.lookup) →
      Covers (r.taken ++ r.takes ttlMs sh) c := by
    rintro c ⟨c', hc', hlookup⟩ p hp
    rw [← hlookup] at hp
    exact (h c' hc').mono (fun src hsrc => List.mem_append_left _ hsrc) p hp
  obtain ⟨pc, began, taken⟩ := r
  cases pc with
  | start =>
    intro c hc
    dsimp only at hpc
    rw [CatalogRead.step] at hpc
    cases hcached : sh.registry.catalogCache with
    | none =>
      rw [hcached] at hpc
      cases hpc
      cases hc
    | some cached =>
      rw [hcached] at hpc
      cases hpc
      cases hc
      intro p hp
      obtain ⟨src, hsrc, hfrom⟩ := hcache _ hcached p hp
      refine ⟨{ src with takenAt := sh.now, relisted := false }, ?_, hfrom⟩
      apply List.mem_append_right
      unfold TimedRead.takes
      dsimp only
      rw [hcached]
      exact List.mem_map_of_mem hsrc
  | refresh =>
    intro c hc
    cases hpc
    cases hc
  | lock generationBefore =>
    intro c hc
    cases hpc
    cases hc
    intro p hp
    cases hp
  | visit b =>
    intro c hc
    dsimp only at hpc
    cases htodo : b.todo with
    | nil =>
      rw [CatalogRead.step, htodo] at hpc
      cases hpc
      cases hc
      exact hkeep _ ⟨b.acc, rfl, rfl⟩
    | cons name todo =>
      rw [CatalogRead.step, htodo] at hpc
      dsimp only at hpc
      split at hpc
      · cases hpc
        cases hc
        exact hkeep _ ⟨b.acc, rfl, rfl⟩
      · next entry hentry =>
        split at hpc
        · cases hpc
          cases hc
          exact hkeep _ ⟨b.acc, rfl, rfl⟩
        · split at hpc
          · next tools hhit =>
            cases hpc
            cases hc
            have hvisiting : sh.visiting (.visit b) = some (name, entry) := visiting_eq htodo hentry
            unfold TimedRead.takes
            dsimp only
            rw [hvisiting]
            exact (h b.acc rfl).hit hhit
          · cases hpc
            cases hc
            exact hkeep _ ⟨b.acc, rfl, rfl⟩
  | parked b =>
    intro c hc
    dsimp only at hpc
    cases htodo : b.todo with
    | nil =>
      rw [CatalogRead.step, htodo] at hpc
      cases hpc
    | cons name todo =>
      rw [CatalogRead.step, htodo] at hpc
      dsimp only at hpc
      split at hpc
      · cases hpc
      · next entry hentry =>
        split at hpc
        · cases hpc
        · split at hpc
          · next tools hhit =>
            cases hpc
            cases hc
            have hvisiting : sh.visiting (.parked b) = some (name, entry) := visiting_eq htodo hentry
            unfold TimedRead.takes
            dsimp only
            rw [hvisiting]
            exact (h b.acc rfl).hit hhit
          · cases hpc
            cases hc
            exact hkeep _ ⟨b.acc, rfl, rfl⟩
  | listing b epochBefore =>
    intro c hc
    dsimp only at hpc
    cases htodo : b.todo with
    | nil =>
      rw [CatalogRead.step, htodo] at hpc
      cases hpc
    | cons name todo =>
      rw [CatalogRead.step, htodo] at hpc
      dsimp only at hpc
      split at hpc
      · cases hpc
      · next entry hentry =>
        cases hpc
        cases hc
        have hvisiting : sh.visiting (.listing b epochBefore) = some (name, entry) :=
          visiting_eq htodo hentry
        unfold TimedRead.takes
        dsimp only
        rw [hvisiting]
        exact (h b.acc rfl).listed
  | store generationBefore result =>
    intro c hc
    cases hpc
    cases hc
    exact hkeep _ ⟨result, rfl, rfl⟩
  | done result => cases hpc

/-! ## Runs -/

/-- What a step of a read does to the catalog cache. -/
theorem CatalogRead.step_catalogCache {registry registry' : SharedRegistry A} {fresh : Bool}
    {pc pc' : CatalogRead} (h : pc.step registry populating fresh = some (registry', pc')) :
    registry'.catalogCache = registry.catalogCache ∧
        (∀ result, pc ≠ .store registry.catalogGeneration result) ∨
      ∃ result, pc = .store registry.catalogGeneration result ∧
        registry'.catalogCache = some result := by
  rcases (CatalogRead.step_spec h).catalogCache with hsame | hstored
  · by_cases hstore : ∃ result, pc = .store registry.catalogGeneration result
    · obtain ⟨result, rfl⟩ := hstore
      cases h
      exact .inr ⟨result, rfl, if_pos rfl⟩
    · exact .inl ⟨hsame, fun result heq => hstore ⟨result, heq⟩⟩
  · exact .inr hstored

/-- What holds of the registry: the cached catalog is covered by what it was built from. -/
def TimedRegistry.Covered (sh : TimedRegistry A) : Prop :=
  ∀ c, sh.registry.catalogCache = some c → Covers sh.sources c

/-- What holds of a read, up to now. -/
structure TimedRead.Sound (now : Int) (r : TimedRead) : Prop where
  began : r.began ≤ now
  covers : ∀ c, r.pc.collected = some c → Covers r.taken c
  honours : ∀ src ∈ r.taken, src.Honours r.began

/-- **A step of a read** keeps both, where a cached catalog it finds was built from fresh lists. -/
theorem TimedRead.step_sound (h : r.Sound sh.now) (hcovered : sh.Covered)
    (hguard : r.pc = .start → sh.registry.catalogCache.isSome →
      ∀ src ∈ sh.sources, isFresh sh.now src.expiresAt = true)
    (hstep : r.step ttlMs sh populating = some (sh', r')) :
    r'.Sound sh'.now ∧ sh'.Covered ∧ sh'.now = sh.now := by
  obtain ⟨⟨registry', pc'⟩, hpc, heq⟩ := Option.map_eq_some_iff.1 hstep
  cases heq
  refine ⟨⟨h.began, TimedRead.covers_step hcovered h.covers hpc, ?_⟩, ?_, rfl⟩
  · intro src hsrc
    rcases List.mem_append.1 hsrc with hsrc | hsrc
    · exact h.honours src hsrc
    · exact TimedRead.takes_honours h.began hguard src hsrc
  · intro c hc
    show Covers (r.cachedSources sh) c
    rcases CatalogRead.step_catalogCache hpc with ⟨hsame, hne⟩ | ⟨result, hstore, hstored⟩
    · have hsources : r.cachedSources sh = sh.sources := by
        unfold TimedRead.cachedSources
        split
        · next generationBefore result hstore =>
          refine if_neg fun hgen => ?_
          exact hne result (hgen ▸ hstore)
        · rfl
      rw [hsources]
      exact hcovered c (hsame ▸ hc)
    · have hsources : r.cachedSources sh = r.taken := by
        rw [TimedRead.cachedSources, hstore]
        exact if_pos rfl
      rw [hsources]
      cases hstored.symm.trans hc
      exact h.covers _ (by rw [hstore]; rfl)

end

section

variable [McpAdapter A] {ttlMs : A → Option Nat} {s : TimedState A}

omit [McpAdapter A] in
/-- A mutation leaves the cached catalog as it is, or takes it away. -/
theorem RegistryOp.step_catalogCache {registry registry' : SharedRegistry A} {readHeld : Bool}
    {op : RegistryOp A} {rest rest' : List (RegistryOp A)}
    (h : op.step registry readHeld rest = some (registry', rest')) :
    registry'.catalogCache = registry.catalogCache ∨ registry'.catalogCache = none := by
  revert h
  fun_cases RegistryOp.step registry readHeld rest op <;> intro h <;> cases h
  all_goals first | exact .inl rfl | exact .inr rfl

/-- What holds of a thread, up to now. -/
def TimedThread.Sound (now : Int) : TimedThread A → Prop
  | .read r => r.Sound now
  | _ => True

omit [McpAdapter A] in
theorem TimedThread.Sound.mono {now now' : Int} {t : TimedThread A} (h : t.Sound now)
    (hle : now ≤ now') : t.Sound now' := by
  cases t with
  | read r =>
    obtain ⟨hbegan, hcovers, hhonours⟩ := h
    exact ⟨hbegan.trans hle, hcovers, hhonours⟩
  | _ => trivial

theorem timedRegistry_step {sh sh' : TimedRegistry A} {ts new : List (TimedThread A)}
    {t t' : TimedThread A} {c : Unit}
    (h : (timedRegistry ttlMs).step sh ts t c = some (sh', t', new)) :
    t.step ttlMs sh ts = some (sh', t') ∧ new = [] := by
  obtain ⟨r, hr, heq⟩ := Option.map_eq_some_iff.1 h
  cases heq
  exact ⟨hr, rfl⟩

theorem TimedThread.step_sound {sh sh' : TimedRegistry A} {ts : List (TimedThread A)}
    {t t' : TimedThread A} (h : t.Sound sh.now) (hcovered : sh.Covered)
    (hguard : ∀ r, t = .read r → r.pc = .start → sh.registry.catalogCache.isSome →
      ∀ src ∈ sh.sources, isFresh sh.now src.expiresAt = true)
    (hstep : t.step ttlMs sh ts = some (sh', t')) :
    t'.Sound sh'.now ∧ sh'.Covered ∧ sh.now ≤ sh'.now := by
  cases t with
  | read r =>
    obtain ⟨⟨sh₁, r₁⟩, hr, heq⟩ := Option.map_eq_some_iff.1 hstep
    cases heq
    obtain ⟨hsound, hcov, hnow⟩ := TimedRead.step_sound h hcovered (hguard r rfl) hr
    exact ⟨hsound, hcov, hnow.ge⟩
  | mutate program =>
    cases program with
    | nil => cases hstep
    | cons op rest =>
      obtain ⟨⟨registry₁, rest₁⟩, hop, heq⟩ := Option.map_eq_some_iff.1 hstep
      cases heq
      refine ⟨trivial, fun c hc => ?_, le_rfl⟩
      rcases RegistryOp.step_catalogCache hop with hsame | hnone
      · exact hcovered c (hsame ▸ hc)
      · exact absurd (hnone.symm.trans hc) (by simp)
  | wait nanos =>
    cases hstep
    exact ⟨trivial, hcovered, by dsimp only; omega⟩
  | adapterChange name adapter =>
    cases hstep
    exact ⟨trivial, hcovered, le_rfl⟩

/-- **Deadlines are honoured** as long as no read finds an expired list in the catalog cache. -/
theorem ttl_honoured
    (h : (timedRegistry ttlMs).system.ReachableWhile (fun s a => findsFresh s a = true) s) :
    ∀ r, .read r ∈ s.threads → r.HonoursTtl := by
  have hinv : s.shared.Covered ∧ ∀ t ∈ s.threads, t.Sound s.shared.now := by
    refine Pool.invariant_of (I := fun _ => True)
      (J := fun s => s.shared.Covered ∧ ∀ t ∈ s.threads, t.Sound s.shared.now)
      (fun _ _ => trivial) ?_ ?_ ?_ h
    · intro sh hinit
      refine ⟨fun c hc => ?_, by simp⟩
      rw [hinit] at hc
      cases hc
    · intro s op t _ hJ _ hlaunch
      refine ⟨hJ.1, fun u hu => ?_⟩
      rcases List.mem_append.1 hu with hu | hu
      · exact hJ.2 u hu
      · rw [List.mem_singleton.1 hu]
        cases hlaunch
        cases op with
        | mergedCatalogWithLookup =>
          exact TimedRead.Sound.mk le_rfl (fun _ hc => (nomatch hc)) (List.forall_mem_nil _)
        | refreshCatalog =>
          exact TimedRead.Sound.mk le_rfl (fun _ hc => (nomatch hc)) (List.forall_mem_nil _)
        | mutate program => trivial
        | wait nanos => trivial
        | adapterChange name adapter => trivial
    · intro s i c t sh t' new _ hJ hok hi hstep
      obtain ⟨hthread, rfl⟩ := timedRegistry_step hstep
      have hguard : ∀ r, t = .read r → r.pc = .start → s.shared.registry.catalogCache.isSome →
          ∀ src ∈ s.shared.sources, isFresh s.shared.now src.expiresAt = true := by
        rintro ⟨pc, began, taken⟩ rfl hstart hsome src hsrc
        cases hstart
        simp only [findsFresh, hi] at hok
        rcases Bool.or_eq_true_iff.1 hok with hnone | hall
        · rw [Option.isNone_iff_eq_none.1 hnone] at hsome
          cases hsome
        · exact List.all_eq_true.1 hall src hsrc
      obtain ⟨hsound, hcov, hle⟩ :=
        TimedThread.step_sound (hJ.2 t (List.mem_of_getElem? hi)) hJ.1 hguard hthread
      refine ⟨hcov, Pool.forall_mem_stepped hsound (by simp) fun j u _ hj => ?_⟩
      exact (hJ.2 u (List.mem_of_getElem? hj)).mono hle
  intro r hr catalog hdone
  have hsound : r.Sound s.shared.now := hinv.2 _ hr
  exact ⟨hsound.covers catalog (by rw [hdone]; rfl), hsound.honours⟩

end

/-! ## An expired list -/

/-- An adapter that lists one tool, with a hint of one second. -/
def shortLived : FixedAdapter := { tools := .ok [bareTool "search"] }

def emptyTimed : TimedRegistry FixedAdapter := ⟨.new, 0, fun _ => none, []⟩

theorem timedRegistry_init (ttlMs : FixedAdapter → Option Nat) :
    (timedRegistry ttlMs).system.init ⟨emptyTimed, []⟩ := ⟨rfl, rfl⟩

/-- The adapter is registered and the catalog read; the clock advances, and the catalog is read once
more. -/
def twoReads (nanos : Nat) : List (TimedAction FixedAdapter) :=
  [.launch (.mutate [.insert ⟨"docs", shortLived, "http", none, none⟩]), .run 0 (),
    .launch .mergedCatalogWithLookup] ++ List.replicate 8 (.run 1 ()) ++
    [.launch (.wait nanos), .run 2 (), .launch .mergedCatalogWithLookup, .run 3 ()]

/-- **An expired list is served**: a second after it was listed with a hint of one second, the list
comes out of the catalog cache. -/
theorem expired_list_served :
    ∃ s : TimedState FixedAdapter,
      (timedRegistry fun _ => some 1000).system.Reachable s ∧
        ∃ r, .read r ∈ s.threads ∧ ¬ r.HonoursTtl := by
  obtain ⟨s, hrun, r, hr, catalog, hpc, src, hsrc, hfrom⟩ :
      ∃ s, (timedRegistry fun _ => some 1000).system.run ⟨emptyTimed, []⟩ (twoReads 1000000000) =
        some s ∧ ∃ r, s.threads[3]? = some (.read r) ∧ ∃ catalog, r.pc = .done catalog ∧
          ∃ src, r.taken = [src] ∧
            src.relisted = false ∧ src.takenAt = 1000000000 ∧ src.expiresAt = some 1000000000 :=
    ⟨_, rfl, _, rfl, _, rfl, _, rfl, rfl, rfl, rfl⟩
  refine ⟨s, System.Reachable.run (.init (timedRegistry_init _)) hrun, r, List.mem_of_getElem? hr,
    fun hhonours => ?_⟩
  obtain ⟨hlisted, htaken, hexpires⟩ := hfrom
  rcases (hhonours catalog hpc).2 src (by rw [hsrc]; exact List.mem_singleton_self _) with hre | ⟨-, hf⟩
  · rw [hlisted] at hre
    cases hre
  · rw [hexpires, htaken] at hf
    cases hf

/-- Half a second after, the list is served from the catalog cache as it should be. -/
theorem ttl_honoured_within :
    ∃ s : TimedState FixedAdapter, (∃ r catalog, .read r ∈ s.threads ∧ r.pc = .done catalog ∧
        catalog.tools.length = 1 ∧ r.began = 500000000) ∧
      ∀ r, .read r ∈ s.threads → r.HonoursTtl := by
  obtain ⟨s, hrun, r, catalog, hr, hpc, hlen, hbegan⟩ :
      ∃ s, (timedRegistry fun _ => some 1000).system.runWhile findsFresh ⟨emptyTimed, []⟩
        (twoReads 500000000) = some s ∧ ∃ r catalog, s.threads[3]? = some (.read r) ∧
          r.pc = .done catalog ∧ catalog.tools.length = 1 ∧ r.began = 500000000 :=
    ⟨_, rfl, _, _, rfl, rfl, rfl, rfl⟩
  exact ⟨s, ⟨r, catalog, List.mem_of_getElem? hr, hpc, hlen, hbegan⟩,
    ttl_honoured (.run (fun _ _ h => h) (.init (timedRegistry_init _)) hrun)⟩

end EndaraRelay
