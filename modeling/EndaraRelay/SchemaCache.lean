import EndaraRelay.CatalogServed

/-!
# The validators of tool calls

`route_tool_call` validates the arguments of a call with a validator compiled from the `inputSchema` of
the catalog entry it resolved. Compiled validators are cached under the prefixed name. The cache is
filled without a look at the catalog generation, and only `invalidate_catalog_cache` clears it, as its
last step.

Calls run as threads beside the readers and the mutators of the registry. A mutator is a program of
elementary operations; between two parts of it `schema_cache` is cleared. A call remembers whether
all mutators were finished when it started. It is *quiet* as long as none has started since.

A call that resolved its catalog before an invalidation may cache its validator after the clear; an
adapter swapped in with `invalidate_endpoint_tool_cache` leaves the validators of the old one in
place. A quiet call then meets a validator of an earlier schema (`validator_of_earlier_schema`).
`ValidatorsGuarded` says when this does not happen: what is cached agrees with every catalog the
registry may serve and with the quiet calls under way, or is about to be cleared. In every run whose
steps meet it, a quiet call is validated by the validator of its own catalog entry
(`validated_by_own_schema`).
-/

namespace EndaraRelay

open Verif

/-! ## Calls -/

/-- A `tools/call`. `quietSince` is for the properties: the number of threads when it started, if every
mutator was finished then. -/
structure ValidatedCall where
  prefixedName : String
  quietSince : Option Nat

/-- Where a `route_tool_call` stands. -/
inductive CallPc (V : Type) where
  | fetch (read : CatalogRead)
  /-- The catalog is fetched, `adapters.read` comes next. -/
  | dispatch (catalog : Catalog)
  /-- Holding `adapters.read`; `schema_cache.read` comes next. -/
  | validateRead (tool : ToolInfo)
  /-- A miss: `schema_cache.write` comes next. -/
  | validateWrite (tool : ToolInfo)
  /-- The arguments are validated with this validator, if there is a useful one. -/
  | validated (tool : ToolInfo) (validator : Option V)
  /-- At the adapter. -/
  | calling
  | finished

/-- The registry, with `schema_cache`. -/
structure SchemaShared (A V : Type) where
  registry : SharedRegistry A
  schemaCache : List (String × Option V)

inductive SchemaThread (A V : Type) where
  | read (pc : CatalogRead)
  /-- A mutator: the operations of its current part, and the parts after the clears still to come. -/
  | mutate (program : List (RegistryOp A)) (next : List (List (RegistryOp A)))
  | call (call : ValidatedCall) (pc : CallPc V)

namespace SchemaThread

variable {A V : Type}

def inRegistry : SchemaThread A V → RegistryThread A
  | .read pc => .read pc .plain
  | .mutate program _ => .mutate program
  | .call _ (.fetch pc) => .read pc .plain
  | .call _ (.dispatch _) | .call _ .finished => .finished
  | .call _ _ => .calling

def mutates : SchemaThread A V → Bool
  | .mutate _ _ => true
  | _ => false

def busy : SchemaThread A V → Bool
  | .mutate program next => !(program.isEmpty && next.isEmpty)
  | _ => false

end SchemaThread

variable {A V : Type} [McpAdapter A]

def RegistryOp.erases : RegistryOp A → Bool
  | .erase _ => true
  | _ => false

/-- The clears still to come after an operation: `remove` of a name that is not registered has none. -/
def clearsLeft (op : RegistryOp A) (rest' : List (RegistryOp A)) (next : List (List (RegistryOp A))) :
    List (List (RegistryOp A)) :=
  if op.erases && rest'.isEmpty then next.tail else next

section

variable (compile : String → Json → Option V)

/-- One step of `route_tool_call`. The Boolean choice says whether a cached tool list is fresh,
whether `validate_inputs` is on, whether the arguments are valid. -/
def CallPc.step (sh : SchemaShared A V) (populating : String → Bool) (prefixedName : String)
    (choice : Bool) : CallPc V → Option (SchemaShared A V × CallPc V)
  | .fetch (.done catalog) => some (sh, .dispatch catalog)
  | .fetch read =>
    (read.step sh.registry populating choice).map fun r => ({ sh with registry := r.1 }, .fetch r.2)
  | .dispatch catalog =>
    match routeDecision none catalog sh.registry.entries prefixedName .null with
    | .called _ _ _ =>
      if choice then
        match catalog.tools.find? fun t => t.name = prefixedName with
        | some tool => some (sh, .validateRead tool)
        | none => some (sh, .calling)
      else some (sh, .calling)
    | _ => some (sh, .finished)
  | .validateRead tool =>
    match sh.schemaCache.lookup prefixedName with
    | some validator => some (sh, .validated tool validator)
    | none => some (sh, .validateWrite tool)
  | .validateWrite tool =>
    match sh.schemaCache.lookup prefixedName with
    | some validator => some (sh, .validated tool validator)
    | none =>
      let compiled := compile prefixedName tool.inputSchema
      some ({ sh with schemaCache := (prefixedName, compiled) :: sh.schemaCache },
        .validated tool compiled)
  | .validated _ _ => some (sh, if choice then .calling else .finished)
  | .calling => some (sh, .finished)
  | .finished => none

def SchemaThread.step (sh : SchemaShared A V) (ts : List (SchemaThread A V)) (choice : Bool) :
    SchemaThread A V → Option (SchemaShared A V × SchemaThread A V)
  | .read (.done _) => none
  | .read pc =>
    (pc.step sh.registry (fun name => (ts.map inRegistry).any (·.populates name)) choice).map
      fun r => ({ sh with registry := r.1 }, .read r.2)
  | .mutate [] [] => none
  | .mutate [] (program :: next) => some ({ sh with schemaCache := [] }, .mutate program next)
  | .mutate (op :: rest) next =>
    (op.step sh.registry ((ts.map inRegistry).any (·.holdsRead)) rest).map fun r =>
      ({ sh with registry := r.1 }, .mutate r.2 (clearsLeft op r.2 next))
  | .call c pc =>
    (pc.step compile sh (fun name => (ts.map inRegistry).any (·.populates name))
      c.prefixedName choice).map fun r => (r.1, .call c r.2)

end

inductive SchemaOperation (A : Type) where
  | registry (op : RegistryOperation A)
  | routeToolCall (prefixedName : String)

/-- The thread of an operation on the registry, with the clears of `invalidate_catalog_cache`. The call
of a profile is a call once it has passed its check. -/
def RegistryOperation.schemaThread : RegistryOperation A → Option (SchemaThread A V)
  | .mergedCatalogWithLookup => some (.read .start)
  | .refreshCatalog => some (.read .refresh)
  | .profileRouteToolCall _ => none
  | .register r => some (.mutate (.insert r :: EndaraRelay.invalidateCatalogCache) [[]])
  | .remove name => some (.mutate [.erase name] [[]])
  | .invalidateCatalogCache => some (.mutate EndaraRelay.invalidateCatalogCache [[]])
  | .invalidateEndpointToolCache name =>
    some (.mutate (EndaraRelay.invalidateEndpointToolCache name) [])
  | .invalidateAllToolCaches => some (.mutate [.sweepAll] [])
  | .manageFlags name disabled disabledTools =>
    some (.mutate (.setFlags name disabled disabledTools :: EndaraRelay.invalidateCatalogCache) [[]])
  | .swapAdapter name adapter =>
    some (.mutate (.install name adapter :: EndaraRelay.invalidateCatalogCache) [[]])
  | .watcherFailed r disabled disabledTools =>
    some (.mutate (.insert r :: EndaraRelay.invalidateCatalogCache)
      [[.setFlags r.name disabled disabledTools]])
  | .watcherStarting r disabled disabledTools adapter =>
    some (.mutate (.insert r :: EndaraRelay.invalidateCatalogCache)
      [.setFlags r.name disabled disabledTools :: .install r.name adapter ::
        EndaraRelay.invalidateEndpointToolCache r.name])

def SchemaOperation.thread (ts : List (SchemaThread A V)) :
    SchemaOperation A → Option (SchemaThread A V)
  | .registry op => op.schemaThread
  | .routeToolCall prefixedName =>
    some (.call ⟨prefixedName, if ts.any (·.busy) then none else some ts.length⟩ (.fetch .start))

/-- The registry and its schema cache under concurrent operations. -/
def schemaPool (compile : String → Json → Option V) :
    Pool (SchemaShared A V) (SchemaThread A V) (SchemaOperation A) Bool where
  init sh := sh = ⟨.new, []⟩
  launch _ ts op := op.thread ts
  step sh ts t choice := (t.step compile sh ts choice).map fun r => (r.1, r.2, [])

/-! ## What a step does -/

/-- The steps of a call that has its catalog, with what they do to the cached validators. -/
inductive CallPc.Moves (compile : String → Json → Option V) (name : String)
    (cache : List (String × Option V)) : CallPc V → CallPc V → List (String × Option V) → Prop
  | fetched (catalog : Catalog) : Moves compile name cache (.fetch (.done catalog)) (.dispatch catalog) cache
  | resolved {catalog : Catalog} {tool : ToolInfo}
      (h : catalog.tools.find? (fun t => t.name = name) = some tool) :
      Moves compile name cache (.dispatch catalog) (.validateRead tool) cache
  | hit {pc : CallPc V} {tool : ToolInfo} {validator : Option V}
      (hpc : pc = .validateRead tool ∨ pc = .validateWrite tool)
      (h : cache.lookup name = some validator) :
      Moves compile name cache pc (.validated tool validator) cache
  | miss {tool : ToolInfo} (h : cache.lookup name = none) :
      Moves compile name cache (.validateRead tool) (.validateWrite tool) cache
  | compiled {tool : ToolInfo} (h : cache.lookup name = none) :
      Moves compile name cache (.validateWrite tool) (.validated tool (compile name tool.inputSchema))
        ((name, compile name tool.inputSchema) :: cache)
  | past {pc pc' : CallPc V} (h : pc' = .calling ∨ pc' = .finished) :
      Moves compile name cache pc pc' cache

variable {pc pc' : CallPc V} {ts : List (SchemaThread A V)} {sh sh' : SchemaShared A V}
  {c : ValidatedCall} {tool : ToolInfo}

theorem CallPc.Moves.ne_fetch {compile : String → Json → Option V} {name : String}
    {cache cache' : List (String × Option V)} (h : pc.Moves compile name cache pc' cache')
    (read : CatalogRead) : pc' ≠ .fetch read := by
  cases h with
  | past hpast => rcases hpast with rfl | rfl <;> exact nofun
  | _ => exact nofun

section Steps

variable {compile : String → Json → Option V} {sh sh' : SchemaShared A V} {choice : Bool}

theorem CallPc.step_cases {populating : String → Bool} {name : String}
    (h : pc.step compile sh populating name choice = some (sh', pc')) :
    (∃ read read' registry, pc = .fetch read ∧ pc' = .fetch read' ∧
      read.StepSpec sh.registry registry read' ∧ sh' = { sh with registry := registry }) ∨
    (sh'.registry = sh.registry ∧ pc.Moves compile name sh.schemaCache pc' sh'.schemaCache) := by
  cases pc with
  | fetch read =>
    by_cases hdone : ∃ catalog, read = .done catalog
    · obtain ⟨catalog, rfl⟩ := hdone
      cases h
      exact .inr ⟨rfl, .fetched catalog⟩
    · have hread : (read.step sh.registry populating choice).map
          (fun r => (({ sh with registry := r.1 } : SchemaShared A V), CallPc.fetch r.2)) =
            some (sh', pc') := by
        cases read with
        | done catalog => exact absurd ⟨catalog, rfl⟩ hdone
        | _ => exact h
      obtain ⟨r, hr, heq⟩ := Option.map_eq_some_iff.1 hread
      cases heq
      exact .inl ⟨read, r.2, r.1, rfl, rfl, CatalogRead.step_spec hr, rfl⟩
  | dispatch catalog =>
    right
    simp only [CallPc.step] at h
    split at h
    · split at h
      · split at h
        · next tool htool =>
          cases h
          exact ⟨rfl, .resolved htool⟩
        · cases h
          exact ⟨rfl, .past (.inl rfl)⟩
      · cases h
        exact ⟨rfl, .past (.inl rfl)⟩
    · cases h
      exact ⟨rfl, .past (.inr rfl)⟩
  | validateRead tool =>
    right
    simp only [CallPc.step] at h
    split at h
    · next hhit =>
      cases h
      exact ⟨rfl, .hit (.inl rfl) hhit⟩
    · next hmiss =>
      cases h
      exact ⟨rfl, .miss hmiss⟩
  | validateWrite tool =>
    right
    simp only [CallPc.step] at h
    split at h
    · next hhit =>
      cases h
      exact ⟨rfl, .hit (.inr rfl) hhit⟩
    · next hmiss =>
      cases h
      exact ⟨rfl, .compiled hmiss⟩
  | validated tool validator =>
    right
    simp only [CallPc.step] at h
    cases choice with
    | true =>
      cases h
      exact ⟨rfl, .past (.inl rfl)⟩
    | false =>
      cases h
      exact ⟨rfl, .past (.inr rfl)⟩
  | calling =>
    cases h
    exact .inr ⟨rfl, .past (.inr rfl)⟩
  | finished => cases h

/-- What a step of a thread can be: a step of a reader of the catalog, of a call that has its catalog, of
a mutator, or a clear. -/
theorem SchemaThread.step_cases {t t' : SchemaThread A V}
    (h : t.step compile sh ts choice = some (sh', t')) :
    (∃ pc pc' registry, pc.StepSpec sh.registry registry pc' ∧ sh' = { sh with registry := registry } ∧
      (t = .read pc ∧ t' = .read pc' ∨ ∃ c, t = .call c (.fetch pc) ∧ t' = .call c (.fetch pc'))) ∨
    (∃ c pc pc', t = .call c pc ∧ t' = .call c pc' ∧ sh'.registry = sh.registry ∧
      pc.Moves compile c.prefixedName sh.schemaCache pc' sh'.schemaCache) ∨
    (∃ op rest next registry rest', t = .mutate (op :: rest) next ∧
      op.step sh.registry ((ts.map inRegistry).any (·.holdsRead)) rest = some (registry, rest') ∧
      sh' = { sh with registry := registry } ∧ t' = .mutate rest' (clearsLeft op rest' next)) ∨
    (∃ program next, t = .mutate [] (program :: next) ∧ sh' = { sh with schemaCache := [] } ∧
      t' = .mutate program next) := by
  cases t with
  | read pc =>
    by_cases hdone : ∃ catalog, pc = .done catalog
    · obtain ⟨catalog, rfl⟩ := hdone
      cases h
    · have hread : (pc.step sh.registry
          (fun name => (ts.map inRegistry).any (·.populates name)) choice).map
          (fun r => (({ sh with registry := r.1 } : SchemaShared A V), SchemaThread.read r.2)) =
            some (sh', t') := by
        cases pc with
        | done catalog => exact absurd ⟨catalog, rfl⟩ hdone
        | _ => exact h
      obtain ⟨r, hr, heq⟩ := Option.map_eq_some_iff.1 hread
      cases heq
      exact .inl ⟨pc, r.2, r.1, CatalogRead.step_spec hr, rfl, .inl ⟨rfl, rfl⟩⟩
  | mutate program next =>
    cases program with
    | nil =>
      cases next with
      | nil => cases h
      | cons program next =>
        cases h
        exact .inr (.inr (.inr ⟨program, next, rfl, rfl, rfl⟩))
    | cons op rest =>
      obtain ⟨r, hop, heq⟩ := Option.map_eq_some_iff.1 h
      cases heq
      exact .inr (.inr (.inl ⟨op, rest, next, r.1, r.2, rfl, hop, rfl, rfl⟩))
  | call c pc =>
    obtain ⟨r, hpc, heq⟩ := Option.map_eq_some_iff.1 h
    cases heq
    rcases CallPc.step_cases hpc with ⟨read, read', registry, rfl, hpc', hspec, hsh⟩ | ⟨hreg, hmoves⟩
    · exact .inl ⟨read, read', registry, hspec, hsh, .inr ⟨c, rfl, by rw [hpc']⟩⟩
    · exact .inr (.inl ⟨c, pc, r.2, rfl, rfl, hreg, hmoves⟩)

end Steps

/-! ## Quiet calls and agreement -/

abbrev SchemaState (A V : Type) := Pool.State (SchemaShared A V) (SchemaThread A V)

abbrev SchemaAction (A : Type) := Pool.Action (SchemaOperation A) Bool

/-- Every mutator was finished when the call started, and none has started since. -/
def Quiet (ts : List (SchemaThread A V)) (c : ValidatedCall) : Prop :=
  ∃ n, c.quietSince = some n ∧ ∀ (j : Nat) t, n ≤ j → ts[j]? = some t → t.mutates = false

/-- A mutator whose last operations are followed by a clear. -/
def SchemaThread.clearsSoon : SchemaThread A V → Bool
  | .mutate program (_ :: _) => !program.any (·.erases)
  | _ => false

/-- Some thread will clear the schema cache. -/
def ClearPending (ts : List (SchemaThread A V)) : Prop := ∃ t ∈ ts, t.clearsSoon = true

section

variable (compile : String → Json → Option V) (name : String) (validator : Option V)

/-- The catalog gives the name a schema that compiles to this validator, if it has the name. -/
def Agrees (catalog : Catalog) : Prop :=
  ∀ tool, catalog.tools.find? (fun t => t.name = name) = some tool →
    compile name tool.inputSchema = validator

/-- The catalogs and the entry a call may come to have agree with the validator. -/
def CallPc.Agrees (entries : Entries A) : CallPc V → Prop
  | .fetch read => ∀ catalog, read.Outcomes entries catalog →
      EndaraRelay.Agrees compile name validator catalog
  | .dispatch catalog => EndaraRelay.Agrees compile name validator catalog
  | .validateRead tool | .validateWrite tool => compile name tool.inputSchema = validator
  | _ => True

/-- The validator is the one of every catalog the registry may serve, and of every quiet call under
way. -/
structure Fits (s : SchemaState A V) : Prop where
  served : Served (Agrees compile name validator) s.shared.registry (s.threads.map (·.inRegistry))
  calls : ∀ c pc, .call c pc ∈ s.threads → c.prefixedName = name → Quiet s.threads c →
    pc.Agrees compile name validator s.shared.registry.entries

end

/-- A validator that is cached fits or will be cleared; and so does every cached validator after an edit
of the entries. -/
def ValidatorsGuarded (compile : String → Json → Option V) (s : SchemaState A V) :
    SchemaAction A → Prop
  | .launch _ => True
  | .run i _ =>
    (∀ c tool, s.threads[i]? = some (.call c (.validateWrite tool)) →
      s.shared.schemaCache.lookup c.prefixedName = none →
      ClearPending s.threads ∨ Fits compile c.prefixedName (compile c.prefixedName tool.inputSchema) s) ∧
    (∀ op rest next registry rest', s.threads[i]? = some (.mutate (op :: rest) next) →
      op.edits = true →
      op.step s.shared.registry ((s.threads.map (·.inRegistry)).any (·.holdsRead)) rest =
        some (registry, rest') →
      ClearPending (Pool.stepped s.threads i (.mutate rest' (clearsLeft op rest' next)) []) ∨
        ∀ name validator, s.shared.schemaCache.lookup name = some validator →
          ∀ catalog, Rebuild registry.entries catalog → Agrees compile name validator catalog)

/-- What is cached fits or will be cleared. The mutators a call saw finished stay so, and readers have
noted generations that were reached. -/
structure SchemaInv (compile : String → Json → Option V) (s : SchemaState A V) : Prop where
  cached : ∀ name validator, s.shared.schemaCache.lookup name = some validator →
    ClearPending s.threads ∨ Fits compile name validator s
  validated : ∀ c tool validator, .call c (.validated tool validator) ∈ s.threads →
    Quiet s.threads c → validator = compile c.prefixedName tool.inputSchema

/-- What does not depend on the guard. -/
structure SchemaSound (s : SchemaState A V) : Prop where
  noted : ∀ pc use, .read pc use ∈ s.threads.map (·.inRegistry) →
    ∀ g, pc.generation = some g → g ≤ s.shared.registry.catalogGeneration
  since : ∀ c pc n, .call c pc ∈ s.threads → c.quietSince = some n → n ≤ s.threads.length
  idle : ∀ c pc n, .call c pc ∈ s.threads → c.quietSince = some n →
    ∀ (j : Nat) t, j < n → s.threads[j]? = some t → t.busy = false

/-! ## Invariants -/

section Run

variable {compile : String → Json → Option V} {s : SchemaState A V} {i : Nat}
  {t t' : SchemaThread A V} {sh : SchemaShared A V} {choice : Bool}

theorem schemaPool_step {ts new : List (SchemaThread A V)}
    (h : (schemaPool compile).step sh ts t choice = some (sh', t', new)) :
    t.step compile sh ts choice = some (sh', t') ∧ new = [] := by
  obtain ⟨r, hr, heq⟩ := Option.map_eq_some_iff.1 h
  cases heq
  exact ⟨hr, rfl⟩

/-- A thread keeps its kind, and a call what it noted at its start. -/
theorem SchemaThread.step_kind (h : t.step compile sh ts choice = some (sh', t')) :
    t'.mutates = t.mutates ∧ (t.mutates = false ∨ t.busy = true) ∧
      ∀ c pc', t' = .call c pc' → ∃ pc, t = .call c pc := by
  rcases SchemaThread.step_cases h with ⟨pc, pc', registry, -, -, ⟨rfl, rfl⟩ | ⟨c, rfl, rfl⟩⟩ |
    ⟨c, pc, pc', rfl, rfl, -, -⟩ | ⟨op, rest, next, registry, rest', rfl, -, -, rfl⟩ |
    ⟨program, next, rfl, -, rfl⟩
  · exact ⟨rfl, .inl rfl, fun _ _ h => (by cases h)⟩
  · refine ⟨rfl, .inl rfl, fun c' pc₁ h => ?_⟩
    cases h
    exact ⟨_, rfl⟩
  · refine ⟨rfl, .inl rfl, fun c' pc₁ h => ?_⟩
    cases h
    exact ⟨_, rfl⟩
  · exact ⟨rfl, .inr rfl, fun _ _ h => (by cases h)⟩
  · exact ⟨rfl, .inr rfl, fun _ _ h => (by cases h)⟩

/-- The generation never goes back, and what a reader notes is the current one. -/
theorem SchemaThread.step_noted (h : t.step compile sh ts choice = some (sh', t')) :
    sh.registry.catalogGeneration ≤ sh'.registry.catalogGeneration ∧
      ∀ pc use g, t'.inRegistry = .read pc use → pc.generation = some g →
        g = sh.registry.catalogGeneration ∨
          ∃ pc₀, t.inRegistry = .read pc₀ use ∧ pc₀.generation = some g := by
  rcases SchemaThread.step_cases h with ⟨pc, pc', registry, hspec, rfl, hread⟩ |
    ⟨c, pc, pc', rfl, rfl, hreg, hmoves⟩ | ⟨op, rest, next, registry, rest', rfl, hop, rfl, rfl⟩ |
    ⟨program, next, rfl, rfl, rfl⟩
  · refine ⟨hspec.catalogGeneration.ge, fun pc₁ use g heq hg => ?_⟩
    obtain ⟨ht, ht'⟩ : t.inRegistry = .read pc .plain ∧ t'.inRegistry = .read pc' .plain := by
      rcases hread with ⟨rfl, rfl⟩ | ⟨c, rfl, rfl⟩
      · exact ⟨rfl, rfl⟩
      · exact ⟨rfl, rfl⟩
    rw [ht'] at heq
    cases heq
    rcases hspec.generation g hg with hg | ⟨-, hg⟩
    · exact .inr ⟨pc, ht, hg⟩
    · exact .inl hg
  · refine ⟨hreg ▸ Nat.le_refl _, fun pc₁ use g heq hg => ?_⟩
    cases pc' with
    | fetch read => exact absurd rfl (hmoves.ne_fetch read)
    | _ => cases heq
  · refine ⟨?_, fun pc₁ use g heq _ => (by cases heq)⟩
    obtain ⟨-, ⟨-, -, -, hgen⟩ | ⟨-, ⟨-, hgen⟩ | ⟨-, hgen⟩⟩⟩ := RegistryOp.step_spec hop
    · exact hgen.ge
    · exact hgen.ge
    · exact hgen ▸ Nat.le_succ _
  · exact ⟨Nat.le_refl _, fun pc₁ use g heq _ => (by cases heq)⟩

omit [McpAdapter A] in
/-- A call that is quiet after a step was quiet before. -/
theorem Quiet.of_stepped (hi : s.threads[i]? = some t) (hkind : t'.mutates = t.mutates)
    (h : Quiet (Pool.stepped s.threads i t' []) c) : Quiet s.threads c := by
  obtain ⟨n, hn, hnone⟩ := h
  refine ⟨n, hn, fun j u hle hj => ?_⟩
  rcases eq_or_ne j i with rfl | hne
  · rw [hi] at hj
    cases hj
    rw [← hkind]
    exact hnone j t' hle (Pool.getElem?_stepped_self hi)
  · exact hnone j u hle (Pool.getElem?_stepped_of_ne hj hne)

omit [McpAdapter A] in
/-- While a call is quiet no mutator moves. -/
theorem SchemaSound.not_busy (hsound : SchemaSound s) (hmem : .call c pc ∈ s.threads)
    (hquiet : Quiet s.threads c) (hi : s.threads[i]? = some t) :
    t.mutates = false ∨ t.busy = false := by
  obtain ⟨n, hn, hnone⟩ := hquiet
  rcases Nat.lt_or_ge i n with hlt | hle
  · exact .inr (hsound.idle c pc n hmem hn i t hlt hi)
  · exact .inl (hnone i t hle hi)

theorem schemaSound_run {ok : SchemaState A V → SchemaAction A → Prop}
    (h : (schemaPool compile).system.ReachableWhile ok s) : SchemaSound s := by
  refine Pool.invariant_of (I := fun _ => True) (fun _ _ => trivial) ?_ ?_ ?_ h
  · intro sh _
    exact ⟨fun _ _ hmem => (by cases hmem), fun _ _ _ hmem => (by cases hmem),
      fun _ _ _ hmem => (by cases hmem)⟩
  · intro s op t _ hJ _ ht
    have hgen : ∀ pc use, t.inRegistry = .read pc use → pc.generation = none := by
      intro pc use heq
      cases op with
      | routeToolCall name =>
        cases ht
        cases heq
        rfl
      | registry op => cases op <;> cases ht <;> cases heq <;> rfl
    -- a call that is launched sees the mutators launched before it
    have hsince : ∀ c pc n, t = .call c pc → c.quietSince = some n →
        n = s.threads.length ∧ ∀ u ∈ s.threads, u.busy = false := by
      intro c pc n heq hn
      cases op with
      | routeToolCall name =>
        cases ht
        cases heq
        by_cases hbusy : s.threads.any (·.busy) = true
        · simp only [hbusy, if_true] at hn
          cases hn
        · simp only [hbusy, Bool.false_eq_true, if_false] at hn
          cases hn
          exact ⟨rfl, fun u hu => by simpa using List.any_eq_false.1 (by simpa using hbusy) u hu⟩
      | registry op => cases op <;> cases ht <;> cases heq
    refine ⟨?_, ?_, ?_⟩
    · intro pc use hmem g hg
      rw [List.map_append, List.map_singleton] at hmem
      rcases List.mem_append.1 hmem with hmem | hmem
      · exact hJ.noted pc use hmem g hg
      · rw [hgen pc use (List.mem_singleton.1 hmem).symm] at hg
        cases hg
    · intro c pc n hmem hn
      rw [List.length_append]
      rcases List.mem_append.1 hmem with hmem | hmem
      · exact Nat.le_add_right_of_le (hJ.since c pc n hmem hn)
      · rw [(hsince c pc n (List.mem_singleton.1 hmem).symm hn).1]
        exact Nat.le_add_right _ _
    · intro c pc n hmem hn j u hlt hj
      have hle : n ≤ s.threads.length := by
        rcases List.mem_append.1 hmem with hmem | hmem
        · exact hJ.since c pc n hmem hn
        · exact Nat.le_of_eq (hsince c pc n (List.mem_singleton.1 hmem).symm hn).1
      rw [List.getElem?_append_left (Nat.lt_of_lt_of_le hlt hle)] at hj
      rcases List.mem_append.1 hmem with hmem | hmem
      · exact hJ.idle c pc n hmem hn j u hlt hj
      · exact (hsince c pc n (List.mem_singleton.1 hmem).symm hn).2 u (List.mem_of_getElem? hj)
  · intro s i choice t sh' t' new _ hJ _ hi hstep
    obtain ⟨hst, rfl⟩ := schemaPool_step hstep
    obtain ⟨hkind, hbusy, hcall⟩ := SchemaThread.step_kind hst
    have hold : ∀ c pc, .call c pc ∈ Pool.stepped s.threads i t' [] →
        ∃ pc, .call c pc ∈ s.threads := by
      intro c pc hmem
      rcases Pool.mem_stepped hmem with heq | hnew | ⟨j, -, hj⟩
      · obtain ⟨pc₀, rfl⟩ := hcall c pc heq.symm
        exact ⟨pc₀, List.mem_of_getElem? hi⟩
      · cases hnew
      · exact ⟨pc, List.mem_of_getElem? hj⟩
    refine ⟨?_, ?_, ?_⟩
    · obtain ⟨hmono, hnoted⟩ := SchemaThread.step_noted hst
      intro pc use hmem g hg
      rw [Pool.map_stepped] at hmem
      rcases Pool.mem_stepped hmem with heq | hnew | ⟨j, -, hj⟩
      · rcases hnoted pc use g heq.symm hg with rfl | ⟨pc₀, ht, hg⟩
        · exact hmono
        · refine (hJ.noted pc₀ use ?_ g hg).trans hmono
          exact List.mem_map.2 ⟨t, List.mem_of_getElem? hi, ht⟩
      · cases hnew
      · exact (hJ.noted pc use (List.mem_of_getElem? hj) g hg).trans hmono
    · intro c pc n hmem hn
      obtain ⟨pc₀, hmem⟩ := hold c pc hmem
      have hle := hJ.since c pc₀ n hmem hn
      simpa [Pool.stepped] using hle
    · intro c pc n hmem hn j u hlt hj
      obtain ⟨pc₀, hmem₀⟩ := hold c pc hmem
      rcases Pool.of_getElem?_stepped hj with ⟨rfl, rfl⟩ | ⟨-, hj⟩
      · have hidle := hJ.idle c pc₀ n hmem₀ hn j t hlt hi
        rcases hbusy with hnot | hbusy
        · cases u with
          | mutate program next =>
            rw [hnot] at hkind
            cases hkind
          | _ => rfl
        · rw [hidle] at hbusy
          cases hbusy
      · exact hJ.idle c pc₀ n hmem₀ hn j u hlt hj

/-! ## The validators that fit -/

section Fit

variable {name : String} {validator : Option V}

theorem CallPc.Agrees.of_tighter {entries entries' : Entries A}
    (h : pc.Agrees compile name validator entries) (htighter : Tighter entries' entries) :
    pc.Agrees compile name validator entries' := by
  cases pc with
  | fetch read => exact fun catalog ho => h catalog (CatalogRead.Outcomes.of_tighter htighter ho)
  | _ => exact h

/-- A call that resolves its entry agrees with what its catalog agreed with. -/
theorem CallPc.Agrees.moves {entries : Entries A} {cache cache' : List (String × Option V)}
    (h : pc.Agrees compile name validator entries) (hmoves : pc.Moves compile name cache pc' cache') :
    pc'.Agrees compile name validator entries := by
  cases hmoves with
  | fetched catalog => exact h catalog rfl
  | resolved htool => exact h _ htool
  | miss _ => exact h
  | past hpast => rcases hpast with rfl | rfl <;> trivial
  | _ => trivial

theorem Fits.served_step (h : Fits compile name validator s) (hsound : SchemaSound s)
    (hi : s.threads[i]? = some t) (hstep : t.step compile s.shared s.threads choice = some (sh, t'))
    (hedit : ∀ op rest next registry rest', t = .mutate (op :: rest) next → op.edits = true →
      op.step s.shared.registry ((s.threads.map (·.inRegistry)).any (·.holdsRead)) rest =
        some (registry, rest') →
      ∀ catalog, Rebuild registry.entries catalog → Agrees compile name validator catalog) :
    Served (Agrees compile name validator) sh.registry
      ((Pool.stepped s.threads i t' []).map (·.inRegistry)) := by
  let r : RegistryState A := ⟨s.shared.registry, s.threads.map (·.inRegistry)⟩
  have hserved : Served (Agrees compile name validator) r.shared r.threads := h.served
  have hri : r.threads[i]? = some t.inRegistry := by
    show (s.threads.map (·.inRegistry))[i]? = some t.inRegistry
    rw [List.getElem?_map, hi]
    rfl
  rw [Pool.map_stepped]
  rcases SchemaThread.step_cases hstep with ⟨pc, pc', registry, hspec, rfl, hread⟩ |
    ⟨c, pc, pc', rfl, rfl, hreg, hmoves⟩ | ⟨op, rest, next, registry, rest', rfl, hop, rfl, rfl⟩ |
    ⟨program, next, rfl, rfl, rfl⟩
  · obtain ⟨ht, ht'⟩ : t.inRegistry = .read pc .plain ∧ t'.inRegistry = .read pc' .plain := by
      rcases hread with ⟨rfl, rfl⟩ | ⟨c, rfl, rfl⟩
      · exact ⟨rfl, rfl⟩
      · exact ⟨rfl, rfl⟩
    rw [ht']
    rw [ht] at hri
    exact hserved.read_step hri hspec
  · refine hserved.of_tighter (i := i) (hreg ▸ Tighter.rfl) (hreg ▸ rfl) (hreg ▸ hserved.cache) ?_
    intro pc₁ use heq
    cases pc' with
    | fetch read => exact absurd rfl (hmoves.ne_fetch read)
    | _ => cases heq
  · exact hserved.op_step hsound.noted hop fun hedits => hedit op rest next registry rest' rfl hedits hop
  · exact hserved.of_tighter (i := i) .rfl rfl hserved.cache fun _ _ heq => nomatch heq

/-- **A validator that fits goes on fitting**, unless an edit of the entries changes the schemas. -/
theorem Fits.step (h : Fits compile name validator s) (hsound : SchemaSound s)
    (hi : s.threads[i]? = some t) (hstep : t.step compile s.shared s.threads choice = some (sh, t'))
    (hedit : ∀ op rest next registry rest', t = .mutate (op :: rest) next → op.edits = true →
      op.step s.shared.registry ((s.threads.map (·.inRegistry)).any (·.holdsRead)) rest =
        some (registry, rest') →
      ∀ catalog, Rebuild registry.entries catalog → Agrees compile name validator catalog) :
    Fits compile name validator ⟨sh, Pool.stepped s.threads i t' []⟩ := by
  refine ⟨h.served_step hsound hi hstep hedit, fun c pc hmem hname hquiet => ?_⟩
  have hquiet₀ := hquiet.of_stepped hi (SchemaThread.step_kind hstep).1
  -- the mutators a quiet call knows of do not move, so the step is one of a reader or a call
  have hnot {c₀ : ValidatedCall} {pc₀ : CallPc V} (hmem₀ : .call c₀ pc₀ ∈ s.threads)
      (hq : Quiet s.threads c₀) : t.mutates = false ∨ t.busy = false :=
    hsound.not_busy hmem₀ hq hi
  rcases SchemaThread.step_cases hstep with ⟨read, read', registry, hspec, rfl, hread⟩ |
    ⟨c', pc₀, pc', rfl, rfl, hreg, hmoves⟩ | ⟨op, rest, next, registry, rest', rfl, hop, rfl, rfl⟩ |
    ⟨program, next, rfl, rfl, rfl⟩
  · rcases Pool.mem_stepped hmem with heq | hnew | ⟨j, -, hj⟩
    · rcases hread with ⟨-, rfl⟩ | ⟨c', rfl, rfl⟩
      · cases heq
      · cases heq
        have hagrees := h.calls c (.fetch read) (List.mem_of_getElem? hi) hname hquiet₀
        intro catalog ho
        rcases hspec.outcomes catalog ho with ho | ⟨-, hcached⟩
        · exact hagrees catalog ho
        · exact h.served.cache catalog hcached
    · cases hnew
    · exact (h.calls c pc (List.mem_of_getElem? hj) hname hquiet₀).of_tighter hspec.entries
  · dsimp only
    rw [hreg]
    rcases Pool.mem_stepped hmem with heq | hnew | ⟨j, -, hj⟩
    · cases heq
      have hagrees := h.calls c pc₀ (List.mem_of_getElem? hi) hname hquiet₀
      rw [hname] at hmoves
      exact hagrees.moves hmoves
    · cases hnew
    · exact h.calls c pc (List.mem_of_getElem? hj) hname hquiet₀
  · rcases Pool.mem_stepped hmem with heq | hnew | ⟨j, -, hj⟩
    · cases heq
    · cases hnew
    · rcases hnot (List.mem_of_getElem? hj) hquiet₀ with hk | hk <;> cases hk
  · rcases Pool.mem_stepped hmem with heq | hnew | ⟨j, -, hj⟩
    · cases heq
    · cases hnew
    · rcases hnot (List.mem_of_getElem? hj) hquiet₀ with hk | hk <;> cases hk

/-- A thread that is launched starts from a build. -/
theorem Fits.launch (h : Fits compile name validator s) {op : SchemaOperation A}
    (ht : op.thread s.threads = some t) :
    Fits compile name validator { s with threads := s.threads ++ [t] } := by
  refine ⟨?_, fun c pc hmem hname hquiet => ?_⟩
  · show Served _ _ ((s.threads ++ [t]).map (·.inRegistry))
    rw [List.map_append, List.map_singleton]
    refine h.served.of_launch fun pc use heq => ?_
    cases op with
    | routeToolCall prefixedName =>
      cases ht
      cases heq
      rfl
    | registry op => cases op <;> cases ht <;> cases heq <;> rfl
  · rcases List.mem_append.1 hmem with hmem | hmem
    · refine h.calls c pc hmem hname ?_
      obtain ⟨n, hn, hnone⟩ := hquiet
      refine ⟨n, hn, fun j u hle hj => hnone j u hle ?_⟩
      obtain ⟨hlt, -⟩ := List.getElem?_eq_some_iff.1 hj
      rw [List.getElem?_append_left hlt]
      exact hj
    · cases op with
      | routeToolCall prefixedName =>
        cases ht
        cases List.mem_singleton.1 hmem
        exact h.served.rebuild
      | registry op => cases op <;> cases ht <;> cases List.mem_singleton.1 hmem

end Fit

/-! ## Runs -/

omit [McpAdapter A] in
theorem RegistryOp.step_erases {sh sh' : SharedRegistry A} {readHeld : Bool} {op : RegistryOp A}
    {rest rest' : List (RegistryOp A)} (h : op.step sh readHeld rest = some (sh', rest'))
    (hnone : (op :: rest).any (·.erases) = false) : rest'.any (·.erases) = false := by
  rw [List.any_cons, Bool.or_eq_false_iff] at hnone
  obtain ⟨hop, hrest⟩ := hnone
  cases op with
  | erase name => cases hop
  | insert _ | setFlags _ _ _ | install _ _ =>
    rw [step] at h
    split at h
    · cases h
    · cases h
      exact hrest
  | sweep todo => cases todo <;> cases h <;> exact hrest
  | sweepAll | clearToolCache _ | bump =>
    cases h
    exact hrest

/-- Only the clear itself ends the wait for it. -/
theorem SchemaThread.clearsSoon_step (h : t.step compile sh ts choice = some (sh', t')) :
    sh'.schemaCache = [] ∨ (t.clearsSoon = true → t'.clearsSoon = true) := by
  rcases SchemaThread.step_cases h with ⟨pc, pc', registry, -, rfl, ⟨rfl, rfl⟩ | ⟨c, rfl, rfl⟩⟩ |
    ⟨c, pc, pc', rfl, rfl, -, -⟩ | ⟨op, rest, next, registry, rest', rfl, hop, rfl, rfl⟩ |
    ⟨program, next, rfl, rfl, rfl⟩
  · exact .inr id
  · exact .inr id
  · exact .inr id
  · refine .inr fun hsoon => ?_
    cases next with
    | nil => cases hsoon
    | cons program next =>
      have hnone : (op :: rest).any (·.erases) = false := by
        simpa only [SchemaThread.clearsSoon, Bool.not_eq_true'] using hsoon
      have hop' : op.erases = false := (Bool.or_eq_false_iff.1 hnone).1
      have hrest := RegistryOp.step_erases hop hnone
      simp only [clearsLeft, hop', Bool.false_and, Bool.false_eq_true, if_false,
        SchemaThread.clearsSoon, hrest, Bool.not_false]
  · exact .inl rfl

/-- The validators cached after a step were cached before, or are the one a call has compiled. -/
theorem SchemaThread.step_cached (h : t.step compile sh ts choice = some (sh', t')) {name : String}
    {validator : Option V} (hlookup : sh'.schemaCache.lookup name = some validator) :
    sh.schemaCache.lookup name = some validator ∨
      ∃ c tool, t = .call c (.validateWrite tool) ∧ sh.schemaCache.lookup c.prefixedName = none ∧
        name = c.prefixedName ∧ validator = compile c.prefixedName tool.inputSchema := by
  rcases SchemaThread.step_cases h with ⟨pc, pc', registry, -, rfl, -⟩ |
    ⟨c, pc, pc', rfl, rfl, -, hmoves⟩ | ⟨op, rest, next, registry, rest', rfl, -, rfl, rfl⟩ |
    ⟨program, next, rfl, rfl, rfl⟩
  · exact .inl hlookup
  · generalize sh'.schemaCache = cache' at hmoves hlookup
    cases hmoves with
    | compiled hnone =>
      by_cases hname : name = c.prefixedName
      · subst hname
        rw [List.lookup_cons_self] at hlookup
        cases hlookup
        exact .inr ⟨c, _, rfl, hnone, rfl, rfl⟩
      · rw [List.lookup_cons, beq_false_of_ne hname] at hlookup
        exact .inl hlookup
    | _ => exact .inl hlookup
  · exact .inl hlookup
  · cases hlookup

/-- A call that comes to be validated takes a cached validator or compiles its own. -/
theorem SchemaThread.step_validated {validator : Option V}
    (h : t.step compile sh ts choice = some (sh', .call c (.validated tool validator))) :
    validator = compile c.prefixedName tool.inputSchema ∨
      sh.schemaCache.lookup c.prefixedName = some validator ∧
        (t = .call c (.validateRead tool) ∨ t = .call c (.validateWrite tool)) := by
  rcases SchemaThread.step_cases h with ⟨pc, pc', registry, -, -, ⟨-, heq⟩ | ⟨c', -, heq⟩⟩ |
    ⟨c', pc, pc', rfl, heq, -, hmoves⟩ | ⟨op, rest, next, registry, rest', -, -, -, heq⟩ |
    ⟨program, next, -, -, heq⟩
  · cases heq
  · cases heq
  · cases heq
    generalize sh'.schemaCache = cache' at hmoves
    cases hmoves with
    | hit hpc hlookup =>
      refine .inr ⟨hlookup, ?_⟩
      rcases hpc with rfl | rfl
      · exact .inl rfl
      · exact .inr rfl
    | compiled _ => exact .inl rfl
    | past hpast => rcases hpast with heq | heq <;> cases heq
  · cases heq
  · cases heq

omit [McpAdapter A] in
theorem Quiet.of_append (h : Quiet (ts ++ [t]) c) : Quiet ts c := by
  obtain ⟨n, hn, hnone⟩ := h
  refine ⟨n, hn, fun j u hle hj => hnone j u hle ?_⟩
  obtain ⟨hlt, -⟩ := List.getElem?_eq_some_iff.1 hj
  rw [List.getElem?_append_left hlt]
  exact hj

omit [McpAdapter A] in
/-- While a call is quiet no clear is to come. -/
theorem SchemaSound.not_clearPending (hsound : SchemaSound s) (hmem : .call c pc ∈ s.threads)
    (hquiet : Quiet s.threads c) : ¬ ClearPending s.threads := by
  rintro ⟨u, hu, hsoon⟩
  obtain ⟨j, hj⟩ := List.mem_iff_getElem?.1 hu
  cases u with
  | mutate program next =>
    rcases hsound.not_busy hmem hquiet hj with hk | hk
    · cases hk
    · cases next with
      | nil => cases hsoon
      | cons _ _ => simp [SchemaThread.busy] at hk
  | _ => cases hsoon

theorem SchemaInv.validated_step (hinv : SchemaInv compile s) (hsound : SchemaSound s)
    (hi : s.threads[i]? = some t) (hstep : t.step compile s.shared s.threads choice = some (sh, t'))
    {validator : Option V} (hmem : .call c (.validated tool validator) ∈ Pool.stepped s.threads i t' [])
    (hquiet : Quiet (Pool.stepped s.threads i t' []) c) :
    validator = compile c.prefixedName tool.inputSchema := by
  have hquiet₀ := hquiet.of_stepped hi (SchemaThread.step_kind hstep).1
  rcases Pool.mem_stepped hmem with heq | hnew | ⟨j, -, hj⟩
  · subst heq
    rcases SchemaThread.step_validated hstep with hown | ⟨hlookup, ht⟩
    · exact hown
    · -- a hit: nothing is about to be cleared, so the cached validator fits
      have ht' := List.mem_of_getElem? hi
      rcases ht with rfl | rfl
      · have hfits := (hinv.cached _ _ hlookup).resolve_left (hsound.not_clearPending ht' hquiet₀)
        exact (hfits.calls c _ ht' rfl hquiet₀).symm
      · have hfits := (hinv.cached _ _ hlookup).resolve_left (hsound.not_clearPending ht' hquiet₀)
        exact (hfits.calls c _ ht' rfl hquiet₀).symm
  · cases hnew
  · exact hinv.validated c tool validator (List.mem_of_getElem? hj) hquiet₀

theorem SchemaInv.cached_step (hinv : SchemaInv compile s) (hsound : SchemaSound s)
    (hok : ValidatorsGuarded compile s (.run i choice)) (hi : s.threads[i]? = some t)
    (hstep : t.step compile s.shared s.threads choice = some (sh, t')) {name : String}
    {validator : Option V} (hlookup : sh.schemaCache.lookup name = some validator) :
    ClearPending (Pool.stepped s.threads i t' []) ∨
      Fits compile name validator ⟨sh, Pool.stepped s.threads i t' []⟩ := by
  have hbefore : (ClearPending s.threads ∨ Fits compile name validator s) := by
    rcases SchemaThread.step_cached hstep hlookup with hold | ⟨c, tool, rfl, hnone, rfl, rfl⟩
    · exact hinv.cached name validator hold
    · exact hok.1 c tool hi hnone
  rcases SchemaThread.clearsSoon_step hstep with hempty | hsoon
  · rw [hempty] at hlookup
    cases hlookup
  · rcases hbefore with hpending | hfits
    · exact .inl (Pool.exists_stepped hi hsoon hpending)
    · refine or_iff_not_imp_left.2 fun hnot => hfits.step hsound hi hstep ?_
      rintro op rest next registry rest' rfl hedits hop
      have hst := hstep
      simp only [SchemaThread.step, hop, Option.map_some] at hst
      cases hst
      exact (hok.2 op rest next registry rest' hi hedits hop).resolve_left hnot name validator hlookup

theorem schemaInv_run
    (h : (schemaPool compile).system.ReachableWhile (ValidatorsGuarded compile) s) :
    SchemaInv compile s := by
  refine Pool.invariant_of (fun _ => schemaSound_run) ?_ ?_ ?_ h
  · intro sh hsh
    cases (show sh = ⟨.new, []⟩ from hsh)
    exact ⟨fun _ _ hlookup => (by cases hlookup), fun _ _ _ hmem => (by cases hmem)⟩
  · intro s op t _ hJ _ ht
    refine ⟨fun name validator hlookup => ?_, fun c tool validator hmem hquiet => ?_⟩
    · refine (hJ.cached name validator hlookup).imp ?_ fun hfits => hfits.launch ht
      rintro ⟨u, hu, hsoon⟩
      exact ⟨u, List.mem_append_left _ hu, hsoon⟩
    · rcases List.mem_append.1 hmem with hmem | hmem
      · exact hJ.validated c tool validator hmem hquiet.of_append
      · cases op with
        | routeToolCall prefixedName => cases ht; cases List.mem_singleton.1 hmem
        | registry op => cases op <;> cases ht <;> cases List.mem_singleton.1 hmem
  · intro s i choice t sh t' new hsound hJ hok hi hstep
    obtain ⟨hst, rfl⟩ := schemaPool_step hstep
    exact ⟨fun name validator => hJ.cached_step hsound hok hi hst,
      fun c tool validator => hJ.validated_step hsound hi hst⟩

/-- **A quiet call is validated by the validator of its own catalog entry**, in every run in which every
validator that is cached fits or will be cleared. -/
theorem validated_by_own_schema
    (h : (schemaPool compile).system.ReachableWhile (ValidatorsGuarded compile) s)
    {c : ValidatedCall} {tool : ToolInfo} {validator : Option V}
    (hvalidated : .call c (.validated tool validator) ∈ s.threads) (hquiet : Quiet s.threads c) :
    validator = compile c.prefixedName tool.inputSchema :=
  (schemaInv_run h).validated c tool validator hvalidated hquiet

end Run

/-! ## Two runs -/

/-- A schema is its own validator. -/
def schemaValidator (_ : String) (schema : Json) : Option Json := some schema

def requires (field : String) : Json :=
  .obj [("type", .str "object"), ("required", .arr [.str field])]

/-- An adapter whose one tool requires this field. -/
def sender (field : String) : FixedAdapter :=
  { tools := .ok [{ bareTool "send" with inputSchema := requires field }] }

def validations : Pool (SchemaShared FixedAdapter Json) (SchemaThread FixedAdapter Json)
    (SchemaOperation FixedAdapter) Bool :=
  schemaPool schemaValidator

def validationsStart : SchemaState FixedAdapter Json := ⟨⟨.new, []⟩, []⟩

theorem validations_init : validations.system.init validationsStart := ⟨rfl, rfl⟩

/-- Thread `i` takes `n` steps. -/
def validationSteps (i n : Nat) : List (SchemaAction FixedAdapter) := List.replicate n (.run i true)

/-- The endpoint is registered, and a call of its tool is about to cache its validator. -/
def callAtCache : List (SchemaAction FixedAdapter) :=
  .launch (.registry (.register ⟨"mail", sender "to", "http", none, some "mail"⟩)) ::
    validationSteps 0 6 ++ .launch (.routeToolCall "send") :: validationSteps 1 11

/-- A call has its catalog when the adapter is swapped; it caches its validator after the clear, and a
later call takes it. -/
def callAcrossSwap : List (SchemaAction FixedAdapter) :=
  .launch (.registry (.register ⟨"mail", sender "to", "http", none, some "mail"⟩)) ::
    validationSteps 0 6 ++ .launch (.routeToolCall "send") :: validationSteps 1 9 ++
    .launch (.registry (.swapAdapter "mail" (sender "cc"))) :: validationSteps 2 6 ++
    validationSteps 1 3 ++ .launch (.routeToolCall "send") :: validationSteps 3 11

def swappedUnder : SchemaState FixedAdapter Json :=
  (validations.system.run validationsStart callAcrossSwap).getD validationsStart

def atCache : SchemaState FixedAdapter Json :=
  (validations.system.run validationsStart callAtCache).getD validationsStart

/-- The later call starts with both mutators finished, and is validated by the schema of the adapter that
was swapped out. -/
theorem validator_of_earlier_schema :
    validations.system.Reachable swappedUnder ∧ ∃ c tool validator,
      .call c (.validated tool validator) ∈ swappedUnder.threads ∧ Quiet swappedUnder.threads c ∧
        tool.inputSchema = requires "cc" ∧ validator = some (requires "to") ∧
        validator ≠ schemaValidator c.prefixedName tool.inputSchema := by
  have hrun : validations.system.run validationsStart callAcrossSwap = some swappedUnder := rfl
  refine ⟨(System.Reachable.init validations_init).run hrun, _, _, _,
    List.mem_of_getElem? (i := 3) rfl, ⟨3, rfl, ?_⟩, rfl, rfl, ?_⟩
  · intro j t hle hj
    match j, hle with
    | 3, _ =>
      cases hj
      rfl
    | j + 4, _ => cases hj
  · intro heq
    have hschemas : some (requires "to") = some (requires "cc") := heq
    simp [requires] at hschemas

/-- A check of the guard: no validator is cached, and every edit is followed by a clear. -/
def editsCleared (s : SchemaState FixedAdapter Json) : SchemaAction FixedAdapter → Bool
  | .launch _ => true
  | .run i _ =>
    match s.threads[i]? with
    | some (.call _ (.validateWrite _)) => false
    | some (.mutate (op :: rest) next) => !next.isEmpty && !(op :: rest).any (·.erases)
    | _ => true

theorem validatorsGuarded_of_check (s : SchemaState FixedAdapter Json) (a : SchemaAction FixedAdapter)
    (h : editsCleared s a = true) : ValidatorsGuarded schemaValidator s a := by
  cases a with
  | launch op => trivial
  | run i choice =>
    refine ⟨fun c tool hi _ => ?_, fun op rest next registry rest' hi _ hop => .inl ?_⟩
    · rw [editsCleared, hi] at h
      cases h
    · rw [editsCleared, hi] at h
      obtain ⟨hnext, hnone⟩ := Bool.and_eq_true_iff.1 h
      rw [Bool.not_eq_true'] at hnone
      refine ⟨_, Pool.mem_stepped_self hi, ?_⟩
      have hop' : op.erases = false := (Bool.or_eq_false_iff.1 hnone).1
      have hrest := RegistryOp.step_erases hop hnone
      cases next with
      | nil => cases hnext
      | cons program next =>
        simp only [clearsLeft, hop', Bool.false_and, Bool.false_eq_true, if_false,
          SchemaThread.clearsSoon, hrest, Bool.not_false]

theorem atCache_run :
    validations.system.runWhile editsCleared validationsStart callAtCache = some atCache := rfl

/-- All the registry can serve is the catalog of the one adapter. -/
theorem atCache_fits :
    Fits schemaValidator "send" (some (requires "to")) atCache := by
  refine ⟨⟨?_, ?_, ?_⟩, ?_⟩
  · intro catalog hc tool htool
    cases hc
    cases htool
    rfl
  · intro pc use hmem
    have hthreads : atCache.threads.map (·.inRegistry) = [.mutate [], .calling] := rfl
    rw [hthreads] at hmem
    simp at hmem
  · rintro catalog ⟨fresh, rfl⟩ tool htool
    cases fresh with
    | true =>
      cases htool
      rfl
    | false =>
      cases htool
      rfl
  · intro c pc hmem _ _
    obtain ⟨j, hj⟩ := List.mem_iff_getElem?.1 hmem
    match j with
    | 0 => cases hj
    | 1 =>
      cases hj
      rfl
    | j + 2 => cases hj

theorem first_call_validated :
    ∃ s, validations.system.ReachableWhile (ValidatorsGuarded schemaValidator) s ∧
      ∃ c tool validator, .call c (.validated tool validator) ∈ s.threads ∧
        validator = schemaValidator c.prefixedName tool.inputSchema := by
  have hreach := (System.ReachableWhile.init validations_init).run validatorsGuarded_of_check
    atCache_run
  obtain ⟨s, hstep, hcall⟩ : ∃ s, validations.system.step atCache (.run 1 true) = some s ∧
      ∃ c tool validator, s.threads[1]? = some (.call c (.validated tool validator)) ∧
        c.quietSince = some 1 ∧ s.threads.length = 2 := ⟨_, rfl, _, _, _, rfl, rfl, rfl⟩
  obtain ⟨c, tool, validator, hc, hsince, hlen⟩ := hcall
  have hguard : ValidatorsGuarded schemaValidator atCache (.run 1 true) := by
    refine ⟨fun c tool hi _ => .inr ?_, fun op rest next registry rest' hi => ?_⟩
    · cases hi
      exact atCache_fits
    · cases hi
  have hreach' := hreach.step hguard hstep
  have hmem := List.mem_of_getElem? hc
  refine ⟨s, hreach', c, tool, validator, hmem, validated_by_own_schema hreach' hmem ?_⟩
  refine ⟨1, hsince, fun j t hle hj => ?_⟩
  obtain ⟨hlt, -⟩ := List.getElem?_eq_some_iff.1 hj
  have hone : j = 1 := by omega
  subst hone
  rw [hc] at hj
  cases hj
  rfl

end EndaraRelay
