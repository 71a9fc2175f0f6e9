import EndaraRelay.CatalogCache

/-!
# What a rebuild of the catalog comes out as

A build visits one entry after the other, and takes each tool list from the cache of the entry or
from its adapter. `Outcome` collects the catalogs a build may still end with.

While a thread builds, the entries stand still but for their tool caches, and what happens to a
tool cache only narrows the choice (`Tighter`): it is cleared, or filled with what the adapter
lists. So the outcomes of a build in progress never grow (`CatalogRead.step_outcomes`). When every
tool cache holds what its adapter lists there is only one outcome, `buildCatalog` over the listings
of the adapters (`rebuild_eq_of_coherent`).
-/

namespace EndaraRelay

open Verif

variable {A : Type} [McpAdapter A]

/-! ## Outcomes -/

/-- The visit of one entry; `fresh` is whether its cached tool list may be taken. -/
def visitEntry (entries : Entries A) (skip : Bool) (name : String) (fresh : Bool) (acc : Catalog) :
    Catalog :=
  match entries.lookup name with
  | none => acc
  | some entry => addEndpoint skip name entry (entry.cachedListTools fresh) acc

/-- The catalogs a build may end with that has collected `acc` and has `todo` to visit. -/
def Outcome (entries : Entries A) (skip : Bool) : List String → Catalog → Catalog → Prop
  | [], acc, catalog => catalog = acc.sorted
  | name :: todo, acc, catalog =>
    ∃ fresh, Outcome entries skip todo (visitEntry entries skip name fresh acc) catalog

/-- The catalogs a build over these entries may end with. -/
def Rebuild (entries : Entries A) (catalog : Catalog) : Prop :=
  Outcome entries (skipPrefix entries) entries.keys ⟨[], []⟩ catalog

/-- The catalogs a reader may end with, when it does not find one in the cache. -/
def CatalogRead.Outcomes (entries : Entries A) : CatalogRead → Catalog → Prop
  | .start, catalog | .refresh, catalog | .lock _, catalog => Rebuild entries catalog
  | .visit b, catalog | .parked b, catalog | .listing b _, catalog =>
    Outcome entries b.skipPrefix b.todo b.acc catalog
  | .store _ result, catalog | .done result, catalog => catalog = result

/-- The generation a reader has noted, and will compare before it stores. -/
def CatalogRead.generation : CatalogRead → Option Nat
  | .lock generationBefore | .store generationBefore _ => some generationBefore
  | .visit b | .parked b | .listing b _ => some b.generationBefore
  | .start | .refresh | .done _ => none

def CatalogRead.resolved : CatalogRead → Bool
  | .store _ _ | .done _ => true
  | _ => false

/-! ## Tool caches -/

/-- The tool cache of the entry holds what its adapter lists, if anything. -/
def RegisteredAdapter.Coherent (entry : RegisteredAdapter A) : Prop :=
  ∀ fresh, entry.cachedListTools fresh = McpAdapter.listTools entry.adapter

variable {entry : RegisteredAdapter A} {fresh skip : Bool} {entries entries' : Entries A}
  {name : String} {f : RegisteredAdapter A → RegisteredAdapter A} {todo : List String}
  {catalog : Catalog} {b : Build} {sh sh' : SharedRegistry A}

theorem RegisteredAdapter.cachedListTools_of_none (h : entry.toolCache = none) (fresh : Bool) :
    entry.cachedListTools fresh = McpAdapter.listTools entry.adapter := by
  unfold cachedListTools
  rw [h]
  cases entry.isHealthy <;> rfl

theorem RegisteredAdapter.cachedListTools_false (entry : RegisteredAdapter A) :
    entry.cachedListTools false = McpAdapter.listTools entry.adapter := by
  unfold cachedListTools
  cases entry.isHealthy <;> cases entry.toolCache <;> rfl

theorem RegisteredAdapter.cachedListTools_of_hit {tools : List ToolInfo}
    (h : entry.cacheHit fresh = some tools) : entry.cachedListTools fresh = .ok tools := by
  unfold cacheHit at h
  unfold cachedListTools
  cases hh : entry.isHealthy <;> cases fresh <;> simp_all

/-- `entries'` differs from `entries` in its tool caches only, and every list taken from them could
be had before. -/
structure Tighter (entries' entries : Entries A) : Prop where
  keys : entries'.keys = entries.keys
  skipPrefix : skipPrefix entries' = skipPrefix entries
  entry : ∀ name entry', entries'.lookup name = some entry' →
    ∃ entry, entries.lookup name = some entry ∧
      (∃ cache epoch, entry' = { entry with toolCache := cache, toolCacheEpoch := epoch }) ∧
      ∀ fresh, ∃ fresh₀, entry'.cachedListTools fresh = entry.cachedListTools fresh₀

theorem Tighter.rfl : Tighter entries entries where
  keys := Eq.refl _
  skipPrefix := Eq.refl _
  entry _ entry' h := ⟨entry', h, ⟨_, _, Eq.refl _⟩, fun fresh => ⟨fresh, Eq.refl _⟩⟩

theorem Tighter.lookup_none (h : Tighter entries' entries) (hn : entries'.lookup name = none) :
    entries.lookup name = none := by
  rw [AList.lookup_eq_none, AList.mem_keys] at hn ⊢
  rw [← h.keys]
  exact hn

omit [McpAdapter A] in
theorem keys_modify (name : String) (f : RegisteredAdapter A → RegisteredAdapter A)
    (entries : Entries A) : (entries.modify name f).keys = entries.keys := by
  simp [AList.modify, AList.keys, List.keys, List.map_map, Function.comp_def]

omit [McpAdapter A] in
theorem skipPrefix_modify (hf : ∀ entry, (f entry).disabled = entry.disabled) (entries : Entries A) :
    skipPrefix (entries.modify name f) = skipPrefix entries := by
  have h : activeCount (entries.modify name f) = activeCount entries := by
    unfold activeCount AList.modify
    rw [AList.entries_mapVal, List.filter_map, List.length_map]
    congr 2
    funext e
    dsimp only [Function.comp_apply]
    split
    · rw [hf]
    · rfl
  rw [skipPrefix, h, skipPrefix]

/-- An edit of a tool cache that leaves no list behind which the adapter would not give. -/
theorem tighter_modify
    (hf : ∀ entry, ∃ cache epoch, f entry = { entry with toolCache := cache, toolCacheEpoch := epoch })
    (hlist : ∀ entry fresh, ∃ fresh₀,
      (f entry).cachedListTools fresh = entry.cachedListTools fresh₀) (entries : Entries A) :
    Tighter (entries.modify name f) entries where
  keys := keys_modify name f entries
  skipPrefix := by
    apply skipPrefix_modify
    intro entry
    obtain ⟨cache, epoch, h⟩ := hf entry
    rw [h]
  entry := by
    intro name' entry' h
    rw [AList.lookup_modify] at h
    split at h
    · obtain ⟨entry, hentry, rfl⟩ := Option.map_eq_some_iff.1 h
      exact ⟨entry, hentry, hf entry, hlist entry⟩
    · exact ⟨entry', h, ⟨_, _, Eq.refl _⟩, fun fresh => ⟨fresh, Eq.refl _⟩⟩

theorem tighter_invalidate (name : String) (entries : Entries A) :
    Tighter (entries.modify name (·.invalidateToolCache)) entries := by
  apply tighter_modify
  · intro entry
    exact ⟨_, _, rfl⟩
  · intro entry fresh
    refine ⟨false, ?_⟩
    rw [RegisteredAdapter.cachedListTools_of_none rfl, RegisteredAdapter.cachedListTools_false]
    rfl

theorem tighter_storeTools (name : String) (epochBefore : Nat) (entries : Entries A) :
    Tighter (entries.modify name (·.storeTools epochBefore)) entries := by
  apply tighter_modify
  · intro entry
    unfold RegisteredAdapter.storeTools
    split
    · split
      · exact ⟨_, _, rfl⟩
      · exact ⟨_, _, rfl⟩
    · exact ⟨_, _, rfl⟩
  · intro entry fresh
    unfold RegisteredAdapter.storeTools
    split
    · next tools htools =>
      split
      · refine ⟨false, ?_⟩
        rw [RegisteredAdapter.cachedListTools_false, htools]
        unfold RegisteredAdapter.cachedListTools
        dsimp only
        split
        · next h =>
          cases h
          rfl
        · exact htools
      · exact ⟨fresh, rfl⟩
    · exact ⟨fresh, rfl⟩

/-! ## Outcomes never grow -/

theorem Tighter.visitEntry (h : Tighter entries' entries) (skip : Bool) (name : String) (fresh : Bool)
    (acc : Catalog) :
    ∃ fresh₀, visitEntry entries' skip name fresh acc = visitEntry entries skip name fresh₀ acc := by
  unfold EndaraRelay.visitEntry
  cases hl : entries'.lookup name with
  | none =>
    rw [h.lookup_none hl]
    exact ⟨fresh, Eq.refl _⟩
  | some entry' =>
    obtain ⟨entry, hentry, ⟨cache, epoch, heq⟩, hlist⟩ := h.entry name entry' hl
    obtain ⟨fresh₀, hfresh⟩ := hlist fresh
    refine ⟨fresh₀, ?_⟩
    rw [hentry]
    dsimp only
    rw [hfresh, heq]
    exact Eq.refl _

theorem Outcome.of_tighter (h : Tighter entries' entries) {acc catalog : Catalog}
    (ho : Outcome entries' skip todo acc catalog) : Outcome entries skip todo acc catalog := by
  induction todo generalizing acc with
  | nil => exact ho
  | cons name todo ih =>
    obtain ⟨fresh, ho⟩ := ho
    obtain ⟨fresh₀, heq⟩ := h.visitEntry skip name fresh acc
    exact ⟨fresh₀, heq ▸ ih ho⟩

theorem Rebuild.of_tighter (h : Tighter entries' entries) (hr : Rebuild entries' catalog) :
    Rebuild entries catalog := by
  unfold Rebuild at hr
  rw [h.keys, h.skipPrefix] at hr
  exact Outcome.of_tighter h hr

theorem CatalogRead.Outcomes.of_tighter (h : Tighter entries' entries) {pc : CatalogRead}
    (ho : pc.Outcomes entries' catalog) : pc.Outcomes entries catalog := by
  cases pc with
  | start => exact Rebuild.of_tighter h ho
  | refresh => exact Rebuild.of_tighter h ho
  | lock generationBefore => exact Rebuild.of_tighter h ho
  | visit b => exact Outcome.of_tighter h ho
  | parked b => exact Outcome.of_tighter h ho
  | listing b epochBefore => exact Outcome.of_tighter h ho
  | store generationBefore result => exact ho
  | done result => exact ho

/-! ## A step of a reader -/

/-- Collecting what an entry gives is one way to visit it. -/
theorem outcome_of_collect (htodo : b.todo = name :: todo) (hentry : entries.lookup name = some entry)
    {listed : Except AdapterError (List ToolInfo)} (hlisted : entry.cachedListTools fresh = listed)
    (h : Outcome entries b.skipPrefix (b.collect name entry todo listed).todo
      (b.collect name entry todo listed).acc catalog) :
    Outcome entries b.skipPrefix b.todo b.acc catalog := by
  rw [htodo]
  refine ⟨fresh, ?_⟩
  rw [visitEntry, hentry]
  dsimp only
  rw [hlisted]
  exact h

/-- Passing over a disabled or missing entry is the way to visit it. -/
theorem outcome_of_pass (htodo : b.todo = name :: todo)
    (hpass : ∀ entry, entries.lookup name = some entry → entry.disabled = true)
    (h : Outcome entries b.skipPrefix todo b.acc catalog) :
    Outcome entries b.skipPrefix b.todo b.acc catalog := by
  rw [htodo]
  refine ⟨true, ?_⟩
  rw [visitEntry]
  cases hl : entries.lookup name with
  | none => exact h
  | some entry =>
    have hskip : addEndpoint b.skipPrefix name entry (entry.cachedListTools true) b.acc = b.acc :=
      if_pos (hpass entry hl)
    dsimp only
    rw [hskip]
    exact h

/-- What one step of a reader does: the entries change in their tool caches only, the catalog cache
only when the reader stores under the current generation, and the outcomes do not grow, unless the
reader takes the cached catalog. -/
structure CatalogRead.StepSpec (sh : SharedRegistry A) (pc : CatalogRead) (sh' : SharedRegistry A)
    (pc' : CatalogRead) : Prop where
  entries : Tighter sh'.entries sh.entries
  catalogGeneration : sh'.catalogGeneration = sh.catalogGeneration
  routed : sh'.routed = sh.routed
  catalogCache : sh'.catalogCache = sh.catalogCache ∨
    ∃ result, pc = .store sh.catalogGeneration result ∧ sh'.catalogCache = some result
  generation : ∀ g, pc'.generation = some g →
    pc.generation = some g ∨ pc = .refresh ∧ g = sh.catalogGeneration
  outcomes : ∀ catalog, pc'.Outcomes sh'.entries catalog →
    pc.Outcomes sh.entries catalog ∨ pc = .start ∧ sh.catalogCache = some catalog
  resolved : pc'.resolved = false → pc.resolved = false

theorem CatalogRead.step_spec {populating : String → Bool} {pc pc' : CatalogRead}
    (h : pc.step sh populating fresh = some (sh', pc')) : pc.StepSpec sh sh' pc' := by
  cases pc with
  | start =>
    cases hc : sh.catalogCache with
    | none =>
      rw [step, hc] at h
      cases h
      exact ⟨.rfl, rfl, rfl, .inl rfl, fun _ h => (nomatch h), fun _ h => .inl h, fun _ => rfl⟩
    | some cached =>
      rw [step, hc] at h
      cases h
      refine ⟨.rfl, rfl, rfl, .inl rfl, fun _ h => (nomatch h), fun catalog h => .inr ⟨rfl, ?_⟩,
        fun _ => rfl⟩
      rw [hc, show catalog = cached from h]
  | refresh =>
    cases h
    refine ⟨.rfl, rfl, rfl, .inl rfl, fun g h => .inr ⟨rfl, ?_⟩, fun _ h => .inl h, fun _ => rfl⟩
    exact (Option.some.inj h).symm
  | lock generationBefore =>
    cases h
    exact ⟨.rfl, rfl, rfl, .inl rfl, fun g h => .inl h, fun _ h => .inl h, fun _ => rfl⟩
  | visit b =>
    cases htodo : b.todo with
    | nil =>
      rw [step, htodo] at h
      cases h
      refine ⟨.rfl, rfl, rfl, .inl rfl, fun g h => .inl h, fun catalog h => .inl ?_, fun _ => rfl⟩
      show Outcome sh.entries b.skipPrefix b.todo b.acc catalog
      rw [htodo]
      exact h
    | cons name todo =>
      rw [step, htodo] at h
      dsimp only at h
      split at h
      · next hl =>
        cases h
        refine ⟨.rfl, rfl, rfl, .inl rfl, fun g h => .inl h, fun catalog h => .inl ?_,
          fun _ => rfl⟩
        exact outcome_of_pass htodo (fun entry hentry => by rw [hl] at hentry; cases hentry) h
      · next entry hentry =>
        split at h
        · next hdisabled =>
          cases h
          refine ⟨.rfl, rfl, rfl, .inl rfl, fun g h => .inl h, fun catalog h => .inl ?_,
            fun _ => rfl⟩
          refine outcome_of_pass htodo (fun entry' hentry' => ?_) h
          rw [hentry] at hentry'
          cases hentry'
          exact hdisabled
        · split at h
          · next tools hhit =>
            cases h
            refine ⟨.rfl, rfl, rfl, .inl rfl, fun g h => .inl h, fun catalog h => .inl ?_,
              fun _ => rfl⟩
            exact outcome_of_collect htodo hentry
              (RegisteredAdapter.cachedListTools_of_hit hhit) h
          · cases h
            exact ⟨.rfl, rfl, rfl, .inl rfl, fun g h => .inl h, fun _ h => .inl h,
              fun _ => rfl⟩
  | parked b =>
    cases htodo : b.todo with
    | nil =>
      rw [step, htodo] at h
      cases h
    | cons name todo =>
      rw [step, htodo] at h
      dsimp only at h
      split at h
      · cases h
      · next entry hentry =>
        split at h
        · cases h
        · split at h
          · next tools hhit =>
            cases h
            refine ⟨.rfl, rfl, rfl, .inl rfl, fun g h => .inl h, fun catalog h => .inl ?_,
              fun _ => rfl⟩
            exact outcome_of_collect htodo hentry
              (RegisteredAdapter.cachedListTools_of_hit hhit) h
          · cases h
            exact ⟨.rfl, rfl, rfl, .inl rfl, fun g h => .inl h, fun _ h => .inl h,
              fun _ => rfl⟩
  | listing b epochBefore =>
    cases htodo : b.todo with
    | nil =>
      rw [step, htodo] at h
      cases h
    | cons name todo =>
      rw [step, htodo] at h
      dsimp only at h
      split at h
      · cases h
      · next entry hentry =>
        cases h
        have htighter := tighter_storeTools name epochBefore sh.entries
        refine ⟨htighter, rfl, rfl, .inl rfl, fun g h => .inl h, fun catalog h => .inl ?_,
          fun _ => rfl⟩
        exact outcome_of_collect htodo hentry (RegisteredAdapter.cachedListTools_false entry)
          (Outcome.of_tighter htighter h)
  | store generationBefore result =>
    cases h
    refine ⟨.rfl, rfl, rfl, ?_, fun _ h => (nomatch h), fun _ h => .inl h, fun h => (nomatch h)⟩
    dsimp only
    split
    · next hgen =>
      subst hgen
      exact .inr ⟨result, rfl, rfl⟩
    · exact .inl rfl
  | done result => cases h

/-! ## A step of a thread -/

/-- The operation changes an entry, or which entries there are. -/
def RegistryOp.edits : RegistryOp A → Bool
  | .insert _ | .erase _ | .setFlags _ _ _ | .install _ _ => true
  | .sweepAll | .sweep _ | .clearToolCache _ | .bump => false

/-- An elementary operation edits the entries while no thread reads them, or clears tool caches, or
bumps the generation. -/
theorem RegistryOp.step_spec {readHeld : Bool} {op : RegistryOp A} {rest rest' : List (RegistryOp A)}
    (h : op.step sh readHeld rest = some (sh', rest')) :
    sh'.routed = sh.routed ∧
      ((op.edits = true ∧ readHeld = false ∧ sh'.catalogCache = sh.catalogCache ∧
          sh'.catalogGeneration = sh.catalogGeneration) ∨
        (Tighter sh'.entries sh.entries ∧
          (sh'.catalogCache = sh.catalogCache ∧ sh'.catalogGeneration = sh.catalogGeneration ∨
            sh'.catalogCache = none ∧ sh'.catalogGeneration = sh.catalogGeneration + 1))) := by
  have hedit {sh₀ : SharedRegistry A} {rest₀ : List (RegistryOp A)}
      (h : (if readHeld then none else some (sh₀, rest₀)) = some (sh', rest')) :
      readHeld = false ∧ sh' = sh₀ := by
    cases readHeld with
    | true => cases h
    | false =>
      cases h
      exact ⟨rfl, rfl⟩
  cases op with
  | insert r =>
    obtain ⟨hread, rfl⟩ := hedit h
    exact ⟨rfl, .inl ⟨rfl, hread, rfl, rfl⟩⟩
  | erase name =>
    obtain ⟨hread, rfl⟩ := hedit h
    exact ⟨rfl, .inl ⟨rfl, hread, rfl, rfl⟩⟩
  | setFlags name disabled disabledTools =>
    obtain ⟨hread, rfl⟩ := hedit h
    exact ⟨rfl, .inl ⟨rfl, hread, rfl, rfl⟩⟩
  | install name adapter =>
    obtain ⟨hread, rfl⟩ := hedit h
    exact ⟨rfl, .inl ⟨rfl, hread, rfl, rfl⟩⟩
  | sweepAll =>
    cases h
    exact ⟨rfl, .inr ⟨.rfl, .inl ⟨rfl, rfl⟩⟩⟩
  | sweep todo =>
    cases todo with
    | nil =>
      cases h
      exact ⟨rfl, .inr ⟨.rfl, .inl ⟨rfl, rfl⟩⟩⟩
    | cons name todo =>
      cases h
      exact ⟨rfl, .inr ⟨tighter_invalidate name _, .inl ⟨rfl, rfl⟩⟩⟩
  | clearToolCache name =>
    cases h
    exact ⟨rfl, .inr ⟨tighter_invalidate name _, .inl ⟨rfl, rfl⟩⟩⟩
  | bump =>
    cases h
    exact ⟨rfl, .inr ⟨.rfl, .inr ⟨rfl, rfl⟩⟩⟩

/-- Using a catalog touches neither the entries nor the caches, and at most starts another read. -/
theorem useCatalog_frame (validateArguments : Option (String → Json → Json → Option Json))
    (sh : SharedRegistry A) (catalog : Catalog) (use : CatalogUse) {t' : RegistryThread A}
    (h : useCatalog validateArguments sh catalog use = (sh', t')) :
    sh'.entries = sh.entries ∧ sh'.catalogCache = sh.catalogCache ∧
      sh'.catalogGeneration = sh.catalogGeneration ∧
      (t' = .finished ∨ t' = .calling ∨ ∃ use', t' = .read .start use') := by
  cases use with
  | plain =>
    cases h
    exact ⟨rfl, rfl, rfl, .inl rfl⟩
  | check call =>
    rw [useCatalog] at h
    split at h
    · cases h
      exact ⟨rfl, rfl, rfl, .inl rfl⟩
    · split at h
      · cases h
        exact ⟨rfl, rfl, rfl, .inr (.inr ⟨_, rfl⟩)⟩
      · cases h
        exact ⟨rfl, rfl, rfl, .inl rfl⟩
  | dispatch call =>
    rw [useCatalog] at h
    split at h
    · cases h
      exact ⟨rfl, rfl, rfl, .inr (.inl rfl)⟩
    · cases h
      exact ⟨rfl, rfl, rfl, .inl rfl⟩

theorem RegistryThread.step_cases {validateArguments : Option (String → Json → Json → Option Json)}
    {ts : List (RegistryThread A)} {t t' : RegistryThread A}
    (h : t.step validateArguments sh ts fresh = some (sh', t')) :
    (t = .calling ∧ sh' = sh ∧ t' = .finished) ∨
    (∃ catalog use, t = .read (.done catalog) use ∧
      useCatalog validateArguments sh catalog use = (sh', t')) ∨
    (∃ pc use pc', t = .read pc use ∧ t' = .read pc' use ∧ pc.StepSpec sh sh' pc') ∨
    (∃ op rest rest', t = .mutate (op :: rest) ∧ t' = .mutate rest' ∧
      op.step sh (ts.any (·.holdsRead)) rest = some (sh', rest')) := by
  cases t with
  | calling =>
    cases h
    exact .inl ⟨rfl, rfl, rfl⟩
  | mutate p =>
    cases p with
    | nil => cases h
    | cons op rest =>
      rw [step_mutate] at h
      obtain ⟨r, hop, heq⟩ := Option.map_eq_some_iff.1 h
      cases heq
      exact .inr (.inr (.inr ⟨op, rest, r.2, rfl, rfl, hop⟩))
  | read pc use =>
    by_cases hdone : ∃ catalog, pc = .done catalog
    · obtain ⟨catalog, rfl⟩ := hdone
      rw [step_done] at h
      exact .inr (.inl ⟨catalog, use, rfl, Option.some.inj h⟩)
    · rw [step_read _ _ _ _ fun catalog h => hdone ⟨catalog, h⟩] at h
      obtain ⟨r, hread, heq⟩ := Option.map_eq_some_iff.1 h
      cases heq
      exact .inr (.inr (.inl ⟨pc, use, r.2, rfl, rfl, CatalogRead.step_spec hread⟩))

/-! ## With coherent tool caches there is one outcome -/

/-- The visit of one entry that asks its adapter. -/
def visitListed (entries : Entries A) (skip : Bool) (acc : Catalog) (name : String) : Catalog :=
  match entries.lookup name with
  | none => acc
  | some entry => addEndpoint skip name entry (McpAdapter.listTools entry.adapter) acc

/-- Every tool cache holds what its adapter lists. -/
def CoherentEntries (entries : Entries A) : Prop :=
  ∀ name entry, entries.lookup name = some entry → entry.Coherent

theorem buildCatalog_listedByAdapter (entries : Entries A) :
    buildCatalog listedByAdapter entries =
      (entries.keys.foldl (visitListed entries (skipPrefix entries)) ⟨[], []⟩).sorted := by
  unfold buildCatalog AList.keys List.keys
  rw [List.foldl_map]
  congr 1
  apply List.foldl_ext
  intro acc e he
  have hl : entries.lookup e.1 = some e.2 := AList.mem_entries_iff.1 he
  rw [visitListed, hl]
  rfl

theorem outcome_eq_of_coherent (hcoh : CoherentEntries entries) {acc catalog : Catalog}
    (h : Outcome entries skip todo acc catalog) :
    catalog = (todo.foldl (visitListed entries skip) acc).sorted := by
  induction todo generalizing acc with
  | nil => exact h
  | cons name todo ih =>
    obtain ⟨fresh, h⟩ := h
    have hvisit : visitEntry entries skip name fresh acc = visitListed entries skip acc name := by
      unfold visitEntry visitListed
      cases hl : entries.lookup name with
      | none => rfl
      | some entry =>
        dsimp only
        rw [hcoh name entry hl fresh]
    rw [List.foldl_cons, ← hvisit]
    exact ih h

theorem rebuild_eq_of_coherent (hcoh : CoherentEntries entries) (h : Rebuild entries catalog) :
    catalog = buildCatalog listedByAdapter entries := by
  rw [buildCatalog_listedByAdapter]
  exact outcome_eq_of_coherent hcoh h

/-- A build that goes through the tool caches is one that asks the adapters. -/
theorem buildCatalog_cached_of_coherent (hcoh : CoherentEntries entries) (fresh : String → Bool) :
    buildCatalog (fun name entry => entry.cachedListTools (fresh name)) entries =
      buildCatalog listedByAdapter entries := by
  unfold buildCatalog
  congr 1
  apply List.foldl_ext
  intro acc e he
  dsimp only
  rw [hcoh e.1 e.2 (AList.mem_entries_iff.1 he) (fresh e.1)]
  rfl

/-- The listings of the adapters do not depend on the tool caches. -/
theorem Tighter.buildCatalog_eq (h : Tighter entries' entries) :
    buildCatalog listedByAdapter entries' = buildCatalog listedByAdapter entries := by
  rw [buildCatalog_listedByAdapter, buildCatalog_listedByAdapter, h.keys, h.skipPrefix]
  congr 1
  apply List.foldl_ext
  intro acc name _
  unfold visitListed
  cases hl : entries'.lookup name with
  | none => rw [h.lookup_none hl]
  | some entry' =>
    obtain ⟨entry, hentry, ⟨cache, epoch, heq⟩, -⟩ := h.entry name entry' hl
    rw [hentry, heq]
    rfl

theorem Tighter.coherent (h : Tighter entries' entries) {entry' : RegisteredAdapter A}
    (hl : entries'.lookup name = some entry') :
    ∃ entry, entries.lookup name = some entry ∧ (entry.Coherent → entry'.Coherent) := by
  obtain ⟨entry, hentry, ⟨cache, epoch, heq⟩, hlist⟩ := h.entry name entry' hl
  refine ⟨entry, hentry, fun hcoh fresh => ?_⟩
  obtain ⟨fresh₀, hfresh⟩ := hlist fresh
  rw [hfresh, hcoh, heq]

end EndaraRelay
