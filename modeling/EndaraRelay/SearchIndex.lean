import Mathlib.Data.List.SplitBy
import EndaraRelay.CatalogCache

/-!
# The search index of `search_tools`

`search_tools` scores every tool of the catalog by its document (`ToolDoc`). The documents are cached
with the catalog generation read before the catalog was fetched; a later call takes them when it read
the same generation and its catalog has as many tools.

Searches run as threads beside those of the registry. A search fetches its catalog by the steps of
`merged_catalog_with_lookup`, so every mutation of the registry can come between its reading of the
generation, its catalog and its look at the cache.

The label is older than the catalog when an invalidation comes between. A search that read the same
generation and fetched its catalog before then takes documents of tools it does not rank
(`documents_of_other_tools`). The condition `fetchesAgree` is about the moment a search has its
catalog: the searches under way with the same generation, and the documents cached with it, are of
the same tools, or of another number of tools. In every run that meets it each document scored was
built from the tool it scores (`search_docs_aligned`).
-/

namespace EndaraRelay

open Verif

/-! ## Documents -/

/-- What the standard library says of characters, and its lower-casing of strings. -/
structure Unicode where
  isAlphanumeric : Char → Bool
  isLowercase : Char → Bool
  isUppercase : Char → Bool
  isWhitespace : Char → Bool
  toLowercase : String → String

section

variable (u : Unicode)

/-- Whether a new word starts at `c`: between letters and digits, at a capital after a small letter,
and at the last capital before a small letter. -/
def wordBoundary (prev c : Char) (next : Option Char) : Bool :=
  isAsciiDigit prev != isAsciiDigit c || (u.isLowercase prev && u.isUppercase c) ||
    (u.isUppercase prev && u.isUppercase c && next.any u.isLowercase)

/-- The word collected so far, if there is one. -/
def flushWord (current : List Char) : List String :=
  if current.isEmpty then [] else [u.toLowercase (String.ofList current)]

/-- The loop of `split_identifier` after `prev`, with the word collected so far. -/
def splitWords (prev : Char) (current : List Char) : List Char → List String
  | [] => flushWord u current
  | c :: rest =>
    if !u.isAlphanumeric c then flushWord u current ++ splitWords c [] rest
    else if current.isEmpty then splitWords c [c] rest
    else if wordBoundary u prev c rest.head? then flushWord u current ++ splitWords c [c] rest
    else splitWords c (current ++ [c]) rest

/-- Split an identifier into lower-cased word tokens. -/
def splitIdentifier (s : String) : List String :=
  (splitWords u ' ' [] s.toList).filter (· ≠ "")

/-- What stands before the first `__`. -/
def beforeDelimiter : List Char → Option (List Char)
  | '_' :: '_' :: _ => some []
  | c :: rest => (beforeDelimiter rest).map (c :: ·)
  | [] => none

/-- The words of a description, without punctuation around them. -/
def descriptionTokens (descLower : String) : List String :=
  let trimStart := List.dropWhile fun c => !u.isAlphanumeric c
  let words := (descLower.toList.splitOnP u.isWhitespace).map fun w =>
    String.ofList (trimStart (trimStart w).reverse).reverse
  words.filter (· ≠ "")

end

/-- Precomputed per-tool search document. -/
structure ToolDoc where
  nameLower : String
  nameTokens : List String
  descLower : String
  descTokens : List String
  endpointTokens : List String
  schemaPropTokens : List String
deriving DecidableEq

def ToolDoc.fromTool (u : Unicode) (tool : ToolInfo) : ToolDoc :=
  let descLower := (tool.description.map u.toLowercase).getD ""
  { nameLower := u.toLowercase tool.name
    nameTokens := splitIdentifier u tool.name
    descLower := descLower
    descTokens := descriptionTokens u descLower
    endpointTokens :=
      splitIdentifier u (String.ofList ((beforeDelimiter tool.name.toList).getD []))
    schemaPropTokens :=
      (((tool.inputSchema.get "properties").bind Json.asObject).getD []).flatMap
        fun prop => splitIdentifier u prop.1 }

/-! ## Searches -/

/-- The registry, and the `search_index_cache` of a handler. -/
structure SearchShared (A : Type) where
  registry : SharedRegistry A
  searchIndexCache : Option (Nat × List ToolDoc)

/-- Where a `search_tools` with a query stands. -/
inductive SearchPc where
  | start
  /-- The generation is read, the catalog is being fetched. -/
  | fetch (currentGen : Nat) (read : CatalogRead)
  /-- The look at the cache comes next. -/
  | lookup (currentGen : Nat) (catalog : List ToolInfo)
  /-- A miss: the documents are built, the write lock comes next. -/
  | store (currentGen : Nat) (catalog : List ToolInfo)
  /-- The catalog is scored with these documents. -/
  | score (docs : List ToolDoc) (catalog : List ToolInfo)

inductive SearchThread (A : Type) where
  | registry (t : RegistryThread A)
  | search (pc : SearchPc)

variable {A : Type} [McpAdapter A]

def SearchThread.inRegistry : SearchThread A → RegistryThread A
  | .registry t => t
  | .search (.fetch _ read) => .read read .plain
  | .search _ => .finished

section

variable (validateArguments : Option (String → Json → Json → Option Json)) (u : Unicode)
  (view : Catalog → List ToolInfo)

/-- One step of `search_tools`. `view` is what the handler's backing shows of the merged catalog: all of
it, or what belongs to a profile. -/
def SearchPc.step (sh : SearchShared A) (populating : String → Bool) (fresh : Bool) :
    SearchPc → Option (SearchShared A × SearchPc)
  | .start => some (sh, .fetch sh.registry.catalogGeneration .start)
  | .fetch currentGen (.done catalog) => some (sh, .lookup currentGen (view catalog))
  | .fetch currentGen read =>
    (read.step sh.registry populating fresh).map fun r =>
      ({ sh with registry := r.1 }, .fetch currentGen r.2)
  | .lookup currentGen catalog =>
    match sh.searchIndexCache with
    | some (gen, docs) =>
      if gen = currentGen ∧ docs.length = catalog.length then some (sh, .score docs catalog)
      else some (sh, .store currentGen catalog)
    | none => some (sh, .store currentGen catalog)
  | .store currentGen catalog =>
    let newDocs := catalog.map (ToolDoc.fromTool u)
    some ({ sh with searchIndexCache := some (currentGen, newDocs) }, .score newDocs catalog)
  | .score _ _ => none

def SearchThread.step (sh : SearchShared A) (ts : List (SearchThread A)) (fresh : Bool) :
    SearchThread A → Option (SearchShared A × SearchThread A)
  | .registry t =>
    (t.step validateArguments sh.registry (ts.map inRegistry) fresh).map fun r =>
      ({ sh with registry := r.1 }, .registry r.2)
  | .search pc =>
    (pc.step u view sh (fun name => (ts.map inRegistry).any (·.populates name)) fresh).map fun r =>
      (r.1, .search r.2)

end

inductive SearchOperation (A : Type) where
  | registry (op : RegistryOperation A)
  | searchTools

def SearchOperation.thread : SearchOperation A → SearchThread A
  | .registry op => .registry op.thread
  | .searchTools => .search .start

/-- A registry and one handler over it, under concurrent operations. -/
def searchPool (validateArguments : Option (String → Json → Json → Option Json)) (u : Unicode)
    (view : Catalog → List ToolInfo) :
    Pool (SearchShared A) (SearchThread A) (SearchOperation A) Bool where
  init sh := sh = ⟨.new, none⟩
  launch _ _ op := some op.thread
  step sh ts t fresh :=
    (t.step validateArguments u view sh ts fresh).map fun r => (r.1, r.2, [])

/-! ## Documents with their label -/

abbrev SearchState (A : Type) := Pool.State (SearchShared A) (SearchThread A)

abbrev SearchAction (A : Type) := Pool.Action (SearchOperation A) Bool

/-- The catalog a search has fetched and not yet found documents for. -/
def SearchPc.holds : SearchPc → Option (Nat × List ToolInfo)
  | .lookup currentGen catalog | .store currentGen catalog => some (currentGen, catalog)
  | _ => none

def SearchThread.holds : SearchThread A → Option (Nat × List ToolInfo)
  | .search pc => pc.holds
  | .registry _ => none

section

variable (u : Unicode)

/-- Documents of this generation: those cached, and those of the searches under way. -/
def Labelled (s : SearchState A) (gen : Nat) (docs : List ToolDoc) : Prop :=
  s.shared.searchIndexCache = some (gen, docs) ∨
    ∃ t ∈ s.threads, ∃ catalog, t.holds = some (gen, catalog) ∧
      docs = catalog.map (ToolDoc.fromTool u)

/-- When a search has its catalog, documents of its generation are of the same tools, or of another
number of tools. -/
def FetchesAgree (view : Catalog → List ToolInfo) (s : SearchState A) : SearchAction A → Prop
  | .launch _ => True
  | .run i _ => ∀ gen catalog, s.threads[i]? = some (.search (.fetch gen (.done catalog))) →
      ∀ docs, Labelled u s gen docs → docs.length = (view catalog).length →
        docs = (view catalog).map (ToolDoc.fromTool u)

/-- A search scores each tool by its own document. -/
def SearchThread.Aligned : SearchThread A → Prop
  | .search (.score docs catalog) => docs = catalog.map (ToolDoc.fromTool u)
  | _ => True

structure IndexInv (s : SearchState A) : Prop where
  agree : ∀ gen docs docs', Labelled u s gen docs → Labelled u s gen docs' →
    docs.length = docs'.length → docs = docs'
  aligned : ∀ t ∈ s.threads, t.Aligned u

end

/-! ## The invariant -/

variable {populating : String → Bool} {docs : List ToolDoc} {t t' : SearchThread A}

section

variable {validateArguments : Option (String → Json → Json → Option Json)} {u : Unicode}
  {view : Catalog → List ToolInfo} {sh sh' : SearchShared A} {fresh : Bool}

theorem SearchPc.step_fetch {currentGen : Nat} {read : CatalogRead} {pc' : SearchPc}
    (h : (SearchPc.fetch currentGen read).step u view sh populating fresh = some (sh', pc')) :
    (∃ catalog, read = .done catalog ∧ sh' = sh ∧ pc' = .lookup currentGen (view catalog)) ∨
      ∃ r, read.step sh.registry populating fresh = some r ∧
        sh' = { sh with registry := r.1 } ∧ pc' = .fetch currentGen r.2 := by
  cases read with
  | done catalog =>
    cases h
    exact .inl ⟨catalog, rfl, rfl, rfl⟩
  | _ =>
    simp only [SearchPc.step] at h
    obtain ⟨r, hr, heq⟩ := Option.map_eq_some_iff.1 h
    cases heq
    exact .inr ⟨r, hr, rfl, rfl⟩

/-- What a step of a search does to the labels: the documents it stores are of the catalog it holds,
and the catalog it comes to hold is the one it has fetched. -/
theorem SearchPc.step_holds {pc pc' : SearchPc}
    (h : pc.step u view sh populating fresh = some (sh', pc')) :
    (sh'.searchIndexCache = sh.searchIndexCache ∨
      ∃ gen catalog, pc.holds = some (gen, catalog) ∧
        sh'.searchIndexCache = some (gen, catalog.map (ToolDoc.fromTool u))) ∧
    (∀ gen catalog, pc'.holds = some (gen, catalog) → pc.holds = some (gen, catalog) ∨
      ∃ fetched, pc = .fetch gen (.done fetched) ∧ catalog = view fetched) := by
  cases pc with
  | start =>
    cases h
    exact ⟨.inl rfl, fun _ _ hh => (by cases hh)⟩
  | fetch gen read =>
    obtain ⟨fetched, rfl, rfl, rfl⟩ | ⟨r, -, rfl, rfl⟩ := SearchPc.step_fetch h
    · refine ⟨.inl rfl, fun gen' catalog hh => .inr ⟨fetched, ?_⟩⟩
      cases hh
      exact ⟨rfl, rfl⟩
    · exact ⟨.inl rfl, fun _ _ hh => (by cases hh)⟩
  | lookup gen catalog =>
    simp only [SearchPc.step] at h
    split at h
    · split at h
      · cases h
        exact ⟨.inl rfl, fun _ _ hh => (by cases hh)⟩
      · cases h
        exact ⟨.inl rfl, fun _ _ hh => .inl hh⟩
    · cases h
      exact ⟨.inl rfl, fun _ _ hh => .inl hh⟩
  | store gen catalog =>
    cases h
    exact ⟨.inr ⟨gen, catalog, rfl, rfl⟩, fun _ _ hh => (by cases hh)⟩
  | score docs catalog => cases h

/-- A search that comes to score a catalog takes cached documents of its generation, as many as there
are tools, or builds them. -/
theorem SearchPc.step_score {pc : SearchPc} {catalog : List ToolInfo}
    (h : pc.step u view sh populating fresh = some (sh', .score docs catalog)) :
    docs = catalog.map (ToolDoc.fromTool u) ∨
      ∃ gen, pc.holds = some (gen, catalog) ∧ sh.searchIndexCache = some (gen, docs) ∧
        docs.length = catalog.length := by
  cases pc with
  | fetch gen read =>
    obtain ⟨_, -, -, hpc⟩ | ⟨_, -, -, hpc⟩ := SearchPc.step_fetch h
    · cases hpc
    · cases hpc
  | lookup gen tools =>
    simp only [SearchPc.step] at h
    split at h
    · next cachedGen cachedDocs hcache =>
      split at h
      · next hhit =>
        cases h
        obtain ⟨rfl, hlen⟩ := hhit
        exact .inr ⟨cachedGen, rfl, hcache, hlen⟩
      · cases h
    · cases h
  | store gen tools =>
    cases h
    exact .inl rfl
  | _ => cases h

theorem SearchThread.step_holds {ts : List (SearchThread A)}
    (h : t.step validateArguments u view sh ts fresh = some (sh', t')) :
    (sh'.searchIndexCache = sh.searchIndexCache ∨
      ∃ gen catalog, t.holds = some (gen, catalog) ∧
        sh'.searchIndexCache = some (gen, catalog.map (ToolDoc.fromTool u))) ∧
    (∀ gen catalog, t'.holds = some (gen, catalog) → t.holds = some (gen, catalog) ∨
      ∃ fetched, t = .search (.fetch gen (.done fetched)) ∧ catalog = view fetched) := by
  cases t with
  | registry rt =>
    obtain ⟨r, -, heq⟩ := Option.map_eq_some_iff.1 h
    cases heq
    exact ⟨.inl rfl, fun _ _ hh => (by cases hh)⟩
  | search pc =>
    obtain ⟨⟨sh₁, pc'⟩, hpc, heq⟩ := Option.map_eq_some_iff.1 h
    cases heq
    obtain ⟨hcache, hheld⟩ := SearchPc.step_holds hpc
    refine ⟨hcache, fun gen catalog hh => (hheld gen catalog hh).imp_right ?_⟩
    rintro ⟨fetched, rfl, hview⟩
    exact ⟨fetched, rfl, hview⟩

theorem searchPool_step {ts new : List (SearchThread A)}
    (h : (searchPool validateArguments u view).step sh ts t fresh = some (sh', t', new)) :
    t.step validateArguments u view sh ts fresh = some (sh', t') ∧ new = [] := by
  obtain ⟨r, hr, heq⟩ := Option.map_eq_some_iff.1 h
  cases heq
  exact ⟨hr, rfl⟩

variable {s : SearchState A}

/-- After a step the labelled documents are those from before, and those of a catalog just fetched. -/
theorem labelled_stepped {i : Nat} (hi : s.threads[i]? = some t)
    (h : t.step validateArguments u view s.shared s.threads fresh = some (sh', t')) {gen : Nat}
    (hl : Labelled u ⟨sh', Pool.stepped s.threads i t' []⟩ gen docs) :
    Labelled u s gen docs ∨ ∃ fetched, t = .search (.fetch gen (.done fetched)) ∧
      docs = (view fetched).map (ToolDoc.fromTool u) := by
  obtain ⟨hcache, hheld⟩ := SearchThread.step_holds h
  have ht : t ∈ s.threads := List.mem_of_getElem? hi
  obtain hl | ⟨w, hw, catalog, hwh, rfl⟩ := hl
  · left
    obtain hsame | ⟨gen', catalog, hh, hnew⟩ := hcache
    · exact .inl (hsame ▸ hl)
    · rw [show sh'.searchIndexCache = some (gen, docs) from hl] at hnew
      cases hnew
      exact .inr ⟨t, ht, catalog, hh, rfl⟩
  · rcases Pool.mem_stepped hw with rfl | hw | ⟨j, -, hj⟩
    · obtain hh | ⟨fetched, hfetch, rfl⟩ := hheld gen catalog hwh
      · exact .inl (.inr ⟨t, ht, catalog, hh, rfl⟩)
      · exact .inr ⟨fetched, hfetch, rfl⟩
    · exact absurd hw List.not_mem_nil
    · exact .inl (.inr ⟨w, List.mem_of_getElem? hj, catalog, hwh, rfl⟩)

theorem IndexInv.step_aligned (hinv : IndexInv u s) {i : Nat} (hi : s.threads[i]? = some t)
    (h : t.step validateArguments u view s.shared s.threads fresh = some (sh', t')) : t'.Aligned u := by
  cases t with
  | registry rt =>
    obtain ⟨r, -, heq⟩ := Option.map_eq_some_iff.1 h
    cases heq
    trivial
  | search pc =>
    obtain ⟨⟨sh₁, pc'⟩, hpc, heq⟩ := Option.map_eq_some_iff.1 h
    cases heq
    cases pc' with
    | score docs catalog =>
      obtain hdocs | ⟨gen, hholds, hcached, hlen⟩ := SearchPc.step_score hpc
      · exact hdocs
      · -- a hit: the documents cached and those of the catalog have the same label
        refine hinv.agree gen docs _ (.inl hcached)
          (.inr ⟨_, List.mem_of_getElem? hi, catalog, hholds, rfl⟩) ?_
        rw [List.length_map]
        exact hlen
    | _ => trivial

theorem indexInv_run
    (h : (searchPool validateArguments u view).system.ReachableWhile (FetchesAgree u view) s) :
    IndexInv u s := by
  refine Pool.invariant_of (I := fun _ => True) (fun _ _ => trivial) ?_ ?_ ?_ h
  · intro sh hsh
    cases (show sh = ⟨.new, none⟩ from hsh)
    refine ⟨fun gen docs docs' hl => ?_, List.forall_mem_nil _⟩
    obtain hl | ⟨t, ht, -⟩ := hl
    · cases hl
    · exact absurd ht List.not_mem_nil
  · intro s op t _ hJ _ ht
    cases (show some op.thread = some t from ht)
    have hfresh : op.thread.holds = none := by cases op <;> rfl
    have hlabelled {gen : Nat} {docs : List ToolDoc}
        (hl : Labelled u { s with threads := s.threads ++ [op.thread] } gen docs) :
        Labelled u s gen docs := by
      refine hl.imp_right ?_
      rintro ⟨w, hw, catalog, hwh, rfl⟩
      rcases List.mem_append.1 hw with hw | hw
      · exact ⟨w, hw, catalog, hwh, rfl⟩
      · rw [List.mem_singleton.1 hw, hfresh] at hwh
        cases hwh
    refine ⟨fun gen docs docs' hl hl' => hJ.agree gen docs docs' (hlabelled hl) (hlabelled hl'), ?_⟩
    intro w hw
    rcases List.mem_append.1 hw with hw | hw
    · exact hJ.aligned w hw
    · rw [List.mem_singleton.1 hw]
      cases op <;> trivial
  · intro s i fresh t sh' t' new _ hJ hguard hi hstep
    obtain ⟨hst, rfl⟩ := searchPool_step hstep
    refine ⟨fun gen docs docs' hl hl' hlen => ?_, ?_⟩
    · obtain hl | ⟨fetched, hfetch, rfl⟩ := labelled_stepped hi hst hl
      · obtain hl' | ⟨fetched, rfl, rfl⟩ := labelled_stepped hi hst hl'
        · exact hJ.agree gen docs docs' hl hl' hlen
        · rw [List.length_map] at hlen
          exact hguard gen fetched hi docs hl hlen
      · obtain hl' | ⟨fetched', hfetch', rfl⟩ := labelled_stepped hi hst hl'
        · rw [List.length_map] at hlen
          rw [hfetch] at hi
          exact (hguard gen fetched hi docs' hl' hlen.symm).symm
        · rw [hfetch] at hfetch'
          cases hfetch'
          rfl
    · refine Pool.forall_mem_stepped (hJ.step_aligned hi hst) (List.forall_mem_nil _) ?_
      exact fun j w _ hj => hJ.aligned w (List.mem_of_getElem? hj)

/-- **Every tool is scored by its own document**, in every run in which searches of one generation
fetch the same tools, or different numbers of them. -/
theorem search_docs_aligned
    (h : (searchPool validateArguments u view).system.ReachableWhile (FetchesAgree u view) s)
    {docs : List ToolDoc} {catalog : List ToolInfo} (ht : .search (.score docs catalog) ∈ s.threads) :
    docs.length = catalog.length ∧
      ∀ (i : Nat) (tool : ToolInfo), catalog[i]? = some tool → docs[i]? = some (ToolDoc.fromTool u tool) := by
  have hdocs : docs = catalog.map (ToolDoc.fromTool u) := (indexInv_run h).aligned _ ht
  rw [hdocs]
  refine ⟨List.length_map _, fun i tool htool => ?_⟩
  rw [List.getElem?_map, htool]
  rfl

end

/-! ## Runs -/

def asciiText : Unicode where
  isAlphanumeric := Char.isAlphanum
  isLowercase := Char.isLower
  isUppercase := Char.isUpper
  isWhitespace c := c == ' ' || c == '\t' || c == '\n'
  toLowercase s := String.ofList (s.toList.map Char.toLower)

example : splitIdentifier asciiText "getHTTPResponse2_x" = ["get", "http", "response", "2", "x"] := by
  decide

def searches : Pool (SearchShared FixedAdapter) (SearchThread FixedAdapter)
    (SearchOperation FixedAdapter) Bool :=
  searchPool none asciiText (·.tools)

def searchesStart : SearchState FixedAdapter := ⟨⟨.new, none⟩, []⟩

theorem searches_init : searches.system.init searchesStart := ⟨rfl, rfl⟩

/-- Thread `i` takes `n` steps. -/
def searchSteps (i n : Nat) : List (SearchAction FixedAdapter) := List.replicate n (.run i true)

def listing (tool : String) : FixedAdapter := { tools := .ok [bareTool tool] }

def registerMail : SearchAction FixedAdapter :=
  .launch (.registry (.register ⟨"mail", listing "send", "http", none, some "mail"⟩))

def swapMail : SearchAction FixedAdapter :=
  .launch (.registry (.swapAdapter "mail" (listing "read")))

/-- Two searches read the same generation and one fetches the catalog; the adapter is swapped; the
other fetches the new catalog and stores its documents, which the first then takes. -/
def searchesAcrossSwap : List (SearchAction FixedAdapter) :=
  registerMail :: searchSteps 0 5 ++ [.launch .searchTools, .launch .searchTools] ++
    searchSteps 1 1 ++ searchSteps 2 10 ++ swapMail :: searchSteps 3 5 ++ searchSteps 1 11 ++
    searchSteps 2 1

def acrossSwap : SearchState FixedAdapter :=
  (searches.system.run searchesStart searchesAcrossSwap).getD searchesStart

theorem documents_of_other_tools :
    searches.system.Reachable acrossSwap ∧ ∃ docs catalog,
      .search (.score docs catalog) ∈ acrossSwap.threads ∧
        docs.map (·.nameLower) = ["read"] ∧ catalog.map (·.name) = ["send"] ∧
        ¬ ∀ (i : Nat) (tool : ToolInfo), catalog[i]? = some tool →
          docs[i]? = some (ToolDoc.fromTool asciiText tool) := by
  have hrun : searches.system.run searchesStart searchesAcrossSwap = some acrossSwap := rfl
  refine ⟨(System.Reachable.init searches_init).run hrun, _, _,
    List.mem_of_getElem? (i := 2) rfl, by decide, rfl, fun h => ?_⟩
  have hdoc := h 0 _ rfl
  have hname := congrArg (Option.map ToolDoc.nameLower) hdoc
  exact absurd hname (by decide)

/-- A check of the guard: when a search has its catalog, no documents have its generation but those of
the same tools. -/
def fetchesSame (s : SearchState FixedAdapter) : SearchAction FixedAdapter → Bool
  | .launch _ => true
  | .run i _ =>
    match s.threads[i]? with
    | some (.search (.fetch gen (.done catalog))) =>
      let same (label : Nat) (docs : List ToolDoc) : Bool :=
        label != gen || docs == catalog.tools.map (ToolDoc.fromTool asciiText)
      (s.shared.searchIndexCache.all fun c => same c.1 c.2) &&
        s.threads.all fun t => t.holds.all fun h =>
          same h.1 (h.2.map (ToolDoc.fromTool asciiText))
    | _ => true

theorem fetchesAgree_of_check (s : SearchState FixedAdapter) (a : SearchAction FixedAdapter)
    (h : fetchesSame s a = true) : FetchesAgree asciiText (·.tools) s a := by
  cases a with
  | launch op => trivial
  | run i fresh =>
    intro gen catalog hi docs hl _
    rw [fetchesSame, hi] at h
    obtain ⟨hcached, hheld⟩ := Bool.and_eq_true_iff.1 h
    obtain hl | ⟨t, ht, tools, hholds, rfl⟩ := hl
    · rw [hl] at hcached
      simpa using hcached
    · have hsame := List.all_eq_true.1 hheld t ht
      rw [hholds] at hsame
      simpa using hsame

/-- A search before the swap, one that takes its documents, and one after. -/
def searchesAroundSwap : List (SearchAction FixedAdapter) :=
  registerMail :: searchSteps 0 5 ++ .launch .searchTools :: searchSteps 1 12 ++
    .launch .searchTools :: searchSteps 2 4 ++ swapMail :: searchSteps 3 5 ++
    .launch .searchTools :: searchSteps 4 12

def aroundSwap : SearchState FixedAdapter :=
  (searches.system.runWhile fetchesSame searchesStart searchesAroundSwap).getD searchesStart

theorem searches_aligned_around_swap :
    ∃ docs catalog, .search (.score docs catalog) ∈ aroundSwap.threads ∧
      docs.length = catalog.length ∧
        ∀ (i : Nat) (tool : ToolInfo), catalog[i]? = some tool →
          docs[i]? = some (ToolDoc.fromTool asciiText tool) := by
  have hrun : searches.system.runWhile fetchesSame searchesStart searchesAroundSwap =
      some aroundSwap := rfl
  have hreach := (System.ReachableWhile.init searches_init).run fetchesAgree_of_check hrun
  have hscored := List.mem_of_getElem? (l := aroundSwap.threads) (i := 2) rfl
  exact ⟨_, _, hscored, search_docs_aligned hreach hscored⟩

end EndaraRelay
