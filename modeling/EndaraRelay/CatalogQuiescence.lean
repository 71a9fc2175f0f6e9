import EndaraRelay.CatalogRebuild

/-!
# The catalog cache at quiescence

Once every operation has finished, a populated catalog cache should be what a fresh build returns.

**The slip.** Most mutators invalidate after their last edit. When a changed or added endpoint has a
validation warning, the watcher registers a `FailedAdapter` (which invalidates) and sets `disabled`
and `disabled_tools` afterwards. A read that builds in between stores its catalog under the current
generation, and nothing invalidates it any more (`failed_endpoint_leaves_stale_catalog`).

**When the cache is right.** `EditsGuarded` asks of every edit of the flags that an invalidation is
still to come, or that a build returns the same catalog after it as before, or that there is no
cached catalog and no build of the current generation waiting to be stored. In every run whose steps
all meet it the cache is right at quiescence (`catalog_fresh_at_quiescence`).

**The invariant** (`CacheInv`). While a bump of the generation is pending nothing is known of the
cache. While none is pending, the cache holds the catalog of the current entries, and so will every
reader that noted the current generation. A tool cache may be out of date only while it is about to
be cleared, which is before a bump.
-/

namespace EndaraRelay

open Verif

variable {A : Type} [McpAdapter A]

abbrev RegistryState (A : Type) := Pool.State (SharedRegistry A) (RegistryThread A)

abbrev RegistryAction (A : Type) := Pool.Action (RegistryOperation A) Bool

/-- Every operation has finished. -/
def Quiescent (s : RegistryState A) : Prop := ∀ t ∈ s.threads, t = .finished

/-! ## What mutators still owe -/

variable {name : String} {sh sh' : SharedRegistry A} {u : RegistryThread A} {op : RegistryOp A}
  {fresh : Bool} {s : RegistryState A} {use : CatalogUse} {entries : Entries A}

section Programs

omit [McpAdapter A]

def bumps : List (RegistryOp A) → Bool
  | [] => false
  | .bump :: _ => true
  | _ :: p => bumps p

/-- The program clears the tool cache of this entry, and bumps the generation afterwards. -/
def clears (name : String) : List (RegistryOp A) → Bool
  | [] => false
  | .sweepAll :: p => bumps p || clears name p
  | .sweep todo :: p => (decide (name ∈ todo) && bumps p) || clears name p
  | .clearToolCache name' :: p => (decide (name' = name) && bumps p) || clears name p
  | _ :: p => clears name p

/-- What the program edits it announces afterwards: a new entry by a bump, a new adapter by clearing
the tool cache of the old one. -/
def Announced : List (RegistryOp A) → Prop
  | [] => True
  | .insert _ :: p => bumps p = true ∧ Announced p
  | .install name _ :: p => clears name p = true ∧ Announced p
  | _ :: p => Announced p

theorem bumps_of_clears {p : List (RegistryOp A)} (h : clears name p = true) : bumps p = true := by
  induction p with
  | nil => cases h
  | cons op p ih =>
    cases op with
    | bump => rfl
    | sweepAll =>
      rw [clears, Bool.or_eq_true] at h
      exact h.elim id ih
    | sweep todo =>
      rw [clears, Bool.or_eq_true, Bool.and_eq_true] at h
      exact h.elim And.right ih
    | clearToolCache name' =>
      rw [clears, Bool.or_eq_true, Bool.and_eq_true] at h
      exact h.elim And.right ih
    | insert r => exact ih h
    | erase name' => exact ih h
    | setFlags name' disabled disabledTools => exact ih h
    | install name' adapter => exact ih h

end Programs

namespace RegistryThread

def bumps : RegistryThread A → Bool
  | .mutate p => EndaraRelay.bumps p
  | _ => false

def clears (name : String) : RegistryThread A → Bool
  | .mutate p => EndaraRelay.clears name p
  | _ => false

/-- A reader noted a generation that was reached, a mutator announces its edits. -/
def Sound (sh : SharedRegistry A) : RegistryThread A → Prop
  | .read pc _ => ∀ g, pc.generation = some g → g ≤ sh.catalogGeneration
  | .mutate p => Announced p
  | .calling => True

/-- A reader that may still store will store the catalog of the current entries. -/
def UpToDate (sh : SharedRegistry A) : RegistryThread A → Prop
  | .read pc _ => pc.generation = some sh.catalogGeneration →
      ∀ catalog, pc.Outcomes sh.entries catalog → catalog = buildCatalog listedByAdapter sh.entries
  | _ => True

omit [McpAdapter A] in
theorem bumps_of_clears {t : RegistryThread A} (h : t.clears name = true) : t.bumps = true := by
  cases t with
  | read pc use => cases h
  | calling => cases h
  | mutate p => exact EndaraRelay.bumps_of_clears h

end RegistryThread

/-! ## What readers noted and mutators announce -/

omit [McpAdapter A] in
theorem RegistryThread.Sound.of_generation (hgen : sh.catalogGeneration ≤ sh'.catalogGeneration)
    (hu : u.Sound sh) : u.Sound sh' := by
  cases u with
  | read pc use => exact fun g hg => (hu g hg).trans hgen
  | calling => trivial
  | mutate p => exact hu

omit [McpAdapter A] in
theorem RegistryOp.step_announced {readHeld : Bool} {rest rest' : List (RegistryOp A)}
    (h : op.step sh readHeld rest = some (sh', rest')) (hann : Announced (op :: rest)) :
    Announced rest' ∧ sh.catalogGeneration ≤ sh'.catalogGeneration := by
  cases op with
  | insert r =>
    rw [step] at h
    split at h
    · cases h
    · cases h
      exact ⟨hann.2, Nat.le_refl _⟩
  | erase name =>
    rw [step] at h
    split at h
    · cases h
    · cases h
      refine ⟨?_, Nat.le_refl _⟩
      split
      · exact hann
      · exact hann
  | setFlags name disabled disabledTools =>
    rw [step] at h
    split at h
    · cases h
    · cases h
      exact ⟨hann, Nat.le_refl _⟩
  | install name adapter =>
    rw [step] at h
    split at h
    · cases h
    · cases h
      exact ⟨hann.2, Nat.le_refl _⟩
  | sweepAll =>
    cases h
    exact ⟨hann, Nat.le_refl _⟩
  | sweep todo =>
    cases todo with
    | nil =>
      cases h
      exact ⟨hann, Nat.le_refl _⟩
    | cons name todo =>
      cases h
      exact ⟨hann, Nat.le_refl _⟩
  | clearToolCache name =>
    cases h
    exact ⟨hann, Nat.le_refl _⟩
  | bump =>
    cases h
    exact ⟨hann, Nat.le_succ _⟩

variable {validateArguments : Option (String → Json → Json → Option Json)}

/-- The generation never goes back, and a thread stays sound. -/
theorem RegistryThread.step_sound {ts : List (RegistryThread A)} {t t' : RegistryThread A}
    (h : t.step validateArguments sh ts fresh = some (sh', t')) (ht : t.Sound sh) :
    t'.Sound sh' ∧ sh.catalogGeneration ≤ sh'.catalogGeneration := by
  rcases step_cases h with ⟨rfl, rfl, rfl⟩ | ⟨catalog, use, rfl, heq⟩ |
    ⟨pc, use, pc', rfl, rfl, hspec⟩ | ⟨op, rest, rest', rfl, rfl, hop⟩
  · exact ⟨trivial, Nat.le_refl _⟩
  · obtain ⟨-, -, hgen, rfl | rfl | ⟨use', rfl⟩⟩ := useCatalog_frame _ _ _ _ heq
    · exact ⟨trivial, hgen.ge⟩
    · exact ⟨trivial, hgen.ge⟩
    · exact ⟨fun _ h => (nomatch h), hgen.ge⟩
  · refine ⟨fun g hg => ?_, hspec.catalogGeneration.ge⟩
    rw [hspec.catalogGeneration]
    rcases hspec.generation g hg with hg | ⟨-, rfl⟩
    · exact ht g hg
    · exact Nat.le_refl _
  · exact RegistryOp.step_announced hop ht

omit [McpAdapter A] in
theorem RegistryOperation.thread_sound (sh : SharedRegistry A) (op : RegistryOperation A) :
    op.thread.Sound sh := by
  cases op with
  | mergedCatalogWithLookup => exact fun _ h => nomatch h
  | refreshCatalog => exact fun _ h => nomatch h
  | profileRouteToolCall call => exact fun _ h => nomatch h
  | register r => exact ⟨rfl, trivial⟩
  | remove name => trivial
  | invalidateCatalogCache => trivial
  | invalidateEndpointToolCache name => trivial
  | invalidateAllToolCaches => trivial
  | manageFlags name disabled disabledTools => trivial
  | swapAdapter name adapter => exact ⟨rfl, trivial⟩
  | watcherFailed r disabled disabledTools => exact ⟨rfl, trivial⟩
  | watcherStarting r disabled disabledTools adapter =>
    refine ⟨rfl, ?_, trivial⟩
    simp [clears, bumps, EndaraRelay.invalidateEndpointToolCache]

theorem sound_run {ok : RegistryState A → RegistryAction A → Prop}
    (h : (registryPool validateArguments).system.ReachableWhile ok s) :
    ∀ t ∈ s.threads, t.Sound s.shared := by
  refine Pool.forall_threads ?_ ?_ ?_ h
  · intro s op t _ ht
    cases ht
    exact op.thread_sound s.shared
  · intro sh ts t fresh sh' t' new ht hstep
    obtain ⟨hthread, rfl⟩ := registryPool_step hstep
    exact ⟨(RegistryThread.step_sound hthread ht).1, fun _ h => (nomatch h)⟩
  · intro sh ts t fresh sh' t' new u ht hu hstep
    obtain ⟨hthread, -⟩ := registryPool_step hstep
    exact hu.of_generation (RegistryThread.step_sound hthread ht).2

/-! ## The invariant -/

/-- Some thread will bump the generation. -/
def Pending (ts : List (RegistryThread A)) : Prop := ∃ t ∈ ts, t.bumps = true

/-- The cache, and what is about to be stored in it, is the catalog of the current entries. -/
structure Settled (sh : SharedRegistry A) (ts : List (RegistryThread A)) : Prop where
  cache : ∀ catalog, sh.catalogCache = some catalog →
    catalog = buildCatalog listedByAdapter sh.entries
  readers : ∀ t ∈ ts, t.UpToDate sh

structure CacheInv (s : RegistryState A) : Prop where
  toolCaches : ∀ name entry, s.shared.entries.lookup name = some entry →
    entry.Coherent ∨ ∃ t ∈ s.threads, t.clears name = true
  settled : ¬ Pending s.threads → Settled s.shared s.threads

theorem CacheInv.coherent (hinv : CacheInv s) (hp : ¬ Pending s.threads) :
    CoherentEntries s.shared.entries := by
  intro name entry hl
  rcases hinv.toolCaches name entry hl with h | ⟨t, ht, hclears⟩
  · exact h
  · exact absurd ⟨t, ht, RegistryThread.bumps_of_clears hclears⟩ hp

/-! ## The guard -/

/-- An edit of the flags of an entry is followed by an invalidation, or does not change what a build
returns, or meets neither a cached catalog nor one that waits to be stored. -/
def EditsGuarded (s : RegistryState A) : RegistryAction A → Prop
  | .launch _ => True
  | .run i _ => ∀ name disabled disabledTools rest,
      s.threads[i]? = some (.mutate (.setFlags name disabled disabledTools :: rest)) →
      Pending (Pool.stepped s.threads i (.mutate rest) []) ∨
      buildCatalog listedByAdapter (s.shared.entries.modify name fun entry =>
          { entry with disabled := disabled, disabledTools := disabledTools }) =
        buildCatalog listedByAdapter s.shared.entries ∨
      s.shared.catalogCache = none ∧
        ∀ result use, .read (.store s.shared.catalogGeneration result) use ∉ s.threads

/-! ## Steps that leave the entries alone but for their tool caches -/

section Step

variable {s : RegistryState A} {i : Nat} {t t' : RegistryThread A}

omit [McpAdapter A] in
theorem not_pending_of_stepped (hi : s.threads[i]? = some t)
    (hbumps : t.bumps = true → t'.bumps = true)
    (hp : ¬ Pending (Pool.stepped s.threads i t' [])) : ¬ Pending s.threads :=
  fun h => hp (Pool.exists_stepped hi hbumps h)

/-- The other readers do not mind a change of the tool caches. -/
theorem RegistryThread.UpToDate.of_tighter (htighter : Tighter sh'.entries sh.entries)
    (hgen : sh'.catalogGeneration = sh.catalogGeneration) (hu : u.UpToDate sh) : u.UpToDate sh' := by
  cases u with
  | read pc use =>
    intro hg catalog ho
    rw [htighter.buildCatalog_eq]
    rw [hgen] at hg
    exact hu hg catalog (CatalogRead.Outcomes.of_tighter htighter ho)
  | calling => trivial
  | mutate p => trivial

/-- **Steps on the caches.** The thread that moved has to owe what it owed, and to be right about
the catalog if it is a reader. -/
theorem CacheInv.cache_step (hinv : CacheInv s) (hi : s.threads[i]? = some t)
    (htighter : Tighter sh.entries s.shared.entries)
    (hgen : sh.catalogGeneration = s.shared.catalogGeneration)
    (hcache : ∀ catalog, sh.catalogCache = some catalog → s.shared.catalogCache = some catalog ∨
      ∃ use, t = .read (.store s.shared.catalogGeneration catalog) use)
    (hbumps : t.bumps = true → t'.bumps = true)
    (hclears : ∀ name entry, sh.entries.lookup name = some entry → t.clears name = true →
      entry.Coherent ∨ t'.clears name = true)
    (hup : CoherentEntries s.shared.entries → Settled s.shared s.threads → t'.UpToDate sh) :
    CacheInv ⟨sh, Pool.stepped s.threads i t' []⟩ where
  toolCaches := by
    intro name entry' hl
    obtain ⟨entry, hentry, himp⟩ := htighter.coherent hl
    rcases hinv.toolCaches name entry hentry with hcoh | ⟨u, hu, hclear⟩
    · exact .inl (himp hcoh)
    · obtain ⟨j, hj⟩ := List.mem_iff_getElem?.1 hu
      rcases eq_or_ne j i with rfl | hne
      · rw [hi] at hj
        cases hj
        rcases hclears name entry' hl hclear with hcoh | hclear'
        · exact .inl hcoh
        · exact .inr ⟨t', Pool.mem_stepped_self hi, hclear'⟩
      · exact .inr ⟨u, Pool.mem_stepped_of_ne hj hne, hclear⟩
  settled := by
    intro hp
    have hp₀ := not_pending_of_stepped hi hbumps hp
    have hset := hinv.settled hp₀
    refine ⟨fun catalog hc => ?_, ?_⟩
    · dsimp only at hc ⊢
      rw [htighter.buildCatalog_eq]
      rcases hcache catalog hc with hold | ⟨use, rfl⟩
      · exact hset.cache catalog hold
      · exact hset.readers _ (List.mem_of_getElem? hi) rfl catalog rfl
    · refine Pool.forall_mem_stepped (hup (hinv.coherent hp₀) hset) (fun u hu => nomatch hu)
        fun j u _ hj => ?_
      exact (hset.readers u (List.mem_of_getElem? hj)).of_tighter htighter hgen

theorem CacheInv.read_step (hinv : CacheInv s) {pc pc' : CatalogRead}
    (hi : s.threads[i]? = some (.read pc use)) (hspec : pc.StepSpec s.shared sh pc') :
    CacheInv ⟨sh, Pool.stepped s.threads i (.read pc' use) []⟩ := by
  have hmem : RegistryThread.read pc use ∈ s.threads := List.mem_of_getElem? hi
  refine hinv.cache_step hi hspec.entries hspec.catalogGeneration ?_ id ?_ ?_
  · intro catalog hc
    rcases hspec.catalogCache with h | ⟨result, hpc, h⟩
    · exact .inl (h ▸ hc)
    · rw [h] at hc
      cases hc
      exact .inr ⟨use, by rw [hpc]⟩
  · intro name entry _ h
    cases h
  · intro hcoh hset hg catalog ho
    rw [hspec.entries.buildCatalog_eq]
    rcases hspec.outcomes catalog ho with ho | ⟨rfl, hc⟩
    · rcases hspec.generation _ hg with hg | ⟨rfl, -⟩
      · rw [hspec.catalogGeneration] at hg
        exact hset.readers _ hmem hg catalog ho
      · exact rebuild_eq_of_coherent hcoh ho
    · exact hset.cache catalog hc

/-- A thread moves on without touching the entries or the cache. -/
theorem CacheInv.idle_step (hinv : CacheInv s) (hi : s.threads[i]? = some t)
    (hentries : sh.entries = s.shared.entries)
    (hgen : sh.catalogGeneration = s.shared.catalogGeneration)
    (hcache : sh.catalogCache = s.shared.catalogCache) (ht : t.bumps = false) (hup : t'.UpToDate sh) :
    CacheInv ⟨sh, Pool.stepped s.threads i t' []⟩ := by
  refine hinv.cache_step hi (hentries ▸ Tighter.rfl) hgen ?_ ?_ ?_ fun _ _ => hup
  · intro catalog hc
    exact .inl (hcache ▸ hc)
  · intro h
    rw [ht] at h
    cases h
  · intro name entry _ h
    rw [RegistryThread.bumps_of_clears h] at ht
    cases ht

theorem CacheInv.use_step (hinv : CacheInv s) {catalog : Catalog}
    (hi : s.threads[i]? = some (.read (.done catalog) use))
    (huse : useCatalog validateArguments s.shared catalog use = (sh, t')) :
    CacheInv ⟨sh, Pool.stepped s.threads i t' []⟩ := by
  obtain ⟨hentries, hcache, hgen, ht'⟩ := useCatalog_frame _ _ _ _ huse
  refine hinv.idle_step hi hentries hgen hcache rfl ?_
  rcases ht' with rfl | rfl | ⟨use', rfl⟩
  · trivial
  · trivial
  · exact fun h => nomatch h

/-! ## Steps of mutators -/

/-- **Edits.** They meet no build in progress, since they wait for the read lock. What was built and
not yet stored has to be right after the edit, unless a bump is still to come. -/
theorem CacheInv.edit_step (hinv : CacheInv s) {p p' : List (RegistryOp A)}
    (hi : s.threads[i]? = some (.mutate p)) (hread : s.threads.any (·.holdsRead) = false)
    (hbumps : bumps p = true → bumps p' = true) (hcoh : ∀ name entry, entries.lookup name = some entry →
      entry.Coherent ∨ clears name p' = true ∨
        (∃ entry₀, s.shared.entries.lookup name = some entry₀ ∧
          (entry₀.Coherent → entry.Coherent)) ∧ (clears name p = true → clears name p' = true))
    (hbuild : Pending (Pool.stepped s.threads i (.mutate p') []) ∨
      buildCatalog listedByAdapter entries = buildCatalog listedByAdapter s.shared.entries ∨
      s.shared.catalogCache = none ∧
        ∀ result use, .read (.store s.shared.catalogGeneration result) use ∉ s.threads) :
    CacheInv ⟨{ s.shared with entries := entries },
      Pool.stepped s.threads i (.mutate p') []⟩ := by
  have htool : ∀ name entry, entries.lookup name = some entry →
      entry.Coherent ∨ ∃ t ∈ Pool.stepped s.threads i (.mutate p') [], t.clears name = true := by
    intro name entry hl
    have hself : RegistryThread.mutate p' ∈ Pool.stepped s.threads i (.mutate p') [] :=
      Pool.mem_stepped_self hi
    rcases hcoh name entry hl with h | h | ⟨⟨entry₀, hentry₀, himp⟩, hkeep⟩
    · exact .inl h
    · exact .inr ⟨_, hself, h⟩
    · rcases hinv.toolCaches name entry₀ hentry₀ with h | h
      · exact .inl (himp h)
      · exact .inr (Pool.exists_stepped hi hkeep h)
  refine ⟨htool, ?_⟩
  · intro hp
    have hp₀ : ¬ Pending s.threads :=
      fun h => hp (Pool.exists_stepped hi (show (RegistryThread.mutate p).bumps = true → _ from hbumps) h)
    have hset := hinv.settled hp₀
    have hcoherent : CoherentEntries entries := by
      intro name entry hl
      rcases htool name entry hl with h | ⟨t, ht, hclears⟩
      · exact h
      · exact absurd ⟨t, ht, RegistryThread.bumps_of_clears hclears⟩ hp
    have hbuild := hbuild.resolve_left hp
    refine ⟨fun catalog hc => ?_, ?_⟩
    · rcases hbuild with heq | ⟨hnone, -⟩
      · exact (hset.cache catalog hc).trans heq.symm
      · dsimp only at hc
        rw [hnone] at hc
        cases hc
    · refine Pool.forall_mem_stepped trivial (fun u hu => nomatch hu) fun j u _ hj => ?_
      have hmem := List.mem_of_getElem? hj
      cases u with
      | mutate q => trivial
      | calling => trivial
      | read pc use =>
        intro hg catalog ho
        have hnot : pc.holdsRead = false := List.any_eq_false.1 hread _ hmem
          |> eq_false_of_ne_true
        cases pc with
        | start => cases hg
        | refresh => cases hg
        | done result => cases hg
        | visit b => cases hnot
        | parked b => cases hnot
        | listing b epochBefore => cases hnot
        | lock generationBefore => exact rebuild_eq_of_coherent hcoherent ho
        | store generationBefore result =>
          rcases hbuild with heq | ⟨-, hnone⟩
          · exact (hset.readers _ hmem hg catalog ho).trans heq.symm
          · cases hg
            exact absurd hmem (hnone result use)

omit [McpAdapter A] in
theorem erase_of_notMem (h : name ∉ entries) : entries.erase name = entries := by
  apply AList.ext
  exact List.kerase_of_notMem_keys h

theorem CacheInv.mutate_step (hinv : CacheInv s) (hsound : ∀ t ∈ s.threads, t.Sound s.shared)
    {rest rest' : List (RegistryOp A)} (hok : EditsGuarded s (.run i fresh))
    (hi : s.threads[i]? = some (.mutate (op :: rest)))
    (hstep : op.step s.shared (s.threads.any (·.holdsRead)) rest = some (sh, rest')) :
    CacheInv ⟨sh, Pool.stepped s.threads i (.mutate rest') []⟩ := by
  have hann : Announced (op :: rest) := hsound _ (List.mem_of_getElem? hi)
  have hself {q : List (RegistryOp A)} :
      RegistryThread.mutate q ∈ Pool.stepped s.threads i (.mutate q) [] := Pool.mem_stepped_self hi
  cases op with
  | insert r =>
    rw [RegistryOp.step] at hstep
    split at hstep
    · cases hstep
    · next hread =>
      cases hstep
      refine hinv.edit_step hi (eq_false_of_ne_true hread) id ?_ (.inl ⟨_, hself, hann.1⟩)
      intro name entry hl
      rcases AList.lookup_insert_cases hl with ⟨-, rfl⟩ | ⟨-, hl⟩
      · exact .inl (RegisteredAdapter.cachedListTools_of_none rfl)
      · exact .inr (.inr ⟨⟨entry, hl, id⟩, id⟩)
  | erase name =>
    rw [RegistryOp.step] at hstep
    split at hstep
    · cases hstep
    · next hread =>
      by_cases hmem : name ∈ s.shared.entries
      · rw [if_pos hmem] at hstep
        cases hstep
        refine hinv.edit_step hi (eq_false_of_ne_true hread) (fun _ => rfl) ?_
          (.inl ⟨_, hself, rfl⟩)
        intro name' entry hl
        rcases eq_or_ne name' name with rfl | hne
        · rw [AList.lookup_erase] at hl
          cases hl
        · rw [AList.lookup_erase_ne hne] at hl
          exact .inr (.inl rfl)
      · rw [if_neg hmem] at hstep
        cases hstep
        rw [erase_of_notMem hmem]
        refine hinv.edit_step hi (eq_false_of_ne_true hread) id ?_ (.inr (.inl rfl))
        intro name' entry hl
        exact .inr (.inr ⟨⟨entry, hl, id⟩, id⟩)
  | setFlags name disabled disabledTools =>
    rw [RegistryOp.step] at hstep
    split at hstep
    · cases hstep
    · next hread =>
      cases hstep
      refine hinv.edit_step hi (eq_false_of_ne_true hread) id ?_ (hok _ _ _ _ hi)
      intro name' entry hl
      rw [AList.lookup_modify] at hl
      split at hl
      · obtain ⟨entry₀, hentry₀, rfl⟩ := Option.map_eq_some_iff.1 hl
        exact .inr (.inr ⟨⟨entry₀, hentry₀, id⟩, id⟩)
      · exact .inr (.inr ⟨⟨entry, hl, id⟩, id⟩)
  | install name adapter =>
    rw [RegistryOp.step] at hstep
    split at hstep
    · cases hstep
    · next hread =>
      cases hstep
      refine hinv.edit_step hi (eq_false_of_ne_true hread) id ?_
        (.inl ⟨_, hself, bumps_of_clears hann.1⟩)
      intro name' entry hl
      rcases eq_or_ne name' name with rfl | hne
      · exact .inr (.inl hann.1)
      · rw [AList.lookup_modify_ne hne] at hl
        exact .inr (.inr ⟨⟨entry, hl, id⟩, id⟩)
  | sweepAll =>
    cases hstep
    refine hinv.cache_step hi .rfl rfl (fun _ h => .inl h) id ?_ fun _ _ => trivial
    intro name entry hl hclears
    right
    have hkey : name ∈ s.shared.entries.keys := by
      rw [← AList.mem_keys, ← AList.lookup_isSome, hl]
      rfl
    simp only [RegistryThread.clears, clears, Bool.or_eq_true, Bool.and_eq_true,
      decide_eq_true_eq] at hclears ⊢
    exact hclears.imp_left fun h => ⟨hkey, h⟩
  | sweep todo =>
    cases todo with
    | nil =>
      cases hstep
      refine hinv.cache_step hi .rfl rfl (fun _ h => .inl h) id ?_ fun _ _ => trivial
      intro name entry hl hclears
      right
      simpa [RegistryThread.clears, clears] using hclears
    | cons name todo =>
      cases hstep
      refine hinv.cache_step hi (tighter_invalidate name _) rfl (fun _ h => .inl h) id ?_
        fun _ _ => trivial
      intro name' entry hl hclears
      rcases eq_or_ne name' name with rfl | hne
      · rw [AList.lookup_modify_self] at hl
        obtain ⟨entry₀, -, rfl⟩ := Option.map_eq_some_iff.1 hl
        exact .inl (RegisteredAdapter.cachedListTools_of_none rfl)
      · right
        simpa [RegistryThread.clears, clears, hne] using hclears
  | clearToolCache name =>
    cases hstep
    refine hinv.cache_step hi (tighter_invalidate name _) rfl (fun _ h => .inl h) id ?_
      fun _ _ => trivial
    intro name' entry hl hclears
    rcases eq_or_ne name' name with rfl | hne
    · rw [AList.lookup_modify_self] at hl
      obtain ⟨entry₀, -, rfl⟩ := Option.map_eq_some_iff.1 hl
      exact .inl (RegisteredAdapter.cachedListTools_of_none rfl)
    · right
      simpa [RegistryThread.clears, clears, hne.symm] using hclears
  | bump =>
    cases hstep
    have hsound' : ∀ u ∈ Pool.stepped s.threads i (.mutate rest) [], u.Sound s.shared := by
      refine Pool.forall_mem_stepped hann (fun u hu => nomatch hu) fun j u _ hj => ?_
      exact hsound u (List.mem_of_getElem? hj)
    refine ⟨?_, ?_⟩
    · intro name entry hl
      rcases hinv.toolCaches name entry hl with h | h
      · exact .inl h
      · exact .inr (Pool.exists_stepped hi id h)
    · -- every reader noted a generation below the new one
      intro _
      refine ⟨fun _ h => (nomatch h), fun u hu => ?_⟩
      cases u with
      | mutate q => trivial
      | calling => trivial
      | read pc use =>
        intro hg
        have hle := hsound' _ hu _ hg
        exact absurd hle (Nat.not_succ_le_self _)

end Step

/-! ## Runs -/

theorem RegistryOperation.thread_upToDate (sh : SharedRegistry A) (op : RegistryOperation A) :
    op.thread.UpToDate sh := by
  cases op with
  | mergedCatalogWithLookup => exact fun h => nomatch h
  | refreshCatalog => exact fun h => nomatch h
  | profileRouteToolCall call => exact fun h => nomatch h
  | _ => trivial

theorem cacheInv_run (h : (registryPool validateArguments).system.ReachableWhile EditsGuarded s) :
    CacheInv s := by
  refine Pool.invariant_of (fun s hs => sound_run hs) ?_ ?_ ?_ h
  · intro sh hsh
    cases hsh
    exact ⟨fun name entry hl => (nomatch hl), fun _ => ⟨fun _ h => (nomatch h), fun t ht => (nomatch ht)⟩⟩
  · intro s op t _ hinv _ ht
    cases ht
    refine ⟨?_, ?_⟩
    · intro name entry hl
      refine (hinv.toolCaches name entry hl).imp_right ?_
      rintro ⟨u, hu, hclears⟩
      exact ⟨u, List.mem_append_left _ hu, hclears⟩
    · intro hp
      have hset := hinv.settled fun ⟨u, hu, hb⟩ => hp ⟨u, List.mem_append_left _ hu, hb⟩
      refine ⟨hset.cache, fun u hu => ?_⟩
      rcases List.mem_append.1 hu with hu | hu
      · exact hset.readers u hu
      · rw [List.mem_singleton.1 hu]
        exact op.thread_upToDate s.shared
  · intro s i fresh t sh t' new hsound hinv hok hi hstep
    obtain ⟨hthread, rfl⟩ := registryPool_step hstep
    rcases RegistryThread.step_cases hthread with ⟨rfl, rfl, rfl⟩ | ⟨catalog, use, rfl, heq⟩ |
      ⟨pc, use, pc', rfl, rfl, hspec⟩ | ⟨op, rest, rest', rfl, rfl, hop⟩
    · exact hinv.idle_step hi rfl rfl rfl rfl trivial
    · exact hinv.use_step hi heq
    · exact hinv.read_step hi hspec
    · exact hinv.mutate_step hsound hok hi hop

/-- **The catalog cache is right at quiescence**, in every run whose edits of flags are guarded: a
populated cache is what `build_catalog` returns, whichever tool caches it takes. -/
theorem catalog_fresh_at_quiescence {s : RegistryState A}
    (h : (registryPool validateArguments).system.ReachableWhile EditsGuarded s) (hq : Quiescent s)
    {catalog : Catalog} (hc : s.shared.catalogCache = some catalog) (fresh : String → Bool) :
    catalog = buildCatalog (fun name entry => entry.cachedListTools (fresh name))
      s.shared.entries := by
  have hinv := cacheInv_run h
  have hp : ¬ Pending s.threads := by
    rintro ⟨t, ht, hb⟩
    rw [hq t ht] at hb
    cases hb
  rw [buildCatalog_cached_of_coherent (hinv.coherent hp)]
  exact (hinv.settled hp).cache catalog hc

/-! ## A run that leaves a stale catalog -/

def goodRegistration : Registration FixedAdapter :=
  ⟨"good", { tools := .ok [bareTool "search"] }, "http", none, some "good"⟩

def failedRegistration : Registration FixedAdapter :=
  ⟨"bad", { health := .unhealthy "no url", tools := .error (.connectionFailed "no url") }, "http",
    none, some "bad"⟩

/-- Thread `i` takes `n` steps. -/
def runSteps (i n : Nat) : List (RegistryAction FixedAdapter) := List.replicate n (.run i true)

/-- `good` is registered. The config of the disabled endpoint `bad` then gets a warning: `bad` is
registered anew (its first six steps), the catalog is read, and only then `disabled` is set. -/
def staleRun : List (RegistryAction FixedAdapter) :=
  .launch (.register goodRegistration) :: runSteps 0 5 ++
  .launch (.watcherFailed failedRegistration true []) :: runSteps 1 6 ++
  .launch .mergedCatalogWithLookup :: runSteps 2 12 ++ runSteps 1 1

/-- A run from the empty registry. -/
def afterRun (actions : List (RegistryAction FixedAdapter)) : Option (RegistryState FixedAdapter) :=
  (registryPool none).system.run ⟨.new, []⟩ actions

def staleState : RegistryState FixedAdapter := (afterRun staleRun).getD ⟨.new, []⟩

theorem afterRun_staleRun : afterRun staleRun = some staleState := rfl

theorem staleState_coherent : CoherentEntries staleState.shared.entries := by
  have hall : ∀ e ∈ staleState.shared.entries.entries, e.2.Coherent :=
    List.forall_mem_cons.2 ⟨fun fresh => by cases fresh <;> rfl,
      List.forall_mem_cons.2 ⟨fun fresh => by cases fresh <;> rfl, fun _ h => (nomatch h)⟩⟩
  intro name entry hl
  exact hall ⟨name, entry⟩ (AList.mem_entries_iff.2 hl)

/-- With `bad` enabled for a moment the tool of `good` was prefixed. It still is in the cache once
every operation has finished, though `bad` is disabled. -/
theorem failed_endpoint_leaves_stale_catalog :
    ∃ s : RegistryState FixedAdapter, (registryPool none).system.Reachable s ∧ Quiescent s ∧
      ∃ catalog, s.shared.catalogCache = some catalog ∧
        catalog.tools.map (·.name) = ["good__search"] ∧
        ∀ fresh : String → Bool, (buildCatalog
          (fun name entry => entry.cachedListTools (fresh name)) s.shared.entries).tools.map (·.name) =
            ["search"] := by
  have hinit : (registryPool none).system.init (⟨.new, []⟩ : RegistryState FixedAdapter) := ⟨rfl, rfl⟩
  have hreach : (registryPool none).system.Reachable staleState :=
    (System.Reachable.init hinit).run afterRun_staleRun
  have hthreads : staleState.threads = [.finished, .finished, .finished] := rfl
  refine ⟨staleState, hreach, ?_, _, rfl, rfl, fun fresh => ?_⟩
  · intro t ht
    rw [hthreads] at ht
    simpa using ht
  · rw [buildCatalog_cached_of_coherent staleState_coherent]
    rfl

def freshRun : List (RegistryAction FixedAdapter) :=
  .launch (.register goodRegistration) :: runSteps 0 5 ++
  .launch (.watcherFailed failedRegistration true []) :: runSteps 1 7 ++
  .launch .mergedCatalogWithLookup :: runSteps 2 10

/-- A check of the guard: flags are set only when there is no cached catalog and none waits to be
stored. -/
def flagsSetOnEmptyCache (s : RegistryState FixedAdapter) : RegistryAction FixedAdapter → Bool
  | .launch _ => true
  | .run i _ =>
    match s.threads[i]? with
    | some (.mutate (.setFlags _ _ _ :: _)) => s.shared.catalogCache.isNone &&
        s.threads.all fun t => match t with
          | .read (.store _ _) _ => false
          | _ => true
    | _ => true

theorem editsGuarded_of_check (s : RegistryState FixedAdapter) (a : RegistryAction FixedAdapter)
    (h : flagsSetOnEmptyCache s a = true) : EditsGuarded s a := by
  cases a with
  | launch op => trivial
  | run i fresh =>
    intro name disabled disabledTools rest hi
    rw [flagsSetOnEmptyCache, hi] at h
    obtain ⟨hnone, hstore⟩ := Bool.and_eq_true_iff.1 h
    refine .inr (.inr ⟨Option.isNone_iff_eq_none.1 hnone, fun result use hmem => ?_⟩)
    exact absurd (List.all_eq_true.1 hstore _ hmem) Bool.false_ne_true

def freshState : RegistryState FixedAdapter :=
  ((registryPool none).system.runWhile flagsSetOnEmptyCache ⟨.new, []⟩ freshRun).getD ⟨.new, []⟩

/-- Setting the flags before the read stores its catalog is harmless: the cache is right. -/
theorem read_after_edit_is_fresh :
    (freshState.shared.catalogCache.map fun catalog => catalog.tools.map (·.name)) =
        some ["search"] ∧
      ∀ catalog, freshState.shared.catalogCache = some catalog →
        catalog = buildCatalog (fun _ entry => entry.cachedListTools true)
          freshState.shared.entries := by
  have hinit : (registryPool none).system.init (⟨.new, []⟩ : RegistryState FixedAdapter) := ⟨rfl, rfl⟩
  have hrun : (registryPool none).system.runWhile flagsSetOnEmptyCache ⟨.new, []⟩ freshRun =
      some freshState := rfl
  have hthreads : freshState.threads = [.finished, .finished, .finished] := rfl
  refine ⟨rfl, fun catalog hc => ?_⟩
  refine catalog_fresh_at_quiescence
    ((System.ReachableWhile.init hinit).run editsGuarded_of_check hrun) ?_ hc fun _ => true
  intro t ht
  rw [hthreads] at ht
  simpa using ht

end EndaraRelay
