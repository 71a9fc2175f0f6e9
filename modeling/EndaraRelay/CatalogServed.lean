import EndaraRelay.CatalogQuiescence

/-!
# The catalogs the registry may serve

Until the next edit, what a read of the catalog can come to see is the cached catalog, a catalog of a
build that noted the current generation, which may still be stored, and a catalog of a new build.
`Served P` says that all of these satisfy `P`.

No edit meets a build in progress, and outcomes of builds do not grow, so a step of any thread keeps
`Served P` as long as an edit keeps it for the builds to come (`Served.step`).
-/

namespace EndaraRelay

open Verif

variable {A : Type} [McpAdapter A]

/-- Every catalog the registry may serve satisfies `P`. -/
structure Served (P : Catalog → Prop) (sh : SharedRegistry A) (ts : List (RegistryThread A)) :
    Prop where
  cache : ∀ catalog, sh.catalogCache = some catalog → P catalog
  readers : ∀ pc use, .read pc use ∈ ts → pc.generation = some sh.catalogGeneration →
    ∀ catalog, pc.Outcomes sh.entries catalog → P catalog
  rebuild : ∀ catalog, Rebuild sh.entries catalog → P catalog

variable {P : Catalog → Prop}

/-- A newly launched thread has noted no generation, so the registry serves what it served. -/
theorem Served.of_launch {sh : SharedRegistry A} {ts : List (RegistryThread A)} {t : RegistryThread A}
    (h : Served P sh ts) (ht : ∀ pc use, t = .read pc use → pc.generation = none) :
    Served P sh (ts ++ [t]) := by
  refine ⟨h.cache, fun pc use hmem hg => ?_, h.rebuild⟩
  rcases List.mem_append.1 hmem with hmem | hmem
  · exact h.readers pc use hmem hg
  · rw [ht pc use (List.mem_singleton.1 hmem).symm] at hg
    cases hg

/-- Outcomes of a reader after an edit, which meets no build in progress. -/
theorem outcomes_of_edit {entries entries' : Entries A} {pc : CatalogRead}
    (hread : pc.holdsRead = false) {catalog : Catalog} (h : pc.Outcomes entries' catalog) :
    pc.resolved = false ∧ Rebuild entries' catalog ∨
      pc.resolved = true ∧ pc.Outcomes entries catalog := by
  cases pc with
  | start => exact .inl ⟨rfl, h⟩
  | refresh => exact .inl ⟨rfl, h⟩
  | lock generationBefore => exact .inl ⟨rfl, h⟩
  | visit b => cases hread
  | parked b => cases hread
  | listing b epochBefore => cases hread
  | store generationBefore result => exact .inr ⟨rfl, h⟩
  | done result => exact .inr ⟨rfl, h⟩

section Step

variable {s : RegistryState A} {i : Nat} {t t' : RegistryThread A} {sh : SharedRegistry A}

/-- What holds of the catalogs the registry may serve goes on holding when the entries change in their
tool caches only. -/
theorem Served.of_tighter (h : Served P s.shared s.threads)
    (htighter : Tighter sh.entries s.shared.entries)
    (hgen : sh.catalogGeneration = s.shared.catalogGeneration)
    (hcache : ∀ catalog, sh.catalogCache = some catalog → P catalog)
    (hself : ∀ pc use, t' = .read pc use → pc.generation = some s.shared.catalogGeneration →
      ∀ catalog, pc.Outcomes sh.entries catalog → P catalog) :
    Served P sh (Pool.stepped s.threads i t' []) where
  cache := hcache
  readers := by
    intro pc use hmem hg catalog ho
    rw [hgen] at hg
    rcases Pool.mem_stepped hmem with heq | hnew | ⟨j, -, hj⟩
    · exact hself pc use heq.symm hg catalog ho
    · cases hnew
    · exact h.readers pc use (List.mem_of_getElem? hj) hg catalog
        (CatalogRead.Outcomes.of_tighter htighter ho)
  rebuild catalog hr := h.rebuild catalog (Rebuild.of_tighter htighter hr)

theorem Served.read_step (h : Served P s.shared s.threads) {pc pc' : CatalogRead} {use : CatalogUse}
    (hi : s.threads[i]? = some (.read pc use)) (hspec : pc.StepSpec s.shared sh pc') :
    Served P sh (Pool.stepped s.threads i (.read pc' use) []) := by
  have hmem := List.mem_of_getElem? hi
  refine h.of_tighter hspec.entries hspec.catalogGeneration ?_ ?_
  · intro catalog hc
    rcases hspec.catalogCache with hsame | ⟨result, rfl, hstored⟩
    · exact h.cache catalog (hsame ▸ hc)
    · rw [hstored] at hc
      cases hc
      exact h.readers _ use hmem rfl catalog rfl
  · intro pc₁ use₁ heq hg catalog ho
    cases heq
    rcases hspec.outcomes catalog ho with ho | ⟨-, hc⟩
    · rcases hspec.generation _ hg with hg | ⟨rfl, -⟩
      · exact h.readers pc use hmem hg catalog ho
      · exact h.rebuild catalog ho
    · exact h.cache catalog hc

theorem Served.op_step (h : Served P s.shared s.threads)
    (hsound : ∀ pc use, .read pc use ∈ s.threads →
      ∀ g, pc.generation = some g → g ≤ s.shared.catalogGeneration)
    {op : RegistryOp A} {rest rest' : List (RegistryOp A)}
    (hop : op.step s.shared (s.threads.any (·.holdsRead)) rest = some (sh, rest'))
    (hedit : op.edits = true → ∀ catalog, Rebuild sh.entries catalog → P catalog) :
    Served P sh (Pool.stepped s.threads i (.mutate rest') []) := by
  obtain ⟨-, ⟨hedits, hread, hcache, hgen⟩ | ⟨htighter, ⟨hcache, hgen⟩ | ⟨hcache, hgen⟩⟩⟩ :=
    RegistryOp.step_spec hop
  · have hrebuild := hedit hedits
    refine ⟨fun c hc => h.cache c (hcache ▸ hc), ?_, hrebuild⟩
    intro pc use hmem' hg catalog ho
    rw [hgen] at hg
    rcases Pool.mem_stepped hmem' with heq | hnew | ⟨j, -, hj⟩
    · cases heq
    · cases hnew
    · have hmemj := List.mem_of_getElem? hj
      have hnot : pc.holdsRead = false :=
        eq_false_of_ne_true (List.any_eq_false.1 hread _ hmemj)
      rcases outcomes_of_edit hnot ho with ⟨-, hr⟩ | ⟨-, ho⟩
      · exact hrebuild catalog hr
      · exact h.readers pc use hmemj hg catalog ho
  · exact h.of_tighter htighter hgen (fun c hc => h.cache c (hcache ▸ hc)) fun _ _ heq => nomatch heq
  · -- after a bump no reader has noted the new generation
    refine ⟨fun c hc => ?_, ?_, fun c hr => h.rebuild c (Rebuild.of_tighter htighter hr)⟩
    · rw [hcache] at hc
      cases hc
    · intro pc use hmem' hg
      rcases Pool.mem_stepped hmem' with heq | hnew | ⟨j, -, hj⟩
      · cases heq
      · cases hnew
      · have hle : sh.catalogGeneration ≤ s.shared.catalogGeneration :=
          hsound pc use (List.mem_of_getElem? hj) _ hg
        omega

/-- **A step of a thread**: only an edit can make the registry serve another kind of catalog. -/
theorem Served.step {validateArguments : Option (String → Json → Json → Option Json)} {fresh : Bool}
    (h : Served P s.shared s.threads)
    (hsound : ∀ pc use, .read pc use ∈ s.threads →
      ∀ g, pc.generation = some g → g ≤ s.shared.catalogGeneration)
    (hi : s.threads[i]? = some t)
    (hstep : t.step validateArguments s.shared s.threads fresh = some (sh, t'))
    (hedit : ∀ op rest rest', t = .mutate (op :: rest) → op.edits = true →
      op.step s.shared (s.threads.any (·.holdsRead)) rest = some (sh, rest') →
      ∀ catalog, Rebuild sh.entries catalog → P catalog) :
    Served P sh (Pool.stepped s.threads i t' []) := by
  rcases RegistryThread.step_cases hstep with ⟨rfl, rfl, rfl⟩ | ⟨catalog, use, rfl, heq⟩ |
    ⟨pc, use, pc', rfl, rfl, hspec⟩ | ⟨op, rest, rest', rfl, rfl, hop⟩
  · exact h.of_tighter .rfl rfl h.cache fun _ _ heq => nomatch heq
  · obtain ⟨hentries, hcache, hgen, ht'⟩ := useCatalog_frame _ _ _ _ heq
    refine h.of_tighter (hentries ▸ Tighter.rfl) hgen (fun c hc => h.cache c (hcache ▸ hc)) ?_
    intro pc use' heq' hg
    rcases ht' with rfl | rfl | ⟨use', rfl⟩
    · cases heq'
    · cases heq'
    · cases heq'
      cases hg
  · exact h.read_step hi hspec
  · exact h.op_step hsound hop fun hedits => hedit op rest rest' rfl hedits hop

end Step

end EndaraRelay
