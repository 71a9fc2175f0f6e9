import EndaraRelay.CatalogServed

/-!
# Tool calls through a profile

`ProfileRegistryView::route_tool_call` looks the name up in the merged catalog, rejects the call when
the endpoint found there is not allowed, and then hands the name to the registry, which looks it up
again. The two lookups may see different catalogs: with `a` alone active its tool is called
`search`; once another endpoint is registered and `a` is disabled, `search` is the tool of the
other one. A call of the profile `{a}` that passed its check before and is resolved again after
reaches the other endpoint (`call_leaves_the_profile`).

**When calls stay in the profile.** The condition `OwnerStable` is about the steps around a call.
When a check passes, every catalog the registry may still serve (the cached one, those of builds of
the current generation, a rebuild) gives the name to an endpoint of the profile, if to any
(`Serves`). Until the registry has its own catalog no edit of the entries gives the name to an
endpoint outside. In every run whose steps all meet it, every call that reaches an adapter reaches
one of the profile (`profile_calls_contained`).
-/

namespace EndaraRelay

open Verif

variable {A : Type} [McpAdapter A]

/-- The catalog gives the called name to an endpoint of the profile, if to any. -/
def Contains (call : ProfileCall) (catalog : Catalog) : Prop :=
  ∀ endpoint tool, catalog.lookup.lookup call.prefixedName = some (endpoint, tool) →
    endpoint ∈ call.allowedEndpoints

/-- The membership check of the profile passes on this catalog. -/
def CheckPasses (call : ProfileCall) (catalog : Catalog) : Prop :=
  ∃ endpoint tool, catalog.lookup.lookup call.prefixedName = some (endpoint, tool) ∧
    endpoint ∈ call.allowedEndpoints

/-- Every catalog the registry may serve gives the called name to an endpoint of the profile, if to
any. -/
structure Serves (call : ProfileCall) (sh : SharedRegistry A) (ts : List (RegistryThread A)) :
    Prop where
  cache : ∀ catalog, sh.catalogCache = some catalog → Contains call catalog
  readers : ∀ pc use, .read pc use ∈ ts → pc.generation = some sh.catalogGeneration →
    ∀ catalog, pc.Outcomes sh.entries catalog → Contains call catalog
  rebuild : ∀ catalog, Rebuild sh.entries catalog → Contains call catalog

variable {call : ProfileCall} {sh : SharedRegistry A} {ts : List (RegistryThread A)}
  {validateArguments : Option (String → Json → Json → Option Json)} {fresh skip : Bool}
  {Q : String → Prop} {acc catalog : Catalog}

theorem serves_iff : Serves call sh ts ↔ Served (Contains call) sh ts :=
  ⟨fun h => ⟨h.cache, h.readers, h.rebuild⟩, fun h => ⟨h.cache, h.readers, h.rebuild⟩⟩

/-- When a check passes the registry serves the profile, and no edit takes the name out of the
profile before the registry has resolved it. -/
def OwnerStable (s : RegistryState A) : RegistryAction A → Prop
  | .launch _ => True
  | .run i _ =>
    (∀ catalog call, s.threads[i]? = some (.read (.done catalog) (.check call)) →
      CheckPasses call catalog → Serves call s.shared s.threads) ∧
    (∀ op rest sh rest', s.threads[i]? = some (.mutate (op :: rest)) → op.edits = true →
      op.step s.shared (s.threads.any (·.holdsRead)) rest = some (sh, rest') →
      ∀ pc call, .read pc (.dispatch call) ∈ s.threads → pc.resolved = false →
        ∀ catalog, Rebuild sh.entries catalog → Contains call catalog)

/-! ## The invariant -/

/-- A call that passed its check is served until it has a catalog, and ends in the profile. -/
def RegistryThread.Contained (sh : SharedRegistry A) (ts : List (RegistryThread A)) :
    RegistryThread A → Prop
  | .read pc (.dispatch call) => (pc.resolved = false → Serves call sh ts) ∧
      ∀ catalog, pc.Outcomes sh.entries catalog → Contains call catalog
  | _ => True

structure ProfileInv (s : RegistryState A) : Prop where
  threads : ∀ t ∈ s.threads, t.Contained s.shared s.threads
  routed : ∀ call endpoint, (call, endpoint) ∈ s.shared.routed → endpoint ∈ call.allowedEndpoints

/-- A newly launched thread has noted no generation, so the registry serves what it served. -/
theorem RegistryThread.Contained.of_launch {t u : RegistryThread A}
    (ht : ∀ pc use, t = .read pc use → pc.generation = none) (hu : u.Contained sh ts) :
    u.Contained sh (ts ++ [t]) := by
  cases u with
  | calling => trivial
  | mutate p => trivial
  | read pc use =>
    cases use with
    | plain => trivial
    | check call => trivial
    | dispatch call =>
      exact ⟨fun hres => serves_iff.2 ((serves_iff.1 (hu.1 hres)).of_launch ht), hu.2⟩

section Step

variable {s : RegistryState A} {i : Nat} {t t' : RegistryThread A} {sh : SharedRegistry A}
  {call : ProfileCall}

/-- **The registry goes on serving a profile**: only an edit can take the name out of it. -/
theorem Serves.step {validateArguments : Option (String → Json → Json → Option Json)} {fresh : Bool}
    (h : Serves call s.shared s.threads) (hsound : ∀ u ∈ s.threads, u.Sound s.shared)
    (hi : s.threads[i]? = some t)
    (hstep : t.step validateArguments s.shared s.threads fresh = some (sh, t'))
    (hedit : ∀ op rest rest', t = .mutate (op :: rest) → op.edits = true →
      op.step s.shared (s.threads.any (·.holdsRead)) rest = some (sh, rest') →
      ∀ catalog, Rebuild sh.entries catalog → Contains call catalog) :
    Serves call sh (Pool.stepped s.threads i t' []) :=
  serves_iff.2 ((serves_iff.1 h).step (fun _ _ hmem => hsound _ hmem) hi hstep hedit)

/-- A call that does not move stays contained. -/
theorem contained_of_other (hok : OwnerStable s (.run i fresh))
    (hsound : ∀ u ∈ s.threads, u.Sound s.shared) (hi : s.threads[i]? = some t)
    (hstep : t.step validateArguments s.shared s.threads fresh = some (sh, t')) {u : RegistryThread A}
    (hmem : u ∈ s.threads) (hu : u.Contained s.shared s.threads) :
    u.Contained sh (Pool.stepped s.threads i t' []) := by
  cases u with
  | calling => trivial
  | mutate p => trivial
  | read pc use =>
    cases use with
    | plain => trivial
    | check call => trivial
    | dispatch call =>
      obtain ⟨hserves, hout⟩ := hu
      refine ⟨fun hres => (hserves hres).step hsound hi hstep ?_, ?_⟩
      · rintro op rest rest' rfl hedits hop catalog hr
        exact hok.2 op rest sh rest' hi hedits hop pc call hmem hres catalog hr
      · intro catalog ho
        rcases RegistryThread.step_cases hstep with ⟨rfl, rfl, rfl⟩ | ⟨c, use, rfl, heq⟩ |
          ⟨pc₁, use, pc', rfl, rfl, hspec⟩ | ⟨op, rest, rest', rfl, rfl, hop⟩
        · exact hout catalog ho
        · obtain ⟨hentries, -, -, -⟩ := useCatalog_frame _ _ _ _ heq
          rw [hentries] at ho
          exact hout catalog ho
        · exact hout catalog (CatalogRead.Outcomes.of_tighter hspec.entries ho)
        · obtain ⟨-, ⟨hedits, hread, -, -⟩ | ⟨htighter, -⟩⟩ := RegistryOp.step_spec hop
          · have hnot : pc.holdsRead = false :=
              eq_false_of_ne_true (List.any_eq_false.1 hread _ hmem)
            rcases outcomes_of_edit hnot ho with ⟨hres, hr⟩ | ⟨-, ho⟩
            · exact hok.2 op rest sh rest' hi hedits hop pc call hmem hres catalog hr
            · exact hout catalog ho
          · exact hout catalog (CatalogRead.Outcomes.of_tighter htighter ho)

/-- A call that moves stays contained: its check passes on a registry that serves the profile, or
its reader goes on. -/
theorem contained_of_moved (hok : OwnerStable s (.run i fresh))
    (hsound : ∀ u ∈ s.threads, u.Sound s.shared) (hi : s.threads[i]? = some t)
    (hstep : t.step validateArguments s.shared s.threads fresh = some (sh, t'))
    (ht : t.Contained s.shared s.threads) : t'.Contained sh (Pool.stepped s.threads i t' []) := by
  have hnext {call : ProfileCall} (h : Serves call s.shared s.threads)
      (hread : ∃ pc use, t = .read pc use) : Serves call sh (Pool.stepped s.threads i t' []) := by
    refine h.step hsound hi hstep fun op rest rest' heq => ?_
    obtain ⟨pc, use, rfl⟩ := hread
    cases heq
  rcases RegistryThread.step_cases hstep with ⟨rfl, rfl, rfl⟩ | ⟨catalog, use, rfl, heq⟩ |
    ⟨pc, use, pc', rfl, rfl, hspec⟩ | ⟨op, rest, rest', rfl, rfl, hop⟩
  · trivial
  · cases use with
    | plain =>
      cases heq
      trivial
    | check call =>
      rw [useCatalog] at heq
      split at heq
      · cases heq
        trivial
      · next endpoint tool hlookup =>
        split at heq
        · next hallowed =>
          cases heq
          have hserves := hnext (hok.1 catalog call hi ⟨endpoint, tool, hlookup, hallowed⟩)
            ⟨_, _, rfl⟩
          exact ⟨fun _ => hserves, hserves.rebuild⟩
        · cases heq
          trivial
    | dispatch call =>
      obtain ⟨-, -, -, rfl | rfl | ⟨use', rfl⟩⟩ := useCatalog_frame _ _ _ _ heq
      · trivial
      · trivial
      · rw [useCatalog] at heq
        split at heq
        · cases heq
        · cases heq
  · cases use with
    | plain => trivial
    | check call => trivial
    | dispatch call =>
      obtain ⟨hserves, hout⟩ := ht
      refine ⟨fun hres => hnext (hserves ?_) ⟨_, _, rfl⟩, fun catalog ho => ?_⟩
      · exact hspec.resolved hres
      · rcases hspec.outcomes catalog ho with ho | ⟨rfl, hc⟩
        · exact hout catalog ho
        · exact (hserves rfl).cache catalog hc
  · trivial

/-- A call that reaches an adapter found its endpoint in the catalog it ended with. -/
theorem routed_contained (hstep : t.step validateArguments s.shared s.threads fresh = some (sh, t'))
    (ht : t.Contained s.shared s.threads)
    (hrouted : ∀ call endpoint, (call, endpoint) ∈ s.shared.routed →
      endpoint ∈ call.allowedEndpoints) :
    ∀ call endpoint, (call, endpoint) ∈ sh.routed → endpoint ∈ call.allowedEndpoints := by
  rcases RegistryThread.step_cases hstep with ⟨rfl, rfl, rfl⟩ | ⟨catalog, use, rfl, heq⟩ |
    ⟨pc, use, pc', rfl, rfl, hspec⟩ | ⟨op, rest, rest', rfl, rfl, hop⟩
  · exact hrouted
  · cases use with
    | plain =>
      cases heq
      exact hrouted
    | check call =>
      rw [useCatalog] at heq
      split at heq
      · cases heq
        exact hrouted
      · split at heq
        · cases heq
          exact hrouted
        · cases heq
          exact hrouted
    | dispatch call =>
      rw [useCatalog] at heq
      split at heq
      · next endpoint adapter tool hcalled =>
        cases heq
        intro call' endpoint' hmem
        rcases List.mem_cons.1 hmem with hnew | hold
        · cases hnew
          exact ht.2 catalog rfl endpoint tool (routeDecision_eq_called.1 hcalled).1
        · exact hrouted call' endpoint' hold
      · cases heq
        exact hrouted
  · rw [hspec.routed]
    exact hrouted
  · rw [(RegistryOp.step_spec hop).1]
    exact hrouted

end Step

/-! ## Runs -/

variable {validateArguments : Option (String → Json → Json → Option Json)}

theorem profileInv_run {s : RegistryState A}
    (h : (registryPool validateArguments).system.ReachableWhile OwnerStable s) : ProfileInv s := by
  refine Pool.invariant_of (fun s hs => sound_run hs) ?_ ?_ ?_ h
  · intro sh hsh
    cases hsh
    exact ⟨fun t ht => (nomatch ht), fun call endpoint hmem => (nomatch hmem)⟩
  · intro s op t hsound hinv _ ht
    cases ht
    refine ⟨fun u hu => ?_, hinv.routed⟩
    rcases List.mem_append.1 hu with hu | hu
    · refine (hinv.threads u hu).of_launch fun pc use heq => ?_
      cases op <;> cases heq <;> rfl
    · rw [List.mem_singleton.1 hu]
      cases op <;> trivial
  · intro s i fresh t sh t' new hsound hinv hok hi hstep
    obtain ⟨hthread, rfl⟩ := registryPool_step hstep
    have ht := hinv.threads t (List.mem_of_getElem? hi)
    refine ⟨?_, routed_contained hthread ht hinv.routed⟩
    refine Pool.forall_mem_stepped (contained_of_moved hok hsound hi hthread ht)
      (fun u hu => nomatch hu) fun j u _ hj => ?_
    have hmem := List.mem_of_getElem? hj
    exact contained_of_other hok hsound hi hthread hmem (hinv.threads u hmem)

/-- **Containment of a profile's calls**, in every run where the owner of the called name is stable
around the calls: the adapter that receives `call_tool` belongs to an allowed endpoint. -/
theorem profile_calls_contained {s : RegistryState A}
    (h : (registryPool validateArguments).system.ReachableWhile OwnerStable s) {call : ProfileCall}
    {endpoint : String} (hrouted : (call, endpoint) ∈ s.shared.routed) :
    endpoint ∈ call.allowedEndpoints :=
  (profileInv_run h).routed call endpoint hrouted

/-! ## A call that leaves its profile -/

def searchCall : ProfileCall := ⟨["good"], "search", .obj []⟩

/-- Another endpoint, outside the profile, that lists a tool of the same name. -/
def otherRegistration : Registration FixedAdapter :=
  ⟨"other", { tools := .ok [bareTool "search"] }, "http", none, some "other"⟩

/-- `good` is alone when the check passes. Then `other` is registered and `good` disabled, and the
registry resolves the name again. -/
def escapeRun : List (RegistryAction FixedAdapter) :=
  .launch (.register goodRegistration) :: runSteps 0 5 ++
  .launch (.profileRouteToolCall searchCall) :: runSteps 1 9 ++
  .launch (.register otherRegistration) :: runSteps 2 6 ++
  .launch (.manageFlags "good" true []) :: runSteps 3 6 ++
  runSteps 1 11

def escapeState : RegistryState FixedAdapter := (afterRun escapeRun).getD ⟨.new, []⟩

theorem afterRun_escapeRun : afterRun escapeRun = some escapeState := rfl

/-- The call reaches `other`, which is not in its profile. -/
theorem call_leaves_the_profile :
    ∃ s : RegistryState FixedAdapter, (registryPool none).system.Reachable s ∧
      s.shared.routed = [(searchCall, "other")] ∧ "other" ∉ searchCall.allowedEndpoints := by
  have hinit : (registryPool none).system.init (⟨.new, []⟩ : RegistryState FixedAdapter) := ⟨rfl, rfl⟩
  exact ⟨escapeState, (System.Reachable.init hinit).run afterRun_escapeRun, rfl, by decide⟩

/-! ## Only endpoints of the profile are registered -/

/-- The endpoints a build finds are those it visits. -/
theorem addEndpoint_owner {name : String} {entry : RegisteredAdapter A}
    {listed : Except AdapterError (List ToolInfo)} (hname : Q name) (hacc : ∀ p ∈ acc.lookup, Q p.2.1) :
    ∀ p ∈ (addEndpoint skip name entry listed acc).lookup, Q p.2.1 := by
  unfold addEndpoint
  split
  · exact hacc
  · split
    · next tools =>
      induction tools generalizing acc with
      | nil => exact hacc
      | cons tool tools ih =>
        rw [List.foldl_cons]
        apply ih
        unfold addTool
        split
        · exact hacc
        · exact List.forall_mem_cons.2 ⟨hname, hacc⟩
    · exact hacc

theorem outcome_owner {entries : Entries A} {todo : List String} (hkeys : ∀ name ∈ todo, Q name)
    (hacc : ∀ p ∈ acc.lookup, Q p.2.1) (h : Outcome entries skip todo acc catalog) :
    ∀ p ∈ catalog.lookup, Q p.2.1 := by
  induction todo generalizing acc with
  | nil =>
    cases h
    exact hacc
  | cons name todo ih =>
    obtain ⟨fresh, h⟩ := h
    obtain ⟨hname, hkeys⟩ := List.forall_mem_cons.1 hkeys
    refine ih hkeys ?_ h
    unfold visitEntry
    split
    · exact hacc
    · exact addEndpoint_owner hname hacc

theorem contains_of_owners (h : ∀ p ∈ catalog.lookup, p.2.1 ∈ call.allowedEndpoints) :
    Contains call catalog := by
  intro endpoint tool hlookup
  obtain ⟨l₁, l₂, heq, -⟩ := List.lookup_eq_some_iff.1 hlookup
  apply h (call.prefixedName, endpoint, tool)
  rw [heq]
  exact List.mem_append_right _ List.mem_cons_self

/-- A check of the guard: checks pass while only endpoints of the profile are registered and nothing
is being built, and no entry is edited while a call is being resolved. -/
def onlyProfileRegistered (s : RegistryState FixedAdapter) : RegistryAction FixedAdapter → Bool
  | .launch _ => true
  | .run i _ =>
    match s.threads[i]? with
    | some (.read (.done _) (.check call)) =>
      s.shared.entries.keys.all (decide <| · ∈ call.allowedEndpoints) &&
        (match s.shared.catalogCache with
          | some catalog => catalog.lookup.all fun p => decide (p.2.1 ∈ call.allowedEndpoints)
          | none => true) &&
        s.threads.all fun t => match t with
          | .read pc _ => pc.generation.isNone
          | _ => true
    | some (.mutate (_ :: _)) => s.threads.all fun t => match t with
      | .read _ (.dispatch _) => false
      | _ => true
    | _ => true

theorem ownerStable_of_check (s : RegistryState FixedAdapter) (a : RegistryAction FixedAdapter)
    (h : onlyProfileRegistered s a = true) : OwnerStable s a := by
  cases a with
  | launch op => trivial
  | run i fresh =>
    refine ⟨fun catalog call hi _ => ?_, fun op rest sh rest' hi _ _ pc call hmem => ?_⟩
    · simp only [onlyProfileRegistered, hi, Bool.and_eq_true, List.all_eq_true] at h
      obtain ⟨⟨hkeys, hcache⟩, hreaders⟩ := h
      refine ⟨fun c hc => ?_, fun pc use hmem hg => ?_, fun c hr => ?_⟩
      · rw [hc] at hcache
        exact contains_of_owners fun p hp =>
          of_decide_eq_true (List.all_eq_true.1 hcache p hp)
      · have hnone : pc.generation.isNone = true := hreaders _ hmem
        rw [hg] at hnone
        cases hnone
      · exact contains_of_owners (outcome_owner (Q := (· ∈ call.allowedEndpoints))
          (fun name hname => of_decide_eq_true (hkeys name hname)) (fun p hp => absurd hp List.not_mem_nil) hr)
    · rw [onlyProfileRegistered, hi] at h
      exact absurd (List.all_eq_true.1 h _ hmem) Bool.false_ne_true

def containedRun : List (RegistryAction FixedAdapter) :=
  .launch (.register goodRegistration) :: runSteps 0 5 ++
  .launch (.profileRouteToolCall searchCall) :: runSteps 1 12

def containedState : RegistryState FixedAdapter :=
  ((registryPool none).system.runWhile onlyProfileRegistered ⟨.new, []⟩ containedRun).getD ⟨.new, []⟩

/-- The call reaches `good`, which is in its profile. -/
theorem call_stays_in_the_profile :
    containedState.shared.routed = [(searchCall, "good")] ∧
      ∀ endpoint, (searchCall, endpoint) ∈ containedState.shared.routed →
        endpoint ∈ searchCall.allowedEndpoints := by
  have hinit : (registryPool none).system.init (⟨.new, []⟩ : RegistryState FixedAdapter) := ⟨rfl, rfl⟩
  have hrun : (registryPool none).system.runWhile onlyProfileRegistered ⟨.new, []⟩ containedRun =
      some containedState := rfl
  exact ⟨rfl, fun endpoint hmem => profile_calls_contained
    ((System.ReachableWhile.init hinit).run ownerStable_of_check hrun) hmem⟩

end EndaraRelay
