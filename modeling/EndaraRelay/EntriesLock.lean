import EndaraRelay.Lib.RwLock
import EndaraRelay.Lib.Transition
import Mathlib.Logic.Relation

/-!
# The lock around the registry entries

Every access to the registry is made under one read-write lock. A tool call keeps its read guard while the
upstream answers, so do catalog rebuilds and cache refreshes, and enabling or disabling an endpoint keeps the
write guard while its adapter starts or stops.

**The model.** A task is what a request or a background task does with the lock: under which guards, and
which upstreams it awaits under them and apart from them. What the registry has at the time decides some of
that, and is up to the environment. The lock is fair. Any number of tasks interleave at every `await`.

**The slips.** A read guard that is kept across an upstream call blocks the next writer and all who ask after
it; a write guard that is kept across one blocks everybody. A restart swaps in a placeholder and awaits the
adapters without a guard.

**Theorem (`never_blocked`).** In every run whose steps are `apart` no request for an endpoint waits for the
lock behind a task that waits for the upstream of another endpoint.
-/

namespace EndaraRelay

open Verif

/-! ## What tasks do with the lock -/

/-- What a task does under a guard. -/
inductive GuardedStep where
  /-- It awaits the adapter of an endpoint: a call, a listing, `initialize` or `shutdown`. -/
  | call (endpoint : String)
  /-- It takes the `tool_cache_populate_lock` of an entry. -/
  | populate (endpoint : String)
  | populated (endpoint : String)
deriving DecidableEq

inductive EntriesStage where
  | guarded (mode : LockMode) (steps : List GuardedStep)
  /-- The adapter of an endpoint is awaited without a guard. -/
  | unguarded (endpoint : String)
deriving DecidableEq

/-- What `cached_list_tools` comes upon: a cache that is fresh, one that somebody else fills meanwhile, or
neither. -/
inductive CacheLookup where
  | fresh
  | filled
  | stale
deriving DecidableEq

namespace Guards

def cachedListTools (endpoint : String) : CacheLookup → List GuardedStep
  | .fresh => []
  | .filled => [.populate endpoint, .populated endpoint]
  | .stale => [.populate endpoint, .call endpoint, .populated endpoint]

/-- `build_catalog`, of the endpoints that are enabled. -/
def buildCatalog (lookups : List (String × CacheLookup)) : EntriesStage :=
  .guarded .read (lookups.flatMap fun l => cachedListTools l.1 l.2)

/-- `merged_catalog_with_lookup`, which rebuilds a catalog that is not cached. -/
def mergedCatalog (rebuilt : Option (List (String × CacheLookup))) : List EntriesStage :=
  (rebuilt.map buildCatalog).toList

def invalidateCatalogCache : List EntriesStage := [.guarded .read []]

def invalidateEndpointToolCache : List EntriesStage := [.guarded .read []]

def persistDisabledState : List EntriesStage := [.guarded .read []]

def rewireToolsChangedListener (found : Bool) : List EntriesStage :=
  .guarded .read [] :: if found then [.guarded .write []] else []

/-- `registry.register`. -/
def register : List EntriesStage := .guarded .write [] :: invalidateCatalogCache

/-- `registry.remove`, and the shutdown of the adapter that was there. -/
def remove (name : String) (found : Bool) : List EntriesStage :=
  .guarded .write [] :: if found then invalidateCatalogCache ++ [.unguarded name] else []

end Guards

/-- What a reload does to an endpoint. -/
inductive EntryChange where
  | remove (name : String) (found : Bool)
  | change (name : String) (found : Bool)
  /-- Whether some tool or all of the endpoint is disabled. -/
  | add (name : String) (disabled : Bool)

def EntryChange.stages : EntryChange → List EntriesStage
  | .remove name found => Guards.remove name found
  | .change name found => .guarded .read [] :: Guards.remove name found ++ Guards.register ++ [.guarded .write []]
  | .add _ disabled => Guards.register ++ if disabled then [.guarded .write []] else []

/-! ## The operations -/

inductive EntriesOp where
  /-- A tool call, and whether it gets as far as to the adapter. -/
  | toolCall (endpoint : String) (rebuilt : Option (List (String × CacheLookup))) (dispatched : Bool)
  | readResource (endpoint : String) (dispatched : Bool)
  | getPrompt (endpoint : String) (listed : List String) (dispatched : Bool)
  /-- A cache refresh. -/
  | refresh (endpoint : String) (found : Option CacheLookup)
  | endpointTools (endpoint : String) (found : Option CacheLookup)
  | disable (endpoint : String) (found succeeds : Bool)
  | enable (endpoint : String) (found : Bool)
  /-- A tool is enabled or disabled. -/
  | setTool (endpoint : String) (found : Bool)
  | restart (endpoint : String) (found : Bool)
  /-- The task that a restart spawns. -/
  | rebuild (endpoint : String) (found : Bool)
  /-- A reload, which may come of a request for an endpoint. -/
  | reload (subject : Option String) (changes : List EntryChange)
  /-- The task that a reload or a start spawns for a new adapter. -/
  | install (endpoint : String) (disabled found : Bool)
  | listTools (rebuilt : Option (List (String × CacheLookup)))
  /-- A listing of resources, resource templates or prompts. -/
  | listAll (endpoints : List String)
  | getEndpoints (lookups : List (String × CacheLookup))
  /-- A look at the entries, for an endpoint or for none. -/
  | look (subject : Option String)
  /-- An upstream says that its tools have changed. -/
  | toolsChanged

namespace EntriesOp

def subject : EntriesOp → Option String
  | .toolCall endpoint .. | .readResource endpoint .. | .getPrompt endpoint .. | .refresh endpoint ..
  | .endpointTools endpoint .. | .disable endpoint .. | .enable endpoint .. | .setTool endpoint ..
  | .restart endpoint .. => some endpoint
  | .reload subject _ | .look subject => subject
  | .rebuild .. | .install .. | .listTools _ | .listAll _ | .getEndpoints _ | .toolsChanged => none

def stages : EntriesOp → List EntriesStage
  | .toolCall endpoint rebuilt dispatched =>
    Guards.mergedCatalog rebuilt ++ [.guarded .read (if dispatched then [.call endpoint] else [])]
  | .readResource endpoint dispatched =>
    [.guarded .read [], .guarded .read (if dispatched then [.call endpoint] else [])]
  | .getPrompt endpoint listed dispatched =>
    [.guarded .read (listed.map .call), .guarded .read [],
      .guarded .read (if dispatched then [.call endpoint] else [])]
  | .refresh endpoint found =>
    Guards.invalidateEndpointToolCache ++ [.guarded .read ((found.map (Guards.cachedListTools endpoint)).getD [])]
  | .endpointTools endpoint found => [.guarded .read ((found.map (Guards.cachedListTools endpoint)).getD [])]
  | .disable endpoint found succeeds =>
    .guarded .write (if found then [.call endpoint] else []) ::
      if found && succeeds then Guards.invalidateCatalogCache ++ Guards.persistDisabledState else []
  | .enable endpoint found =>
    .guarded .write (if found then [.call endpoint] else []) ::
      if found then Guards.invalidateCatalogCache ++ Guards.persistDisabledState else []
  | .setTool _ found =>
    .guarded .write [] :: if found then Guards.invalidateCatalogCache ++ Guards.persistDisabledState else []
  | .restart _ found => .guarded .write [] :: if found then Guards.invalidateCatalogCache else []
  | .rebuild endpoint found =>
    -- the old adapter is shut down and another one built
    [.unguarded endpoint, .unguarded endpoint, .guarded .write []] ++ Guards.rewireToolsChangedListener found ++
      Guards.invalidateEndpointToolCache ++ Guards.invalidateCatalogCache
  | .reload _ changes => changes.flatMap EntryChange.stages
  | .install endpoint disabled found =>
    [.unguarded endpoint, .guarded .write (if disabled then [.call endpoint] else [])] ++
      Guards.rewireToolsChangedListener found ++ Guards.invalidateEndpointToolCache
  | .listTools rebuilt => Guards.mergedCatalog rebuilt ++ [.guarded .read []]
  | .listAll endpoints => [.guarded .read (endpoints.map .call)]
  | .getEndpoints lookups => [Guards.buildCatalog lookups]
  | .look _ => [.guarded .read []]
  | .toolsChanged => Guards.invalidateEndpointToolCache ++ Guards.invalidateCatalogCache

end EntriesOp

/-! ## Tasks over the lock -/

structure EntriesTask where
  subject : Option String
  /-- What it has still to do under the guard that it has or waits for. -/
  steps : Option (List GuardedStep)
  stages : List EntriesStage
deriving DecidableEq

def EntriesOp.task (op : EntriesOp) : EntriesTask := ⟨op.subject, none, op.stages⟩

/-- It has the populate lock of an entry. -/
def populates (endpoint : String) : List GuardedStep → Bool
  | [] => false
  | .call _ :: steps => populates endpoint steps
  | .populate e :: steps => e ≠ endpoint && populates endpoint steps
  | .populated e :: steps => e = endpoint || populates endpoint steps

structure EntriesState where
  lock : RwLock Nat
  tasks : List EntriesTask

inductive EntriesAction where
  | launch (op : EntriesOp)
  | run (i : Nat)

namespace EntriesState

/-- What a task does next; `none` while it waits. What it awaits is answered by its next step. -/
def runTask (s : EntriesState) (i : Nat) (t : EntriesTask) : Option EntriesState :=
  match t.steps, t.stages with
  | none, [] => none
  | none, .unguarded _ :: stages => some { s with tasks := s.tasks.set i { t with stages } }
  | none, .guarded mode steps :: stages =>
    some ⟨s.lock.acquire i mode, s.tasks.set i { t with steps := some steps, stages }⟩
  | some [], _ => some ⟨s.lock.release i, s.tasks.set i { t with steps := none }⟩
  | some (.populate endpoint :: steps), _ =>
    if (s.tasks.eraseIdx i).any fun u => populates endpoint (u.steps.getD []) then none
    else some { s with tasks := s.tasks.set i { t with steps := some steps } }
  | some (.call _ :: steps), _ | some (.populated _ :: steps), _ =>
    some { s with tasks := s.tasks.set i { t with steps := some steps } }

def step (s : EntriesState) : EntriesAction → Option EntriesState
  | .launch op => some { s with tasks := s.tasks ++ [op.task] }
  | .run i =>
    match s.tasks[i]? with
    | none => none
    | some t => if s.lock.waiting i then none else s.runTask i t

end EntriesState

def entriesLock : System EntriesState EntriesAction where
  init s := s = ⟨{}, []⟩
  step := EntriesState.step

/-! ## Who blocks whom -/

/-- The task awaits the adapter of an endpoint, once it has the guard for it. -/
def EntriesTask.awaits (t : EntriesTask) (endpoint : String) : Prop :=
  match t.steps, t.stages with
  | some (.call e :: _), _ => e = endpoint
  | none, .unguarded e :: _ => e = endpoint
  | _, _ => False

namespace EntriesState

variable (s : EntriesState)

/-- The task is suspended in an upstream call, `initialize` or `shutdown`. -/
def Suspended (i : Nat) (endpoint : String) : Prop :=
  s.lock.waiting i = false ∧ ∃ t, s.tasks[i]? = some t ∧ t.awaits endpoint

/-- A task waits for another one. -/
inductive WaitsFor : Nat → Nat → Prop
  | guard {i j : Nat} (h : s.lock.WaitsFor i j) : WaitsFor i j
  | populate {i j : Nat} {t u : EntriesTask} {endpoint : String} {steps : List GuardedStep}
      (granted : s.lock.waiting i = false) (hi : s.tasks[i]? = some t)
      (hsteps : t.steps = some (.populate endpoint :: steps)) (hne : j ≠ i) (hj : s.tasks[j]? = some u)
      (holds : populates endpoint (u.steps.getD []) = true) : WaitsFor i j

/-- A request for `a` waits for the lock, and somebody with a guard, or a writer before it, waits for a task
that is suspended in the upstream of `b`. -/
def Blocked (a b : String) : Prop :=
  ∃ i t, s.tasks[i]? = some t ∧ t.subject = some a ∧ ∃ j, s.lock.WaitsFor i j ∧
    ∃ k, Relation.ReflTransGen s.WaitsFor j k ∧ s.Suspended k b

def NeverBlocked : Prop := ∀ a b, s.Blocked a b → a = b

/-- What a task has still to do under the guard that it has or waits for. -/
def current (i : Nat) : Option (List GuardedStep) := (s.tasks[i]?).bind (·.steps)

def steps (i : Nat) : List GuardedStep := (s.current i).getD []

def subject (i : Nat) : Option String := (s.tasks[i]?).bind (·.subject)

/-- A task may ask for a guard while another one is in the line: a writer while a reader awaits nothing any
more, and a request for an endpoint while a writer awaits no other endpoint. -/
def lets (y x : Nat × LockMode) : Bool :=
  (x.2 = .read || y.2 = .write || (s.steps y.1).isEmpty) &&
    (y.2 = .read || (s.subject x.1).all fun a => (s.steps y.1).all fun step =>
      match step with
      | .call b => a = b
      | .populate _ | .populated _ => true)

/-- Whoever asks for a guard may do so next to all those who have one or wait for one. -/
def apart : EntriesAction → Bool
  | .launch _ => true
  | .run i =>
    match s.tasks[i]? with
    | some ⟨_, none, .guarded mode _ :: _⟩ => s.lock.line.all fun y => s.lets y (i, mode)
    | _ => true

end EntriesState

/-! ## The invariant -/

/-- A task is in the line as long as it has something to do under a guard, and everybody who waits lets those
before it. -/
structure EntriesState.Inv (s : EntriesState) : Prop where
  wf : s.lock.Wf
  line : ∀ i, (∃ x ∈ s.lock.line, x.1 = i) ↔ (s.current i).isSome = true
  ordered : s.lock.Ordered fun y x => s.lets y x = true

section Steps

variable {s s' : EntriesState} {i j : Nat} {t t' : EntriesTask} {x y : Nat × LockMode}

theorem lets_iff : s.lets y x = true ↔ (x.2 = .read ∨ y.2 = .write ∨ s.steps y.1 = []) ∧
    (y.2 = .write → ∀ a, s.subject x.1 = some a → ∀ b, .call b ∈ s.steps y.1 → a = b) := by
  unfold EntriesState.lets
  rw [Bool.and_eq_true, Bool.or_eq_true, Bool.or_eq_true, decide_eq_true_iff, decide_eq_true_iff, or_assoc,
    List.isEmpty_iff]
  refine and_congr_right fun _ => ?_
  rw [Bool.or_eq_true, decide_eq_true_iff, Option.all_eq_true]
  constructor
  · rintro (hread | hall) hwrite a ha b hb
    · rw [hread] at hwrite
      cases hwrite
    · exact of_decide_eq_true (List.all_eq_true.1 (hall a ha) _ hb)
  · intro h
    cases hmode : y.2 with
    | read => exact .inl rfl
    | write =>
      refine .inr fun a ha => List.all_eq_true.2 fun step hstep => ?_
      cases step with
      | call b => exact decide_eq_true (h hmode a ha b hstep)
      | populate | populated => rfl

/-- A task that has less to do lets at least as much. -/
theorem lets_mono (h : s.lets y x = true) (hsteps : s'.steps y.1 ⊆ s.steps y.1)
    (hsubject : s'.subject x.1 = s.subject x.1) : s'.lets y x = true := by
  obtain ⟨hidle, hcalls⟩ := lets_iff.1 h
  refine lets_iff.2 ⟨?_, ?_⟩
  · rcases hidle with hread | hwrite | hnil
    · exact .inl hread
    · exact .inr (.inl hwrite)
    · rw [hnil] at hsteps
      exact .inr (.inr (List.eq_nil_of_subset_nil hsteps))
  · intro hwrite a ha b hb
    exact hcalls hwrite a (hsubject ▸ ha) b (hsteps hb)

theorem current_eq (hi : s.tasks[i]? = some t) : s.current i = t.steps := by
  rw [EntriesState.current, hi]
  rfl

theorem current_set (hi : s.tasks[i]? = some t) (l : RwLock Nat) (j : Nat) :
    EntriesState.current ⟨l, s.tasks.set i t'⟩ j = if j = i then t'.steps else s.current j := by
  unfold EntriesState.current
  split
  · next hj =>
    rw [hj, List.getElem?_set_self (List.getElem?_eq_some_iff.1 hi).1]
    rfl
  · next hj => rw [List.getElem?_set_ne (Ne.symm hj)]

theorem subject_set (hi : s.tasks[i]? = some t) (hsubject : t'.subject = t.subject) (l : RwLock Nat) (j : Nat) :
    EntriesState.subject ⟨l, s.tasks.set i t'⟩ j = s.subject j := by
  unfold EntriesState.subject
  by_cases hj : j = i
  · rw [hj, List.getElem?_set_self (List.getElem?_eq_some_iff.1 hi).1, hi]
    exact hsubject
  · rw [List.getElem?_set_ne (Ne.symm hj)]

/-- Between the others everything is as before, and the task that has moved has not more to do. -/
theorem ordered_set (h : s.lock.Ordered fun y x => s.lets y x = true) (hi : s.tasks[i]? = some t)
    (hsubject : t'.subject = t.subject) (l : RwLock Nat)
    (hsteps : (∃ x ∈ s.lock.line, x.1 = i) → t'.steps.getD [] ⊆ t.steps.getD []) :
    s.lock.Ordered fun y x => EntriesState.lets ⟨l, s.tasks.set i t'⟩ y x = true := by
  refine h.mono fun y hy x _ hlets => lets_mono hlets ?_ (subject_set hi hsubject l x.1)
  unfold EntriesState.steps
  rw [current_set hi]
  split
  · next hyi =>
    rw [hyi, current_eq hi]
    exact hsteps ⟨y, hy, hyi⟩
  · exact List.Subset.refl _

/-- A task that stays in the line, or out of it, does a step. -/
theorem inv_set (h : s.Inv) (hi : s.tasks[i]? = some t) (hsubject : t'.subject = t.subject)
    (hsome : t'.steps.isSome = t.steps.isSome) (hsteps : t'.steps.getD [] ⊆ t.steps.getD []) :
    EntriesState.Inv { s with tasks := s.tasks.set i t' } := by
  refine ⟨h.wf, fun j => ?_, ordered_set h.ordered hi hsubject s.lock fun _ => hsteps⟩
  rw [current_set hi, h.line]
  split
  · next hj => rw [hj, current_eq hi, hsome]
  · rfl

theorem inv_launch (h : s.Inv) (op : EntriesOp) : EntriesState.Inv { s with tasks := s.tasks ++ [op.task] } := by
  have hold : ∀ j, j < s.tasks.length → (s.tasks ++ [op.task])[j]? = s.tasks[j]? :=
    fun j hj => List.getElem?_append_left hj
  have hcurrent : ∀ j, EntriesState.current { s with tasks := s.tasks ++ [op.task] } j = s.current j := by
    intro j
    unfold EntriesState.current
    rcases Nat.lt_trichotomy j s.tasks.length with hlt | rfl | hgt
    · rw [hold j hlt]
    · rw [List.getElem?_concat_length, List.getElem?_eq_none (Nat.le_refl _)]
      rfl
    · rw [List.getElem?_eq_none (by simp; omega), List.getElem?_eq_none (by omega)]
  refine ⟨h.wf, fun j => by rw [hcurrent]; exact h.line j, h.ordered.mono fun y _ x hx hlets => ?_⟩
  refine lets_mono hlets ?_ ?_
  · unfold EntriesState.steps
    rw [hcurrent]
    exact List.Subset.refl _
  · have hsome := (h.line x.1).1 ⟨x, hx, rfl⟩
    obtain ⟨steps, hsteps⟩ := Option.isSome_iff_exists.1 hsome
    obtain ⟨t, ht, -⟩ := Option.bind_eq_some_iff.1 hsteps
    unfold EntriesState.subject
    rw [hold x.1 (List.getElem?_eq_some_iff.1 ht).1]

theorem inv_acquire {mode : LockMode} (h : s.Inv) (hi : s.tasks[i]? = some t) (hnone : t.steps = none)
    (hsubject : t'.subject = t.subject) (hsome : t'.steps.isSome = true)
    (hlets : ∀ y ∈ s.lock.line, s.lets y (i, mode) = true) :
    EntriesState.Inv ⟨s.lock.acquire i mode, s.tasks.set i t'⟩ := by
  have hout : ∀ y ∈ s.lock.line, y.1 ≠ i := by
    intro y hy heq
    have hin := (h.line i).1 ⟨y, hy, heq⟩
    rw [current_eq hi, hnone] at hin
    cases hin
  have hlets' : ∀ y ∈ s.lock.line,
      EntriesState.lets ⟨s.lock.acquire i mode, s.tasks.set i t'⟩ y (i, mode) = true := by
    intro y hy
    refine lets_mono (hlets y hy) ?_ (subject_set hi hsubject _ i)
    unfold EntriesState.steps
    rw [current_set hi, if_neg (hout y hy)]
    exact List.Subset.refl _
  refine ⟨h.wf.acquire ?_, fun j => ?_, (ordered_set h.ordered hi hsubject _ ?_).acquire hlets'⟩
  · intro hmem
    obtain ⟨y, hy, heq⟩ := List.mem_map.1 hmem
    exact hout y hy heq
  · rw [current_set hi, RwLock.line_acquire]
    split
    · next hj =>
      rw [hsome, hj]
      exact iff_of_true ⟨(i, mode), List.mem_append_right _ (List.mem_singleton_self _), rfl⟩ rfl
    · next hj =>
      rw [← h.line]
      simp [Ne.symm hj]
  · rintro ⟨y, hy, heq⟩
    exact absurd heq (hout y hy)

theorem inv_release (h : s.Inv) (hi : s.tasks[i]? = some t) (hgranted : s.lock.waiting i = false)
    (hsubject : t'.subject = t.subject) (hnone : t'.steps = none) :
    EntriesState.Inv ⟨s.lock.release i, s.tasks.set i t'⟩ := by
  refine ⟨h.wf.release, fun j => ?_, (ordered_set h.ordered hi hsubject _ fun _ => ?_).release⟩
  · rw [current_set hi]
    split
    · next hj =>
      rw [hnone, hj]
      refine iff_of_false ?_ Bool.false_ne_true
      rintro ⟨y, hy, heq⟩
      exact ((RwLock.mem_line_release hgranted).1 hy).2 heq
    · next hj =>
      rw [← h.line]
      constructor
      · rintro ⟨y, hy, heq⟩
        exact ⟨y, ((RwLock.mem_line_release hgranted).1 hy).1, heq⟩
      · rintro ⟨y, hy, heq⟩
        exact ⟨y, (RwLock.mem_line_release hgranted).2 ⟨hy, heq ▸ hj⟩, heq⟩
  · rw [hnone]
    exact List.nil_subset _

/-- **One step.** -/
theorem inv_step {action : EntriesAction} (h : s.Inv) (hapart : s.apart action = true)
    (hstep : s.step action = some s') : s'.Inv := by
  cases action with
  | launch op =>
    cases hstep
    exact inv_launch h op
  | run i =>
    unfold EntriesState.step at hstep
    dsimp only at hstep
    split at hstep
    · cases hstep
    · next t hi =>
      split at hstep
      · cases hstep
      · next hgranted =>
        unfold EntriesState.apart at hapart
        dsimp only at hapart
        obtain ⟨subject, steps, stages⟩ := t
        unfold EntriesState.runTask at hstep
        split at hstep
        · cases hstep
        · next hsteps hstages =>
          cases hstep
          exact inv_set h hi rfl rfl (List.Subset.refl _)
        · next mode steps' stages' hsteps hstages =>
          cases hstep
          dsimp only at hsteps hstages
          subst hsteps hstages
          rw [hi] at hapart
          exact inv_acquire h hi rfl rfl rfl (List.all_eq_true.1 hapart)
        · cases hstep
          exact inv_release h hi (Bool.eq_false_iff.2 hgranted) rfl rfl
        · next hsteps =>
          split at hstep
          · cases hstep
          · cases hstep
            dsimp only at hsteps
            subst hsteps
            exact inv_set h hi rfl rfl (List.subset_cons_self _ _)
        · next hsteps =>
          cases hstep
          dsimp only at hsteps
          subst hsteps
          exact inv_set h hi rfl rfl (List.subset_cons_self _ _)
        · next hsteps =>
          cases hstep
          dsimp only at hsteps
          subst hsteps
          exact inv_set h hi rfl rfl (List.subset_cons_self _ _)

/-! ## Every run whose steps are apart -/

/-- Whoever a task in the line waits for is in the line. -/
theorem line_of_waitsFor (h : s.Inv) (hij : s.WaitsFor i j) : ∃ x ∈ s.lock.line, x.1 = j := by
  cases hij with
  | guard h => exact h.mem_line
  | @populate t u endpoint steps granted hi hsteps hne hj holds =>
    rw [h.line, current_eq hj]
    cases hu : u.steps with
    | none =>
      rw [hu] at holds
      cases holds
    | some steps => rfl

/-- While somebody waits, only a writer has an upstream to await under its guard. -/
theorem write_of_waiting (h : s.Inv) (hx : x ∈ s.lock.queue) (hy : y ∈ s.lock.holders)
    (hsteps : s.steps y.1 ≠ []) : y.2 = .write := by
  rcases h.wf.exists_writer hx with ⟨w, hw, hwrite⟩ | ⟨w, hw, hwrite⟩
  · rw [h.wf.exclusive w hw hwrite] at hy
    rw [List.mem_singleton.1 hy]
    exact hwrite
  · rcases (lets_iff.1 (h.ordered.holders y hy w hw)).1 with hread | hwrite' | hnil
    · rw [hwrite] at hread
      cases hread
    · exact hwrite'
    · exact absurd hnil hsteps

theorem neverBlocked (h : s.Inv) : s.NeverBlocked := by
  rintro a b ⟨i, t, hi, hsubject, j, hij, k, hjk, hgranted, u, hk, hawaits⟩
  obtain ⟨x, hx, rfl⟩ := hij.mem_queue
  have hline : ∃ y ∈ s.lock.line, y.1 = k := by
    cases hjk with
    | refl => exact hij.mem_line
    | tail _ hlast => exact line_of_waitsFor h hlast
  obtain ⟨y, hy, rfl⟩ := hline
  have hholder : y ∈ s.lock.holders := by
    refine (List.mem_append.1 hy).resolve_right fun hqueued => ?_
    rw [RwLock.waiting_iff.2 ⟨y, hqueued, rfl⟩] at hgranted
    cases hgranted
  have hcall : .call b ∈ s.steps y.1 := by
    have hsome := (h.line y.1).1 ⟨y, hy, rfl⟩
    unfold EntriesState.steps
    rw [current_eq hk] at hsome ⊢
    unfold EntriesTask.awaits at hawaits
    split at hawaits
    · next hsteps =>
      rw [hsteps, ← hawaits]
      exact List.mem_cons_self
    · next hnone _ =>
      rw [hnone] at hsome
      cases hsome
    · exact hawaits.elim
  have hwrite := write_of_waiting h hx hholder (List.ne_nil_of_mem hcall)
  have ha : s.subject x.1 = some a := by
    rw [EntriesState.subject, hi]
    exact hsubject
  exact (lets_iff.1 (h.ordered.holders y hholder x hx)).2 hwrite a ha b hcall

end Steps

/-- **No request is blocked by another endpoint** in every run whose steps are apart. -/
theorem never_blocked {s : EntriesState}
    (h : entriesLock.ReachableWhile (fun s action => s.apart action = true) s) : s.NeverBlocked := by
  refine neverBlocked (h.invariant ?_ fun s action s' hs hapart hstep => inv_step hs hapart hstep)
  rintro s rfl
  refine ⟨⟨nofun, nofun, .nil⟩, fun i => ?_, ⟨nofun, .nil⟩⟩
  exact iff_of_false (fun ⟨_, hx, _⟩ => List.not_mem_nil hx) Bool.false_ne_true

/-! ## Three runs -/

def noTasks : EntriesState := ⟨{}, []⟩

theorem noTasks_start : entriesLock.init noTasks := rfl

/-- A tool call of the mail server is answered, the endpoint is disabled, and another one is called. -/
def apartRun : List EntriesAction :=
  [.launch (.toolCall "mail" (some [("chat", .stale)]) true), .run 0, .run 0, .run 0, .run 0, .run 0, .run 0,
    .launch (.disable "mail" true true), .run 0, .run 0, .run 1, .run 1, .run 1,
    .launch (.toolCall "chat" none true), .run 2]

/-- The tool call is at the upstream, and nobody waits. -/
theorem never_blocked_apart : ∃ s, entriesLock.run noTasks apartRun = some s ∧
    s.lock = ⟨[(2, .read)], []⟩ ∧ s.NeverBlocked := by
  have hrun : ∃ s, entriesLock.runWhile EntriesState.apart noTasks apartRun = some s ∧
      entriesLock.run noTasks apartRun = some s ∧ s.lock = ⟨[(2, .read)], []⟩ := ⟨_, rfl, rfl, rfl⟩
  obtain ⟨s, hwhile, hrun, hlock⟩ := hrun
  exact ⟨s, hrun, hlock, never_blocked
    ((System.ReachableWhile.init noTasks_start).run (fun _ _ h => h) hwhile)⟩

/-- The mail server is called, a third endpoint disabled, and the chat server called. -/
def queuedRun : List EntriesAction :=
  [.launch (.toolCall "mail" none true), .run 0, .launch (.disable "files" true true), .run 1,
    .launch (.toolCall "chat" none true), .run 2]

/-- The adapter of the mail server shuts down while the chat server is called. -/
def stoppingRun : List EntriesAction :=
  [.launch (.disable "mail" true true), .run 0, .launch (.toolCall "chat" none true), .run 1]

/-- **A call waits behind a writer** that waits for a call of another endpoint, and **a call waits for the
shutdown** of another endpoint. -/
theorem blocked_by_mail :
    (∃ s, entriesLock.Reachable s ∧ s.lock = ⟨[(0, .read)], [(1, .write), (2, .read)]⟩ ∧
      s.Blocked "chat" "mail" ∧ ¬ s.NeverBlocked) ∧
    ∃ s, entriesLock.Reachable s ∧ s.lock = ⟨[(0, .write)], [(1, .read)]⟩ ∧
      s.Blocked "chat" "mail" ∧ ¬ s.NeverBlocked := by
  have hqueued : ∃ s, entriesLock.run noTasks queuedRun = some s ∧
      s.lock = ⟨[(0, .read)], [(1, .write), (2, .read)]⟩ ∧
      s.tasks[0]? = some ⟨some "mail", some [.call "mail"], []⟩ ∧
      s.tasks[2]? = some ⟨some "chat", some [.call "chat"], []⟩ := ⟨_, rfl, rfl, rfl, rfl⟩
  have hstopping : ∃ s stages, entriesLock.run noTasks stoppingRun = some s ∧
      s.lock = ⟨[(0, .write)], [(1, .read)]⟩ ∧
      s.tasks[0]? = some ⟨some "mail", some [.call "mail"], stages⟩ ∧
      s.tasks[1]? = some ⟨some "chat", some [.call "chat"], []⟩ := ⟨_, _, rfl, rfl, rfl, rfl⟩
  obtain ⟨s, hrun, hlock, hmail, hchat⟩ := hqueued
  obtain ⟨s', stages, hrun', hlock', hmail', hchat'⟩ := hstopping
  have hblocked : s.Blocked "chat" "mail" := by
    have hwriter : s.lock.WaitsFor 2 1 :=
      ⟨[(1, .write)], (2, .read), [], by rw [hlock]; rfl, rfl, .inr List.mem_cons_self⟩
    have hholder : s.lock.WaitsFor 1 0 :=
      ⟨[], (1, .write), [(2, .read)], by rw [hlock]; rfl, rfl, .inl ⟨(0, .read), by simp [hlock], rfl⟩⟩
    exact ⟨2, _, hchat, rfl, 1, hwriter, 0, .single (.guard hholder), by rw [hlock]; rfl, _, hmail, rfl⟩
  have hblocked' : s'.Blocked "chat" "mail" := by
    have hholder : s'.lock.WaitsFor 1 0 :=
      ⟨[], (1, .read), [], by rw [hlock']; rfl, rfl, .inl ⟨(0, .write), by simp [hlock'], rfl⟩⟩
    exact ⟨1, _, hchat', rfl, 0, hholder, 0, .refl, by rw [hlock']; rfl, _, hmail', rfl⟩
  have hne : ¬ "chat" = "mail" := by decide
  exact ⟨⟨s, (System.Reachable.init noTasks_start).run hrun, hlock, hblocked,
      fun hnever => hne (hnever _ _ hblocked)⟩,
    s', (System.Reachable.init noTasks_start).run hrun', hlock', hblocked',
      fun hnever => hne (hnever _ _ hblocked')⟩

end EndaraRelay
