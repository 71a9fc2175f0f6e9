import EndaraRelay.Lib.Pool
import EndaraRelay.Lib.Table

/-!
# Listening for changed tools

An entry of the registry has the handle of a task that listens to its adapter and, at every tick of the
adapter, clears the caches of the endpoint and publishes a tick under its name (`registry.rs`).

**The model.** Handles are values that are moved: a listener lives in an entry or with the operation that
has spawned it, until its handle is aborted. Registrations, removals, restarts and initializations
interleave at every `await`. An initialization swaps the adapter and then rewires the listener, which
takes the lock twice: it subscribes to the adapter it reads, and stores the handle later.

**The slip.** What is stored is not compared with the adapter that is there by then. When the adapter is
swapped and rewired in between, the handle of the right listener is aborted for one of the adapter that
is gone.

**Theorem (`listeners_follow`).** In every run whose handles are stored as they `settle`, once all
operations have finished, every endpoint has the listener of its adapter, and there is no other.
-/

namespace EndaraRelay

open Verif

/-! ## Adapters and listeners -/

/-- An adapter, and whether it exposes a receiver. Placeholders for adapters that start or have failed do
not. -/
structure ListenedAdapter where
  number : Nat
  hasReceiver : Bool
deriving DecidableEq

/-- A listener task: the name it publishes under, and the adapter it is subscribed to. -/
structure ToolsListener where
  endpoint : String
  adapter : Nat
deriving DecidableEq

/-- `spawn_tools_changed_listener`. -/
def ListenedAdapter.listener (a : ListenedAdapter) (name : String) : Option ToolsListener :=
  if a.hasReceiver then some ⟨name, a.number⟩ else none

/-- An entry, with the handle of its task. -/
structure ListenedEntry where
  adapter : ListenedAdapter
  toolsChangedTask : Option ToolsListener

structure ToolsListeners where
  entries : Table String ListenedEntry
  /-- How many adapters there have been. -/
  built : Nat

/-- The listeners that the entries have. -/
def ToolsListeners.tasks (sh : ToolsListeners) : List ToolsListener :=
  sh.entries.entries.filterMap fun e => e.2.toolsChangedTask

/-- Every endpoint has the listener of its adapter, if that can be listened to, and every listener is that
of the endpoint it publishes under. -/
structure ToolsListeners.Follows (sh : ToolsListeners) : Prop where
  listened : ∀ name entry, sh.entries.lookup name = some entry →
    entry.toolsChangedTask = entry.adapter.listener name
  only : ∀ l ∈ sh.tasks, ∃ entry, sh.entries.lookup l.endpoint = some entry ∧
    entry.toolsChangedTask = some l

/-! ## The operations -/

inductive ListenerOp where
  | register (name : String) (hasReceiver : Bool)
  | remove (name : String)
  | restart (name : String)
  /-- A background initialization of the endpoint. -/
  | backgroundInit (name : String)
  | rewire (name : String)

inductive ListenerPc where
  | register (name : String) (hasReceiver : Bool)
  /-- The listener is spawned; the entry is inserted next. -/
  | inserting (name : String) (adapter : ListenedAdapter) (handle : Option ToolsListener)
  | remove (name : String)
  | restart (name : String)
  /-- A placeholder is in; the adapter is built anew, or the previous one is initialized again. -/
  | rebuilding (name : String) (old : ListenedAdapter)
  | backgroundInit (name : String)
  | swapping (name : String) (adapter : ListenedAdapter)
  | rewire (name : String)
  /-- A listener of the adapter that was read is spawned; its handle is stored next. -/
  | storing (name : String) (read : ListenedAdapter) (handle : Option ToolsListener)
  | done

def ListenerOp.pc : ListenerOp → ListenerPc
  | .register name hasReceiver => .register name hasReceiver
  | .remove name => .remove name
  | .restart name => .restart name
  | .backgroundInit name => .backgroundInit name
  | .rewire name => .rewire name

/-- What comes of building an adapter. -/
inductive BuildChoice where
  | built (hasReceiver : Bool)
  /-- The endpoint is not in the config, and the previous adapter is initialized again. -/
  | again

namespace ListenerPc

/-- What an operation does next. -/
def step (sh : ToolsListeners) : ListenerPc → BuildChoice → Option (ToolsListeners × ListenerPc)
  | .register name hasReceiver, _ =>
    let adapter : ListenedAdapter := ⟨sh.built, hasReceiver⟩
    some ({ sh with built := sh.built + 1 }, .inserting name adapter (adapter.listener name))
  -- the handle of the previous entry is aborted
  | .inserting name adapter handle, _ =>
    some ({ sh with entries := sh.entries.insert name ⟨adapter, handle⟩ }, .done)
  | .remove name, _ => some ({ sh with entries := sh.entries.erase name }, .done)
  | .restart name, _ =>
    match sh.entries.lookup name with
    | none => some (sh, .done)
    | some entry =>
      some ({ entries := sh.entries.insert name { entry with adapter := ⟨sh.built, false⟩ }
              built := sh.built + 1 }, .rebuilding name entry.adapter)
  | .rebuilding name _, .built hasReceiver | .backgroundInit name, .built hasReceiver =>
    some ({ sh with built := sh.built + 1 }, .swapping name ⟨sh.built, hasReceiver⟩)
  | .rebuilding name old, .again => some (sh, .swapping name old)
  | .backgroundInit _, .again => none
  | .swapping name adapter, _ =>
    some ({ sh with entries := sh.entries.modify name fun entry => { entry with adapter := adapter } },
      .rewire name)
  | .rewire name, _ =>
    match sh.entries.lookup name with
    | none => some (sh, .done)
    | some entry => some (sh, .storing name entry.adapter (entry.adapter.listener name))
  -- what the entry had is aborted, or the new handle when there is no entry
  | .storing name _ handle, _ =>
    some ({ sh with entries := sh.entries.modify name fun entry => { entry with toolsChangedTask := handle } },
      .done)
  | .done, _ => none

/-- The operation has yet to see to the listener of the name. One that stores a handle does when it has
read the adapter that is there. -/
def owes (sh : ToolsListeners) (name : String) : ListenerPc → Bool
  | .register n _ | .inserting n _ _ | .remove n | .restart n | .rebuilding n _ | .backgroundInit n
  | .swapping n _ | .rewire n => n = name
  | .storing n read _ => n = name ∧ (sh.entries.lookup name).any fun entry => entry.adapter = read
  | .done => false

end ListenerPc

def toolsListeners : Pool ToolsListeners ListenerPc ListenerOp BuildChoice where
  init sh := sh.entries = ∅
  launch _ _ op := some op.pc
  step sh _ pc c := (pc.step sh c).map fun r => (r.1, r.2, [])

abbrev ListenersState := Pool.State ToolsListeners ListenerPc

/-- A handle is stored for the adapter that is there, or another operation has yet to see to the name. -/
def settles (s : ListenersState) : Pool.Action ListenerOp BuildChoice → Bool
  | .launch _ => true
  | .run i _ =>
    match s.threads[i]? with
    | some (.storing name read _) =>
      (s.shared.entries.lookup name).all fun entry =>
        entry.adapter = read || s.threads.any fun pc => pc.owes s.shared name
    | _ => true

/-! ## Entries and what is owed -/

section Steps

variable {sh sh' : ToolsListeners} {pc pc' : ListenerPc} {c : BuildChoice} {name m : String}
  {entry : ListenedEntry}

/-- The handle that an operation has is that of a listener of its adapter. -/
def ListenerPc.Fine : ListenerPc → Prop
  | .inserting name adapter handle => handle = adapter.listener name
  | .storing name read handle => handle = read.listener name
  | _ => True

/-- The endpoint has the listener of its adapter. -/
def Listened (sh : ToolsListeners) (name : String) : Prop :=
  ∀ entry, sh.entries.lookup name = some entry → entry.toolsChangedTask = entry.adapter.listener name

/-- A listener publishes under the name of its entry. -/
def Named (sh : ToolsListeners) : Prop :=
  ∀ name entry l, sh.entries.lookup name = some entry → entry.toolsChangedTask = some l → l.endpoint = name

theorem endpoint_of_listener {a : ListenedAdapter} {l : ToolsListener} (h : a.listener name = some l) :
    l.endpoint = name := by
  unfold ListenedAdapter.listener at h
  split at h
  · cases h
    rfl
  · cases h

theorem named_insert (h : Named sh)
    (hentry : ∀ l, entry.toolsChangedTask = some l → l.endpoint = name) :
    Named { sh with entries := sh.entries.insert name entry } := by
  intro m e l hlookup hl
  rcases AList.lookup_insert_cases hlookup with ⟨rfl, rfl⟩ | ⟨-, hlookup⟩
  · exact hentry l hl
  · exact h m e l hlookup hl

/-- An edit of an entry that keeps its handle, or puts in one of the name. -/
theorem named_modify (h : Named sh) {f : ListenedEntry → ListenedEntry}
    (hf : ∀ entry l, (f entry).toolsChangedTask = some l →
      entry.toolsChangedTask = some l ∨ l.endpoint = name) :
    Named { sh with entries := sh.entries.modify name f } := by
  intro m e l hlookup hl
  by_cases hm : m = name
  · subst hm
    rw [AList.lookup_modify_self] at hlookup
    obtain ⟨entry, hentry, rfl⟩ := Option.map_eq_some_iff.1 hlookup
    rcases hf entry l hl with hold | hnew
    · exact h m entry l hentry hold
    · exact hnew
  · rw [AList.lookup_modify_ne hm] at hlookup
    exact h m e l hlookup hl

/-! ## What a step sees to -/

def ListenerPc.endpoint : ListenerPc → Option String
  | .register n _ | .inserting n _ _ | .remove n | .restart n | .rebuilding n _ | .backgroundInit n
  | .swapping n _ | .rewire n | .storing n _ _ => some n
  | .done => none

theorem endpoint_of_owes (h : pc.owes sh name = true) : pc.endpoint = some name := by
  cases pc with
  | done => cases h
  | storing n read handle =>
    obtain ⟨hn, -⟩ := of_decide_eq_true h
    exact congrArg some hn
  | register | inserting | remove | restart | rebuilding | backgroundInit | swapping | rewire =>
    exact congrArg some (of_decide_eq_true h)

/-- What an operation owes depends on the adapters only. -/
theorem owes_congr
    (h : (sh'.entries.lookup name).map (·.adapter) = (sh.entries.lookup name).map (·.adapter)) :
    pc.owes sh' name = pc.owes sh name := by
  cases pc with
  | storing n read handle =>
    have hany (o : Option ListenedEntry) :
        (o.any fun entry => entry.adapter = read) = (o.map (·.adapter)).any fun a => a = read := by
      cases o <;> rfl
    simp only [ListenerPc.owes, hany, h]
  | _ => rfl

/-- The adapter of the endpoint is not the one that was read. -/
def Missed (sh : ToolsListeners) (name : String) (pc : ListenerPc) : Prop :=
  ∃ read handle entry, pc = .storing name read handle ∧ sh.entries.lookup name = some entry ∧
    entry.adapter ≠ read

theorem fine_step (h : pc.step sh c = some (sh', pc')) : pc'.Fine := by
  cases pc with
  | register n hasReceiver =>
    cases h
    rfl
  | restart n =>
    unfold ListenerPc.step at h
    dsimp only at h
    split at h <;> cases h <;> trivial
  | rewire n =>
    unfold ListenerPc.step at h
    dsimp only at h
    split at h <;> cases h
    · trivial
    · rfl
  | rebuilding n old | backgroundInit n =>
    cases c <;> cases h <;> trivial
  | inserting | remove | swapping | storing =>
    cases h
    trivial
  | done => cases h

theorem named_step (h : pc.step sh c = some (sh', pc')) (hfine : pc.Fine) (hnamed : Named sh) : Named sh' := by
  cases pc with
  | register n hasReceiver =>
    cases h
    exact hnamed
  | inserting n adapter handle =>
    cases h
    refine named_insert hnamed fun l hl => ?_
    rw [show handle = adapter.listener n from hfine] at hl
    exact endpoint_of_listener hl
  | remove n =>
    cases h
    intro m e l hlookup hl
    exact hnamed m e l (AList.lookup_of_erase hlookup).2 hl
  | restart n =>
    unfold ListenerPc.step at h
    dsimp only at h
    split at h
    · cases h
      exact hnamed
    · next e he =>
      cases h
      exact named_insert hnamed fun l hl => hnamed n e l he hl
  | rebuilding n old | backgroundInit n =>
    cases c <;> cases h <;> exact hnamed
  | swapping n adapter =>
    cases h
    exact named_modify hnamed fun e l hl => .inl hl
  | rewire n =>
    unfold ListenerPc.step at h
    dsimp only at h
    split at h <;> cases h <;> exact hnamed
  | storing n read handle =>
    cases h
    refine named_modify hnamed fun e l hl => .inr ?_
    rw [show handle = read.listener n from hfine] at hl
    exact endpoint_of_listener hl
  | done => cases h

/-- **Other endpoints** are not touched. -/
theorem step_other (h : pc.step sh c = some (sh', pc')) (hm : pc.endpoint ≠ some m) :
    sh'.entries.lookup m = sh.entries.lookup m := by
  have hne {n : String} (hn : pc.endpoint = some n) : m ≠ n := fun hmn => hm (hmn ▸ hn)
  cases pc with
  | register n hasReceiver =>
    cases h
    rfl
  | inserting n adapter handle =>
    cases h
    exact AList.lookup_insert_ne (hne rfl)
  | remove n =>
    cases h
    exact AList.lookup_erase_ne (hne rfl)
  | restart n =>
    unfold ListenerPc.step at h
    dsimp only at h
    split at h
    · cases h
      rfl
    · cases h
      exact AList.lookup_insert_ne (hne rfl)
  | rebuilding n old | backgroundInit n =>
    cases c <;> cases h <;> rfl
  | swapping n adapter | storing n read handle =>
    cases h
    exact AList.lookup_modify_ne (hne rfl) _ _
  | rewire n =>
    unfold ListenerPc.step at h
    dsimp only at h
    split at h <;> cases h <;> rfl
  | done => cases h

theorem listened_of_none (h : sh.entries.lookup name = none) : Listened sh name := by
  intro entry hentry
  rw [h] at hentry
  cases hentry

/-- **Its own endpoint** has its listener after the step, or the operation still owes it, unless a handle is
stored that misses. -/
theorem step_own (h : pc.step sh c = some (sh', pc')) (hfine : pc.Fine) (hm : pc.endpoint = some m) :
    Listened sh' m ∨ pc'.owes sh' m = true ∨ Missed sh m pc ∧
      (sh'.entries.lookup m).map (·.adapter) = (sh.entries.lookup m).map (·.adapter) := by
  cases pc with
  | register n hasReceiver =>
    cases hm
    cases h
    exact .inr (.inl (decide_eq_true rfl))
  | inserting n adapter handle =>
    cases hm
    cases h
    refine .inl fun entry hentry => ?_
    rw [AList.lookup_insert] at hentry
    cases hentry
    exact hfine
  | remove n =>
    cases hm
    cases h
    exact .inl (listened_of_none (AList.lookup_erase _ _))
  | restart n =>
    cases hm
    unfold ListenerPc.step at h
    dsimp only at h
    split at h
    · next hnone =>
      cases h
      exact .inl (listened_of_none hnone)
    · cases h
      exact .inr (.inl (decide_eq_true rfl))
  | rebuilding n old | backgroundInit n =>
    cases hm
    cases c <;> cases h <;> exact .inr (.inl (decide_eq_true rfl))
  | swapping n adapter =>
    cases hm
    cases h
    exact .inr (.inl (decide_eq_true rfl))
  | rewire n =>
    cases hm
    unfold ListenerPc.step at h
    dsimp only at h
    split at h
    · next hnone =>
      cases h
      exact .inl (listened_of_none hnone)
    · next e he =>
      cases h
      refine .inr (.inl (decide_eq_true ⟨rfl, ?_⟩))
      rw [he]
      exact decide_eq_true rfl
  | storing n read handle =>
    cases hm
    cases h
    cases he : sh.entries.lookup m with
    | none =>
      refine .inl (listened_of_none ?_)
      rw [AList.lookup_modify_self, he, Option.map_none]
    | some e =>
      by_cases hread : e.adapter = read
      · refine .inl fun entry hentry => ?_
        rw [AList.lookup_modify_self, he] at hentry
        cases hentry
        rw [hread]
        exact hfine
      · refine .inr (.inr ⟨⟨read, handle, e, rfl, he, hread⟩, ?_⟩)
        rw [AList.lookup_modify_self, he]
        rfl
  | done => cases hm

end Steps

/-! ## Every run that settles -/

/-- Every endpoint has the listener of its adapter, or an operation owes it. -/
def Attended (s : ListenersState) : Prop :=
  ∀ name, Listened s.shared name ∨ ∃ t ∈ s.threads, t.owes s.shared name = true

/-- Whoever owed an endpoint and did not move owes it still, while the adapter of the endpoint is the same. -/
theorem attended_of_other {sh sh' : ToolsListeners} {ts : List ListenerPc} {i : Nat} {pc pc' : ListenerPc}
    {name : String} (hi : ts[i]? = some pc) (hpc : pc.owes sh name = false)
    (hsame : (sh'.entries.lookup name).map (·.adapter) = (sh.entries.lookup name).map (·.adapter))
    (h : ∃ t ∈ ts, t.owes sh name = true) : ∃ t ∈ Pool.stepped ts i pc' [], t.owes sh' name = true := by
  have hstays : ∃ t ∈ Pool.stepped ts i pc' [], t.owes sh name = true :=
    Pool.exists_stepped hi (fun hself => absurd hself (by rw [hpc]; decide)) h
  obtain ⟨t, ht, howes⟩ := hstays
  exact ⟨t, ht, by rw [owes_congr hsame, howes]⟩

theorem attended_step {s : ListenersState} {i : Nat} {c : BuildChoice} {pc pc' : ListenerPc}
    {sh' : ToolsListeners} (hi : s.threads[i]? = some pc) (h : pc.step s.shared c = some (sh', pc'))
    (hfine : pc.Fine) (hsettles : settles s (.run i c) = true) (hs : Attended s) :
    Attended ⟨sh', Pool.stepped s.threads i pc' []⟩ := by
  intro m
  by_cases hm : pc.endpoint = some m
  · rcases step_own h hfine hm with hlistened | howes | ⟨⟨read, handle, e, rfl, he, hread⟩, hsame⟩
    · exact .inl hlistened
    · exact .inr ⟨pc', Pool.mem_stepped_self hi, howes⟩
    · -- another operation has yet to see to the endpoint, and its adapter stays
      have hnot : (ListenerPc.storing m read handle).owes s.shared m = false := by
        simp [ListenerPc.owes, he, hread]
      have hother : ∃ t ∈ s.threads, t.owes s.shared m = true := by
        simpa [settles, hi, he, hread] using hsettles
      exact .inr (attended_of_other hi hnot hsame hother)
  · have hlookup := step_other h hm
    rcases hs m with hlistened | howes
    · refine .inl fun entry hentry => hlistened entry ?_
      rw [← hlookup]
      exact hentry
    · have hnot : pc.owes s.shared m = false :=
        Bool.eq_false_iff.2 fun hpc => hm (endpoint_of_owes hpc)
      exact .inr (attended_of_other hi hnot (congrArg _ hlookup) howes)

theorem listeners_attended {s : ListenersState}
    (h : toolsListeners.system.ReachableWhile (fun s a => settles s a = true) s) :
    Attended s ∧ Named s.shared ∧ ∀ t ∈ s.threads, t.Fine := by
  refine Pool.invariant_of (P := toolsListeners) (I := fun _ => True)
    (J := fun s => Attended s ∧ Named s.shared ∧ ∀ t ∈ s.threads, t.Fine) (fun _ _ => trivial) ?_ ?_ ?_ h
  · intro sh hsh
    have hnone (name : String) : sh.entries.lookup name = none := by
      rw [show sh.entries = ∅ from hsh, AList.lookup_empty]
    refine ⟨fun name => .inl (listened_of_none (hnone name)), fun name e l hlookup => ?_, List.forall_mem_nil _⟩
    rw [hnone] at hlookup
    cases hlookup
  · intro s op t _ ⟨hattended, hnamed, hfine⟩ _ ht
    refine ⟨fun name => (hattended name).imp_right fun ⟨u, hu, howes⟩ =>
      ⟨u, List.mem_append_left _ hu, howes⟩, hnamed, fun u hu => ?_⟩
    rcases List.mem_append.1 hu with hu | hu
    · exact hfine u hu
    · obtain rfl := List.mem_singleton.1 hu
      cases ht
      cases op <;> exact trivial
  · intro s i c t sh' t' new _ ⟨hattended, hnamed, hfine⟩ hok hi hstep
    obtain ⟨⟨sh'', pc'⟩, hpc, hr⟩ := Option.map_eq_some_iff.1 hstep
    cases hr
    have ht := hfine t (List.mem_of_getElem? hi)
    refine ⟨attended_step hi hpc ht hok hattended, named_step hpc ht hnamed, ?_⟩
    exact Pool.forall_mem_stepped (fine_step hpc) (List.forall_mem_nil _) fun j u _ hj =>
      hfine u (List.mem_of_getElem? hj)

/-- **Listeners follow the adapters** in every run that settles, once all operations have finished. -/
theorem listeners_follow {s : ListenersState}
    (h : toolsListeners.system.ReachableWhile (fun s a => settles s a = true) s)
    (hdone : ∀ t ∈ s.threads, t = .done) : s.shared.Follows := by
  obtain ⟨hattended, hnamed, -⟩ := listeners_attended h
  have hlistened (name : String) : Listened s.shared name := by
    rcases hattended name with hname | ⟨t, ht, howes⟩
    · exact hname
    · rw [hdone t ht] at howes
      cases howes
  refine ⟨hlistened, fun l hl => ?_⟩
  obtain ⟨⟨name, entry⟩, he, htask⟩ := List.mem_filterMap.1 hl
  have hlookup := AList.mem_entries_iff.1 he
  rw [hnamed name entry l hlookup htask]
  exact ⟨entry, hlookup, htask⟩

/-! ## Two runs -/

def listenerSteps (i n : Nat) : List (Pool.Action ListenerOp BuildChoice) :=
  List.replicate n (.run i (.built true))

def followRun : List (Pool.Action ListenerOp BuildChoice) :=
  .launch (.register "mail" false) :: listenerSteps 0 2 ++ .launch (.restart "mail") :: listenerSteps 1 5

/-- While an initialization stores the handle for the adapter that it has swapped in, a restart swaps and
rewires another. -/
def missedRun : List (Pool.Action ListenerOp BuildChoice) :=
  .launch (.register "mail" false) :: listenerSteps 0 2 ++ .launch (.backgroundInit "mail") :: listenerSteps 1 3 ++
    .launch (.restart "mail") :: listenerSteps 2 5 ++ listenerSteps 1 1

def noListeners : ToolsListeners := ⟨∅, 0⟩

theorem noListeners_start : toolsListeners.system.init ⟨noListeners, []⟩ := ⟨rfl, rfl⟩

/-- A restarted endpoint has the listener of its new adapter. -/
theorem listeners_follow_restart : ∃ s, toolsListeners.system.run ⟨noListeners, []⟩ followRun = some s ∧
    s.shared.tasks = [⟨"mail", 2⟩] ∧ s.shared.Follows := by
  have hrun : ∃ s, toolsListeners.system.runWhile settles ⟨noListeners, []⟩ followRun = some s ∧
      toolsListeners.system.run ⟨noListeners, []⟩ followRun = some s ∧
      s.shared.tasks = [⟨"mail", 2⟩] ∧ s.threads = [.done, .done] := ⟨_, rfl, rfl, rfl, rfl⟩
  obtain ⟨s, hwhile, hrun, htasks, hthreads⟩ := hrun
  have hdone : ∀ t ∈ s.threads, t = .done := by
    rw [hthreads]
    exact List.forall_mem_cons.2 ⟨rfl, List.forall_mem_singleton.2 rfl⟩
  exact ⟨s, hrun, htasks, listeners_follow
    ((System.ReachableWhile.init noListeners_start).run (fun _ _ h => h) hwhile) hdone⟩

/-- **A listener of an adapter that is gone**: it is stored last, and the adapter that serves has none. -/
theorem listener_of_replaced : ∃ s, toolsListeners.system.Reachable s ∧ s.threads = [.done, .done, .done] ∧
    s.shared.entries.lookup "mail" = some ⟨⟨3, true⟩, some ⟨"mail", 1⟩⟩ ∧ ¬ s.shared.Follows := by
  have hrun : ∃ s, toolsListeners.system.run ⟨noListeners, []⟩ missedRun = some s ∧
      s.threads = [.done, .done, .done] ∧
      s.shared.entries.lookup "mail" = some ⟨⟨3, true⟩, some ⟨"mail", 1⟩⟩ := ⟨_, rfl, rfl, rfl⟩
  obtain ⟨s, hrun, hthreads, hlookup⟩ := hrun
  refine ⟨s, (System.Reachable.init noListeners_start).run hrun, hthreads, hlookup, fun hfollows => ?_⟩
  exact absurd (hfollows.listened "mail" _ hlookup) (by decide)

end EndaraRelay
