import EndaraRelay.Lib.History
import EndaraRelay.OAuth.FlowLocks

/-!
# Flows and resets

**Theorem (`reset_not_undone`).** In every run, once a reset is over, nothing is committed by the callback of a
flow that was started before it, and no start that sampled its generation before it starts a flow.

**The argument.** A flow has a generation of its endpoint, and if that is still the current one, no reset has
come since its sample (`allFresh`). While a callback commits, the generation of its flow stays the current one
(`commits_current`), because a reset would have to lock the endpoint too.

**The client record.** A start saves the client that it has registered before the manager refuses its flow, and
nothing orders this with a reset (`reset_then_clientSaved`). A reset keeps the client on purpose and drops
the grant only.
-/

namespace EndaraRelay.ResetFlows

open Verif

/-! ## The history of each thread -/

section Steps

variable {sh : FlowStores} {ts new : List FlowThread} {t t' u : FlowThread} {env : FlowAnswer} {a : FlowAct}
  {id start generation : Nat} {name : String} {held guarded : Nat → Bool} {flow : PendingFlow}

theorem PlainAct.events (h : PlainAct name held a) (m : OAuthFlowManager) : a.events m = [] := by
  cases h <;> rfl

theorem StartWork.owner (h : StartWork id name a) (m : OAuthFlowManager) :
    ∀ e ∈ a.events m, e.owner = none := by
  cases h with
  | pass => exact List.forall_mem_nil _
  | write file registered _ =>
    cases registered with
    | none => exact List.forall_mem_nil _
    | some i => exact List.forall_mem_singleton.2 rfl

theorem filter_owner_of_none {events : List FlowEvent} (h : ∀ e ∈ events, e.owner = none) :
    events.filter (·.owner.isSome) = [] := by
  rw [List.filter_eq_nil_iff]
  intro e he
  rw [h e he]
  exact Bool.false_ne_true

theorem StartPc.trace_of_generation {pc : StartPc} (h : pc ≠ .sampling) :
    (FlowThread.start id name pc).trace = [.sampled id name] := by
  cases pc with
  | sampling => exact absurd rfl h
  | _ => rfl

/-- What a thread adds to the history and to its own. -/
theorem FlowStep.traced (h : FlowStep sh ts env t a t' new) :
    t'.id = t.id ∧ (∀ e ∈ a.events sh.manager, e.owner = none ∨ e.owner = t.id) ∧
      t'.trace = t.trace ++ (a.events sh.manager).filter (·.owner.isSome) := by
  cases h with
  | @start id name pc pc' a h =>
    cases h with
    | sample h =>
      refine ⟨rfl, List.forall_mem_singleton.2 (.inr rfl), ?_⟩
      exact StartPc.trace_of_generation fun hpc => by simp [hpc, StartPc.generation] at h
    | @work pc pc' a generation h h' hwork =>
      have hpc : pc ≠ .sampling := fun hpc => by simp [hpc, StartPc.generation] at h
      have hpc' : pc' ≠ .sampling := by
        rintro rfl
        simp [StartPc.generation] at h'
      refine ⟨rfl, fun e he => .inl (hwork.owner _ e he), ?_⟩
      rw [filter_owner_of_none (hwork.owner _), List.append_nil, StartPc.trace_of_generation hpc,
        StartPc.trace_of_generation hpc']
    | register h hfresh => exact ⟨rfl, List.forall_mem_singleton.2 (.inl rfl), rfl⟩
  | quick hfresh =>
    refine ⟨rfl, ?_, rfl⟩
    exact List.forall_mem_cons.2 ⟨.inr rfl, List.forall_mem_singleton.2 (.inl rfl)⟩
  | callback h =>
    suffices hnone : ∀ e ∈ a.events sh.manager, e.owner = none by
      refine ⟨rfl, fun e he => .inl (hnone e he), ?_⟩
      rw [filter_owner_of_none hnone]
      rfl
    cases h with
    | @consume state pc' h h' =>
      rw [FlowAct.events]
      split
      · exact List.forall_mem_singleton.2 rfl
      · exact List.forall_mem_nil _
    | work h h' hcommits hwork =>
      rw [hwork.events]
      exact List.forall_mem_nil _
    | commit kind h hflow h' => exact List.forall_mem_singleton.2 rfl
  | reset h hnew =>
    cases h with
    | work h hwork =>
      rw [hwork.events]
      exact ⟨rfl, List.forall_mem_nil _, h.trans (List.append_nil _).symm⟩
    | _ => exact ⟨rfl, List.forall_mem_singleton.2 (.inr rfl), rfl⟩

end Steps

/-- Numbers are places, and the history has what each thread says. -/
structure Traced (s : FlowsState) : Prop where
  ids : ∀ i (t : FlowThread), s.threads[i]? = some t → ∀ n ∈ t.id, n = i
  traces : ∀ i, s.shared.log.filter (fun e => e.owner = some i) =
    (s.threads[i]?).elim [] FlowThread.trace

section Runs

variable {s : FlowsState}

/-- The places of the threads after a step. -/
theorem place_of_stepped {ts new : List FlowThread} {i j : Nat} {t' u : FlowThread}
    (hnew : new = [] ∨ ∃ name, new = [.start ts.length name .sampling])
    (h : (Pool.stepped ts i t' new)[j]? = some u) :
    j = i ∧ u = t' ∨ j ≠ i ∧ ts[j]? = some u ∨
      j = ts.length ∧ ∃ name, u = .start ts.length name .sampling := by
  by_cases hj : j < ts.length
  · have h' : (Pool.stepped ts i t' [])[j]? = some u := by
      unfold Pool.stepped at h ⊢
      rw [List.getElem?_append_left (by rwa [List.length_set])] at h
      rw [List.append_nil, h]
    exact (Pool.of_getElem?_stepped h').imp_right .inl
  · rw [Pool.stepped, List.getElem?_append_right (by rw [List.length_set]; omega), List.length_set] at h
    obtain rfl | ⟨name, rfl⟩ := hnew
    · cases h
    · rw [List.getElem?_singleton] at h
      split at h
      · cases h
        exact .inr (.inr ⟨by omega, name, rfl⟩)
      · cases h

theorem traced_launch (h : Traced s) {t : FlowThread} (hid : ∀ n ∈ t.id, n = s.threads.length)
    (htrace : t.trace = []) : Traced { s with threads := s.threads ++ [t] } := by
  constructor
  · intro i u hu n hn
    rw [List.getElem?_append] at hu
    split at hu
    · exact h.ids i u hu n hn
    · next hi =>
      rw [List.getElem?_singleton] at hu
      split at hu
      · cases hu
        rw [hid n hn]
        omega
      · cases hu
  · intro i
    rw [h.traces i, List.getElem?_append]
    split
    · rfl
    · next hi =>
      rw [List.getElem?_eq_none (Nat.le_of_not_lt hi), List.getElem?_singleton]
      split
      · exact htrace.symm
      · rfl

theorem traced_run {i : Nat} {t t' : FlowThread} {a : FlowAct} {env : FlowAnswer} {new : List FlowThread}
    (h : Traced s) (hi : s.threads[i]? = some t) (hst : FlowStep s.shared s.threads env t a t' new) :
    Traced ⟨s.shared.apply a, Pool.stepped s.threads i t' new⟩ := by
  obtain ⟨hid, howner, htrace⟩ := hst.traced
  obtain ⟨hlt, -⟩ := List.getElem?_eq_some_iff.1 hi
  have howned : ∀ e ∈ a.events s.shared.manager, e.owner = none ∨ e.owner = some i := by
    intro e he
    obtain hnone | heq := howner e he
    · exact .inl hnone
    · cases hn : t.id with
      | none => exact .inl (heq.trans hn)
      | some n => exact .inr (by rw [heq, hn, h.ids i t hi n hn])
  constructor
  · intro j u hu n hn
    obtain ⟨rfl, rfl⟩ | ⟨-, hj⟩ | ⟨rfl, name, rfl⟩ := place_of_stepped hst.spawns hu
    · exact h.ids _ t hi n (hid ▸ hn)
    · exact h.ids j u hj n hn
    · exact (Option.mem_some.1 hn).symm
  · intro j
    have hlog : (s.shared.apply a).log = s.shared.log ++ a.events s.shared.manager := rfl
    rw [hlog, List.filter_append, h.traces j]
    by_cases hj : j = i
    · subst hj
      rw [Pool.getElem?_stepped_self hi, hi]
      have hfilter : (a.events s.shared.manager).filter (fun e => e.owner = some j) =
          (a.events s.shared.manager).filter (·.owner.isSome) := by
        apply List.filter_congr
        intro e he
        obtain hnone | hsome := howned e he
        · simp [hnone]
        · simp [hsome]
      rw [hfilter]
      exact htrace.symm
    · have hfilter : (a.events s.shared.manager).filter (fun e => e.owner = some j) = [] := by
        rw [List.filter_eq_nil_iff]
        intro e he
        obtain hnone | hsome := howned e he
        · simp [hnone]
        · simpa [hsome] using Ne.symm hj
      rw [hfilter, List.append_nil]
      cases hu : (Pool.stepped s.threads i t' new)[j]? with
      | none =>
        cases hold : s.threads[j]? with
        | none => rfl
        | some v =>
          rw [Pool.getElem?_stepped_of_ne hold hj] at hu
          cases hu
      | some u =>
        obtain ⟨hji, -⟩ | ⟨-, hold⟩ | ⟨rfl, name, rfl⟩ := place_of_stepped hst.spawns hu
        · exact absurd hji hj
        · rw [hold]
        · rw [List.getElem?_eq_none (Nat.le_refl _)]
          rfl

/-- The history has the events of each thread. -/
theorem traced (h : flows.system.Reachable s) : Traced s := by
  refine Pool.invariant_of (I := fun _ => True) (J := Traced) (fun _ _ => trivial) ?_ ?_ ?_ h
  · intro sh hinit
    constructor
    · intro i t hi
      cases hi
    · intro i
      rw [hinit.2]
      rfl
  · intro s op t _ hJ _ ht
    refine traced_launch hJ ?_ ?_
    · cases op <;>
      · cases ht
        simp [FlowThread.id]
    · cases op <;>
      · cases ht
        rfl
  · intro s i env t sh' t' new _ hJ _ hi hst
    obtain ⟨a, hstep, rfl⟩ := flows_step hst
    exact traced_run hJ hi hstep

end Runs

/-! ## Generations -/

/-- The generation of a flow is one that its endpoint had, and no reset has come between its sample and now
if it is still the one of the endpoint. -/
structure Fresh (sh : FlowStores) (start : Nat) (name : String) (generation : Nat) : Prop where
  le : generation ≤ sh.manager.generation name
  unbroken : generation = sh.manager.generation name →
    ∀ reset, ¬ [.sampled start name, .invalidated reset name].Sublist sh.log

/-- How much an act bumps the generation of an endpoint. -/
def FlowAct.bumps (name : String) : FlowAct → Nat
  | invalidate _ name' => if name = name' then 1 else 0
  | _ => 0

section Steps

variable {sh : FlowStores} {ts new : List FlowThread} {t t' u : FlowThread} {env : FlowAnswer} {a : FlowAct}
  {start generation reset : Nat} {name : String} {flow : PendingFlow}

theorem generation_manager (m : OAuthFlowManager) (a : FlowAct) (name : String) :
    (a.manager m).generation name = m.generation name + a.bumps name := by
  cases a with
  | invalidate reset name' => exact OAuthFlowManager.generation_invalidateEndpoint
  | lock name' held => exact OAuthFlowManager.generation_commitLock
  | _ => rfl

theorem invalidate_of_mem {m : OAuthFlowManager} (h : .invalidated reset name ∈ a.events m) :
    a = .invalidate reset name := by
  cases a with
  | invalidate reset' name' =>
    cases List.mem_singleton.1 h
    rfl
  | consume state now =>
    rw [FlowAct.events] at h
    split at h
    · cases List.mem_singleton.1 h
    · cases h
  | write name' file registered =>
    cases registered with
    | none => cases h
    | some start => cases List.mem_singleton.1 h
  | _ => simp [FlowAct.events] at h

/-- **Steps keep flows fresh**, or make them stale. -/
theorem Fresh.apply (h : Fresh sh start name generation) (a : FlowAct) :
    Fresh (sh.apply a) start name generation := by
  have hgen : (sh.apply a).manager.generation name = sh.manager.generation name + a.bumps name :=
    generation_manager _ _ _
  have hle := h.le
  refine ⟨by omega, fun hcurrent reset hpattern => ?_⟩
  have hnot : .invalidated reset name ∉ a.events sh.manager := by
    intro hmem
    have hbumps : a.bumps name = 1 := by
      rw [invalidate_of_mem hmem, FlowAct.bumps, if_pos rfl]
    omega
  exact h.unbroken (by omega) reset (History.sublist_of_append (o := [_]) hpattern hnot)

/-- A flow that is sampled now is fresh. -/
theorem fresh_sample (hnew : .sampled start name ∉ sh.log) {events : List FlowEvent}
    (hevents : ∀ reset, .invalidated reset name ∉ events) (reset : Nat) :
    ¬ [.sampled start name, .invalidated reset name].Sublist (sh.log ++ events) := by
  intro hpattern
  have := History.sublist_of_append (o := [_]) hpattern (hevents reset)
  exact hnew (this.subset (by simp))

end Steps

/-- What a thread knows of its flow: the start, the endpoint and the generation. -/
def FlowThread.carries : FlowThread → Option (Nat × String × Nat)
  | start id name pc => pc.generation.map fun generation => (id, name, generation)
  | callback pc => pc.flow.map fun flow => (flow.start, flow.endpointName, flow.generation)
  | _ => none

/-- The flow of every thread is fresh, and so is every flow that waits. -/
structure AllFresh (s : FlowsState) : Prop where
  threads : ∀ t ∈ s.threads, ∀ c ∈ t.carries, Fresh s.shared c.1 c.2.1 c.2.2
  pending : ∀ state flow, s.shared.manager.pending.lookup state = some flow →
    Fresh s.shared flow.start flow.endpointName flow.generation

section Runs

variable {s : FlowsState} {sh : FlowStores} {ts new : List FlowThread} {t t' : FlowThread} {env : FlowAnswer}
  {a : FlowAct}

/-- A thread that has not sampled has no event yet. -/
theorem notMem_of_trace (h : Traced s) {i : Nat} (hi : s.threads[i]? = some t) (htrace : t.trace = [])
    (name : String) : .sampled i name ∉ s.shared.log := by
  intro hmem
  have : FlowEvent.sampled i name ∈ s.shared.log.filter fun e => e.owner = some i :=
    List.mem_filter.2 ⟨hmem, by simp [FlowEvent.owner]⟩
  rw [h.traces i, hi, Option.elim_some, htrace] at this
  cases this

/-- The flow of a thread after its step is the one it had, or one that it samples or consumes. -/
theorem FlowStep.carries (h : FlowStep sh ts env t a t' new) {c : Nat × String × Nat} (hc : c ∈ t'.carries) :
    c ∈ t.carries ∨
      (∃ id name, t.id = some id ∧ t.trace = [] ∧ a = .sample id name ∧
        c = (id, name, sh.manager.generation name)) ∨
      ∃ state flow, sh.manager.consumed state env.now = some flow ∧
        c = (flow.start, flow.endpointName, flow.generation) := by
  cases h with
  | @start id name pc pc' a h =>
    obtain ⟨generation, hgen, rfl⟩ := Option.map_eq_some_iff.1 hc
    cases h with
    | sample h =>
      rw [h] at hgen
      cases hgen
      exact .inr (.inl ⟨id, name, rfl, rfl, rfl, rfl⟩)
    | work h h' hwork =>
      obtain rfl | h' := h'
      · cases hgen
      · rw [h', ← h] at hgen
        exact .inl (Option.map_eq_some_iff.2 ⟨generation, hgen, rfl⟩)
    | register h hfresh => cases hgen
  | quick hfresh => cases hc
  | callback h =>
    obtain ⟨flow, hflow, rfl⟩ := Option.map_eq_some_iff.1 hc
    cases h with
    | @consume state pc' h h' => exact .inr (.inr ⟨state, flow, h.symm.trans hflow, rfl⟩)
    | work h h' hcommits hwork =>
      obtain rfl | h' := h'
      · cases hflow
      · rw [h', ← h] at hflow
        exact .inl (Option.map_eq_some_iff.2 ⟨flow, hflow, rfl⟩)
    | commit kind h hflow' h' =>
      obtain rfl | h' := h'
      · cases hflow
      · rw [h', ← hflow'] at hflow
        exact .inl (Option.map_eq_some_iff.2 ⟨flow, hflow, rfl⟩)
  | reset h hnew => cases hc

/-- The flows that wait after an act waited before, or are started by it. -/
theorem lookup_pending_manager {m : OAuthFlowManager} {state : String} {flow : PendingFlow}
    (h : (a.manager m).pending.lookup state = some flow) :
    m.pending.lookup state = some flow ∨ a = .register state flow ∨
      ∃ flow₀, a = .startFlow state flow₀ ∧
        flow = { flow₀ with generation := m.generation flow₀.endpointName } := by
  cases a with
  | register state' flow' =>
    obtain ⟨rfl, rfl⟩ | hold := OAuthFlowManager.lookup_pending_insert h
    · exact .inr (.inl rfl)
    · exact .inl hold
  | startFlow state' flow' =>
    obtain ⟨rfl, rfl⟩ | hold := OAuthFlowManager.lookup_pending_insert h
    · exact .inr (.inr ⟨flow', rfl, rfl⟩)
    · exact .inl hold
  | consume state' now => exact .inl (OAuthFlowManager.lookup_pending_consumeFlow h).2
  | lock name held =>
    rw [FlowAct.manager, OAuthFlowManager.pending_commitLock] at h
    exact .inl h
  | invalidate reset name => exact .inl (OAuthFlowManager.lookup_pending_invalidateEndpoint h).1
  | _ => exact .inl h

theorem FlowStep.register {state : String} {flow : PendingFlow}
    (h : FlowStep sh ts env t (.register state flow) t' new) :
    (flow.start, flow.endpointName, flow.generation) ∈ t.carries ∧
      flow.generation = sh.manager.generation flow.endpointName ∧ sh.issued state = false := by
  cases h with
  | start h =>
    cases h with
    | work h h' hwork => cases hwork
    | register h hfresh => exact ⟨rfl, h, hfresh⟩
  | callback h =>
    cases h with
    | work h h' hcommits hwork => cases hwork
  | reset h hnew =>
    cases h with
    | work h hwork => cases hwork

theorem FlowStep.startFlow {state : String} {flow : PendingFlow}
    (h : FlowStep sh ts env t (.startFlow state flow) t' new) :
    t.id = some flow.start ∧ t.trace = [] ∧ sh.issued state = false := by
  cases h with
  | start h =>
    cases h with
    | work h h' hwork => cases hwork
  | quick hfresh => exact ⟨rfl, rfl, hfresh⟩
  | callback h =>
    cases h with
    | work h h' hcommits hwork => cases hwork
  | reset h hnew =>
    cases h with
    | work h hwork => cases hwork

theorem allFresh_run (htraced : Traced s) (h : AllFresh s) {i : Nat} (hi : s.threads[i]? = some t)
    (hst : FlowStep s.shared s.threads env t a t' new) :
    AllFresh ⟨s.shared.apply a, Pool.stepped s.threads i t' new⟩ := by
  have hown := h.threads t (List.mem_of_getElem? hi)
  have hnotMem {id : Nat} (hid : t.id = some id) (htrace : t.trace = []) (name : String) :
      .sampled id name ∉ s.shared.log := by
    obtain rfl : id = i := htraced.ids i t hi id hid
    exact notMem_of_trace htraced hi htrace name
  constructor
  · refine Pool.forall_mem_stepped ?_ ?_ ?_
    · intro c hc
      obtain hc | ⟨id, name, hid, htrace, rfl, rfl⟩ | ⟨state, flow, hconsumed, rfl⟩ := hst.carries hc
      · exact (hown c hc).apply a
      · refine ⟨Nat.le_refl _, fun _ => fresh_sample (hnotMem hid htrace name) fun reset hmem => ?_⟩
        cases List.mem_singleton.1 hmem
      · exact (h.pending state flow (OAuthFlowManager.consumed_eq_some hconsumed).1).apply a
    · intro u hu c hc
      obtain rfl | ⟨name, rfl⟩ := hst.spawns
      · cases hu
      · cases List.mem_singleton.1 hu
        cases hc
    · intro j u _ hj c hc
      exact (h.threads u (List.mem_of_getElem? hj) c hc).apply a
  · intro state flow hflow
    obtain hold | rfl | ⟨flow₀, rfl, rfl⟩ := lookup_pending_manager hflow
    · exact (h.pending state flow hold).apply a
    · exact (hown _ hst.register.1).apply _
    · obtain ⟨hid, htrace, -⟩ := hst.startFlow
      refine ⟨Nat.le_refl _, fun _ => fresh_sample (hnotMem hid htrace _) fun reset hmem => ?_⟩
      simp [FlowAct.events] at hmem

/-- **All flows are fresh or stale.** -/
theorem allFresh (h : flows.system.Reachable s) : AllFresh s := by
  refine Pool.invariant_of (J := AllFresh) (fun s hs => traced hs) ?_ ?_ ?_ h
  · intro sh hinit
    constructor
    · intro t ht
      cases ht
    · intro state flow hflow
      rw [hinit.1] at hflow
      cases hflow
  · intro s op t _ hJ _ ht
    refine ⟨fun u hu c hc => ?_, hJ.pending⟩
    rcases List.mem_append.1 hu with hu | hu
    · exact hJ.threads u hu c hc
    · rw [List.mem_singleton.1 hu] at hc
      cases op <;>
      · cases ht
        cases hc
  · intro s i env t sh' t' new htraced hJ _ hi hst
    obtain ⟨a, hstep, rfl⟩ := flows_step hst
    exact allFresh_run htraced hJ hi hstep

end Runs

section Runs

variable {s : FlowsState} {i j : Nat} {t u : FlowThread} {name : String}

/-! ## Commits -/

theorem PlainAct.bumps {a : FlowAct} {held : Nat → Bool} (h : PlainAct name held a) (name' : String) :
    a.bumps name' = 0 := by
  cases h <;> rfl

theorem flow_of_commits {pc : CallbackPc} {flow : PendingFlow} (h : pc.commits = some flow) :
    pc.flow = some flow := by
  cases pc with
  | committing flow' lock | savingTokens flow' lock | applyingClient flow' lock | applyingTokens flow' lock =>
    exact h
  | _ => cases h

/-- What is committed is current, for as long as the lock is held. -/
theorem commits_current (h : flows.system.Reachable s) : ∀ t ∈ s.threads, ∀ flow ∈ t.commits,
    flow.generation = s.shared.manager.generation flow.endpointName := by
  refine Pool.forall_threads_of (I := flows.system.Reachable)
    (L := fun sh t => ∀ flow ∈ t.commits, flow.generation = sh.manager.generation flow.endpointName)
    (fun _ h => h) ?_ ?_ ?_ h
  · intro s op t _ ht flow hflow
    cases op <;>
    · cases ht
      cases hflow
  · intro s i env t sh' t' new _ _ hi ht hst
    obtain ⟨a, hstep, rfl⟩ := flows_step hst
    refine ⟨fun flow hflow => ?_, fun u hu flow hflow => ?_⟩
    · cases hstep with
      | callback hpc =>
        have hgen : ∀ name, ((s.shared.apply a).manager).generation name =
            s.shared.manager.generation name + a.bumps name := generation_manager _ _
        have hflow' := flow_of_commits (Option.mem_def.1 hflow)
        cases hpc with
        | consume h h' =>
          rw [FlowThread.commits, h'] at hflow
          cases hflow
        | @work pc pc' a flow₀ h h' hcommits hwork =>
          obtain rfl | h' := h'
          · cases hflow
          · rw [h'] at hflow'
            cases hflow'
            rw [hgen, hwork.bumps, Nat.add_zero]
            obtain hnone | hold | hcurrent := hcommits
            · rw [FlowThread.commits, hnone] at hflow
              cases hflow
            · exact ht flow hold
            · exact hcurrent
        | @commit pc pc' flow₀ kind h hpc h' =>
          obtain rfl | h' := h'
          · cases hflow
          · rw [h'] at hflow'
            cases hflow'
            exact ht flow h
      | _ => cases hflow
    · obtain rfl | ⟨name, rfl⟩ := hstep.spawns
      · cases hu
      · cases List.mem_singleton.1 hu
        cases hflow
  · intro s i env t sh' t' new j u hreach _ hi hj hne _ hu hst flow hflow
    obtain ⟨a, hstep, rfl⟩ := flows_step hst
    have hgen : (s.shared.apply a).manager.generation flow.endpointName =
        s.shared.manager.generation flow.endpointName + a.bumps flow.endpointName := generation_manager _ _ _
    have hbumps : a.bumps flow.endpointName = 0 := by
      cases a with
      | invalidate reset name =>
        rw [FlowAct.bumps, if_neg]
        rintro rfl
        -- the endpoint would be locked twice
        obtain ⟨lock, ht⟩ := hstep.guards_of_invalidate
        obtain ⟨lock', hu'⟩ := guards_of_commits (Option.mem_def.1 hflow)
        exact endpoint_exclusive hreach hi hj hne ht hu'
      | _ => rfl
    rw [hgen, hbumps, Nat.add_zero]
    exact hu flow hflow

theorem FlowStep.commit {sh : FlowStores} {ts new : List FlowThread} {t t' : FlowThread} {env : FlowAnswer}
    {flow : PendingFlow} {kind : FlowCommit} (h : FlowStep sh ts env t (.commit flow kind) t' new) :
    t.commits = some flow ∧ (flow.start, flow.endpointName, flow.generation) ∈ t.carries := by
  cases h with
  | start h =>
    cases h with
    | work h h' hwork => cases hwork
  | callback h =>
    cases h with
    | work h h' hcommits hwork => cases hwork
    | commit kind h hflow h' => exact ⟨h, Option.map_eq_some_iff.2 ⟨flow, hflow, rfl⟩⟩
  | reset h hnew =>
    cases h with
    | work h hwork => cases hwork

def FlowEvent.uses : FlowEvent → Option (Nat × String)
  | registered start name _ | committed start name _ => some (start, name)
  | _ => none

/-- What uses a flow comes after no reset that came after its sample. -/
theorem event_unbroken (h : flows.system.Reachable s) {env : FlowAnswer} {t t' : FlowThread}
    {new : List FlowThread} {a : FlowAct} (hi : s.threads[i]? = some t)
    (hst : FlowStep s.shared s.threads env t a t' new) {start reset : Nat} {e : FlowEvent}
    (he : e ∈ a.events s.shared.manager) (huses : e.uses = some (start, name)) :
    ¬ [.sampled start name, .invalidated reset name, e].Sublist
      (s.shared.log ++ a.events s.shared.manager) := by
  intro hpattern
  have hfresh := (allFresh h).threads t (List.mem_of_getElem? hi)
  cases a with
  | register state flow =>
    obtain ⟨hcarries, hcurrent, -⟩ := hst.register
    obtain rfl := List.mem_singleton.1 he
    cases huses
    obtain hold | ⟨-, hpair⟩ := History.sublist_concat (o := [_, _]) hpattern
    · exact (hfresh _ hcarries).unbroken hcurrent reset ((List.sublist_append_left [_, _] [_]).trans hold)
    · exact (hfresh _ hcarries).unbroken hcurrent reset hpair
  | commit flow kind =>
    obtain ⟨hcommits, hcarries⟩ := hst.commit
    have hcurrent := commits_current h t (List.mem_of_getElem? hi) flow hcommits
    obtain rfl := List.mem_singleton.1 he
    cases huses
    obtain hold | ⟨-, hpair⟩ := History.sublist_concat (o := [_, _]) hpattern
    · exact (hfresh _ hcarries).unbroken hcurrent reset ((List.sublist_append_left [_, _] [_]).trans hold)
    · exact (hfresh _ hcarries).unbroken hcurrent reset hpair
  | startFlow state flow =>
    obtain ⟨hid, htrace, -⟩ := hst.startFlow
    obtain rfl : flow.start = i := (traced h).ids i t hi _ hid
    have hnew := notMem_of_trace (traced h) hi htrace
    obtain rfl | he := List.mem_cons.1 he
    · cases huses
    · obtain rfl := List.mem_singleton.1 he
      cases huses
      have hpair := (List.sublist_append_left [_, _] [_]).trans hpattern
      refine fresh_sample (hnew _) (fun reset hmem => ?_) reset hpair
      simp [FlowAct.events] at hmem
  | consume state now =>
    rw [FlowAct.events] at he
    split at he
    · cases List.mem_singleton.1 he
      cases huses
    · cases he
  | write name' file registered =>
    cases registered with
    | none => cases he
    | some start' =>
      cases List.mem_singleton.1 he
      cases huses
  | pass => cases he
  | lock name' held => cases he
  | _ =>
    cases List.mem_singleton.1 he
    cases huses

/-- **No flow is used once a reset has come after its sample.** -/
theorem uses_unbroken (h : flows.system.Reachable s) {start reset : Nat} {e : FlowEvent}
    (huses : e.uses = some (start, name)) :
    ¬ [.sampled start name, .invalidated reset name, e].Sublist s.shared.log := by
  refine Pool.invariant_of (I := flows.system.Reachable)
    (J := fun s => ¬ [FlowEvent.sampled start name, .invalidated reset name, e].Sublist s.shared.log)
    (fun _ h => h) ?_ ?_ ?_ h
  · intro sh hinit hpattern
    rw [hinit.2] at hpattern
    cases hpattern
  · intro s op t _ hJ _ _
    exact hJ
  · intro s i env t sh' t' new hreach hJ _ hi hst
    obtain ⟨a, hstep, rfl⟩ := flows_step hst
    intro hpattern
    by_cases he : e ∈ a.events s.shared.manager
    · exact event_unbroken hreach hi hstep he huses hpattern
    · exact hJ (History.sublist_of_append (o := [_, _]) hpattern he)

/-! ## State values -/

/-- State values are given out before they are consumed, and consumed once and in time. -/
structure StatesUsed (sh : FlowStores) : Prop where
  pending : ∀ state flow, sh.manager.pending.lookup state = some flow →
    sh.issued state = true ∧ ∀ age, .consumed state age ∉ sh.log
  consumed : ∀ state age, .consumed state age ∈ sh.log → sh.issued state = true ∧ age ≤ pendingFlowMaxAge
  once : ∀ state age age', ¬ [.consumed state age, .consumed state age'].Sublist sh.log

theorem issued_apply {sh : FlowStores} {a : FlowAct} {state : String} (h : sh.issued state = true) :
    (sh.apply a).issued state = true := by
  rw [FlowStores.issued] at h ⊢
  exact (List.any_append ..).trans (by rw [h, Bool.true_or])

theorem consumed_mem_events {m : OAuthFlowManager} {a : FlowAct} {state : String} {age : Nat}
    (h : .consumed state age ∈ a.events m) : ∃ now flow, a = .consume state now ∧
      m.consumed state now = some flow ∧ age = now - flow.createdAt ∧
        a.events m = [.consumed state age] := by
  cases a with
  | consume state' now =>
    rw [FlowAct.events] at h
    split at h
    · next flow hflow =>
      cases List.mem_singleton.1 h
      exact ⟨now, flow, rfl, hflow, rfl, by rw [FlowAct.events, hflow]⟩
    · cases h
  | write name' file registered =>
    cases registered with
    | none => cases h
    | some start' => cases List.mem_singleton.1 h
  | _ => simp [FlowAct.events] at h

theorem statesUsed_apply {sh : FlowStores} {a : FlowAct} (h : StatesUsed sh)
    (hregister : ∀ state flow, a = .register state flow → sh.issued state = false)
    (hstart : ∀ state flow, a = .startFlow state flow → sh.issued state = false) :
    StatesUsed (sh.apply a) := by
  have hlog : (sh.apply a).log = sh.log ++ a.events sh.manager := rfl
  constructor
  · intro state flow hlookup
    have hfresh (hunissued : sh.issued state = false) (hno : ∀ age, .consumed state age ∉ a.events sh.manager)
        (age : Nat) : .consumed state age ∉ (sh.apply a).log := by
      rw [hlog, List.mem_append]
      rintro (hold | hnew)
      · rw [(h.consumed state age hold).1] at hunissued
        cases hunissued
      · exact hno age hnew
    obtain hold | rfl | ⟨flow₀, rfl, rfl⟩ := lookup_pending_manager hlookup
    · obtain ⟨hissued, hnot⟩ := h.pending state flow hold
      refine ⟨issued_apply hissued, fun age hmem => ?_⟩
      obtain hmem | hmem := List.mem_append.1 (hlog ▸ hmem)
      · exact hnot age hmem
      · obtain ⟨now, flow', rfl, -⟩ := consumed_mem_events hmem
        exact (OAuthFlowManager.lookup_pending_consumeFlow hlookup).1 rfl
    · exact ⟨by simp [FlowStores.issued, hlog, FlowAct.events],
        hfresh (hregister _ _ rfl) fun age => by simp [FlowAct.events]⟩
    · exact ⟨by simp [FlowStores.issued, hlog, FlowAct.events],
        hfresh (hstart _ _ rfl) fun age => by simp [FlowAct.events]⟩
  · intro state age hmem
    obtain hmem | hmem := List.mem_append.1 (hlog ▸ hmem)
    · obtain ⟨hissued, hage⟩ := h.consumed state age hmem
      exact ⟨issued_apply hissued, hage⟩
    · obtain ⟨now, flow, rfl, hconsumed, rfl, -⟩ := consumed_mem_events hmem
      obtain ⟨hlookup, hage⟩ := OAuthFlowManager.consumed_eq_some hconsumed
      exact ⟨issued_apply (h.pending state flow hlookup).1, hage⟩
  · intro state age age' hpattern
    by_cases hmem : .consumed state age' ∈ a.events sh.manager
    · obtain ⟨now, flow, -, hconsumed, -, hevents⟩ := consumed_mem_events hmem
      have hnot := (h.pending state flow (OAuthFlowManager.consumed_eq_some hconsumed).1).2
      rw [hlog, hevents] at hpattern
      obtain hold | ⟨-, hone⟩ := History.sublist_concat (o := [_]) hpattern
      · exact h.once state age age' hold
      · exact hnot age (List.singleton_sublist.1 hone)
    · exact h.once state age age' (History.sublist_of_append (o := [_]) hpattern hmem)

theorem statesUsed (h : flows.system.Reachable s) : StatesUsed s.shared := by
  refine Pool.invariant_of (I := fun _ => True) (J := fun s => StatesUsed s.shared) (fun _ _ => trivial)
    ?_ ?_ ?_ h
  · intro sh hinit
    constructor
    · intro state flow hlookup
      rw [hinit.1] at hlookup
      cases hlookup
    · intro state age hmem
      rw [hinit.2] at hmem
      cases hmem
    · intro state age age' hpattern
      rw [hinit.2] at hpattern
      cases hpattern
  · intro s op t _ hJ _ _
    exact hJ
  · intro s i env t sh' t' new _ hJ _ hi hst
    obtain ⟨a, hstep, rfl⟩ := flows_step hst
    refine statesUsed_apply hJ ?_ ?_
    · rintro state flow rfl
      exact hstep.register.2.2
    · rintro state flow rfl
      exact hstep.startFlow.2.2

/-! ## Resets that are over -/

/-- A reset that is over has begun and has invalidated its endpoint, in this order. -/
theorem events_of_finished (h : Traced s) {reset : Nat} (hfinished : .resetFinished reset name ∈ s.shared.log) :
    s.shared.log.filter (fun e => e.owner = some reset) =
      [.resetBegan reset name, .invalidated reset name, .resetFinished reset name] := by
  have hmem : FlowEvent.resetFinished reset name ∈ s.shared.log.filter fun e => e.owner = some reset :=
    List.mem_filter.2 ⟨hfinished, by simp [FlowEvent.owner]⟩
  rw [h.traces reset] at hmem ⊢
  cases ht : s.threads[reset]? with
  | none =>
    rw [ht] at hmem
    cases hmem
  | some t =>
    rw [ht, Option.elim_some] at hmem
    rw [Option.elim_some]
    cases t with
    | reset id name' pc =>
      obtain rfl : id = reset := h.ids reset _ ht id rfl
      cases pc with
      | ended =>
        obtain rfl : name' = name := by simpa [FlowThread.trace, ResetPc.trace, eq_comm] using hmem
        rfl
      | _ => simp [FlowThread.trace, ResetPc.trace] at hmem
    | start id name' pc =>
      cases pc <;> simp [FlowThread.trace] at hmem
    | _ => simp [FlowThread.trace] at hmem

theorem unused_after_reset (h : flows.system.Reachable s) {start reset : Nat} {e : FlowEvent}
    (huses : e.uses = some (start, name)) :
    ¬ [.sampled start name, .resetBegan reset name, .resetFinished reset name, e].Sublist s.shared.log := by
  intro hpattern
  have hfinished : FlowEvent.resetFinished reset name ∈ s.shared.log := hpattern.subset (by simp)
  have hevents := events_of_finished (traced h) hfinished
  exact uses_unbroken h huses (History.passes_between hevents (by simp) hpattern)

/-- **A reset is not undone.** Once it is over, the callback of a flow that was started before it commits
nothing, and a start that sampled its generation before it starts no flow. Every state value is consumed at
most once, and in its lifetime. -/
theorem reset_not_undone (h : flows.system.Reachable s) (start reset : Nat) (name : String) :
    (∀ kind, ¬ [.sampled start name, .resetBegan reset name, .resetFinished reset name,
        .committed start name kind].Sublist s.shared.log) ∧
      (∀ state, ¬ [.sampled start name, .resetBegan reset name, .resetFinished reset name,
        .registered start name state].Sublist s.shared.log) ∧
      (∀ state age age', ¬ [.consumed state age, .consumed state age'].Sublist s.shared.log) ∧
      ∀ state age, .consumed state age ∈ s.shared.log → age ≤ pendingFlowMaxAge := by
  have hstates := statesUsed h
  refine ⟨fun kind => unused_after_reset h rfl, fun state => unused_after_reset h rfl, hstates.once, ?_⟩
  exact fun state age hmem => (hstates.consumed state age hmem).2

end Runs

/-! ## Runs -/

def firstStores : FlowStores := ⟨.new, fun _ => none, []⟩

theorem firstStores_init : flows.system.init ⟨firstStores, []⟩ := ⟨⟨rfl, rfl⟩, rfl⟩

/-- A reset of thread `i`, up to its end. -/
def resetSteps (i : Nat) : List (Pool.Action FlowOp FlowAnswer) := List.replicate 9 (.run i {})

/-- A start with a client in the config. -/
def startSteps (i : Nat) (state : String) : List (Pool.Action FlowOp FlowAnswer) :=
  [.run i { config := { clientId := some "client" } }, .run i {}, .run i { registers := false },
    .run i { state }]

/-- A start, a reset with the start that follows it, and the callbacks of both flows. -/
def resetBetween : List (Pool.Action FlowOp FlowAnswer) :=
  .launch (.start "ep") :: startSteps 0 "first" ++ .launch (.reset "ep") :: resetSteps 1 ++
    startSteps 2 "second" ++ [.launch (.callback "first"), .run 3 {}, .launch (.callback "second")] ++
      List.replicate 11 (.run 4 {})

theorem resetBetween_run : ∃ s, flows.system.run ⟨firstStores, []⟩ resetBetween = some s ∧
    s.shared.log = [.sampled 0 "ep", .registered 0 "ep" "first", .resetBegan 1 "ep", .invalidated 1 "ep",
      .resetFinished 1 "ep", .sampled 2 "ep", .registered 2 "ep" "second", .consumed "second" 0,
      .committed 2 "ep" .tokensSaved, .committed 2 "ep" .clientApplied, .committed 2 "ep" .tokensApplied] :=
  ⟨_, rfl, rfl⟩

/-- The flow of the start that follows the reset is committed, that of the start before it is not. -/
theorem reset_not_undone_between : ∃ s, flows.system.Reachable s ∧
    .committed 2 "ep" .tokensSaved ∈ s.shared.log ∧
    (∀ kind, ¬ [.sampled 0 "ep", .resetBegan 1 "ep", .resetFinished 1 "ep",
        .committed 0 "ep" kind].Sublist s.shared.log) ∧
      (∀ state, ¬ [.sampled 0 "ep", .resetBegan 1 "ep", .resetFinished 1 "ep",
        .registered 0 "ep" state].Sublist s.shared.log) ∧
      (∀ state age age', ¬ [.consumed state age, .consumed state age'].Sublist s.shared.log) ∧
      ∀ state age, .consumed state age ∈ s.shared.log → age ≤ pendingFlowMaxAge := by
  obtain ⟨s, hrun, hlog⟩ := resetBetween_run
  have hreach := (System.Reachable.init firstStores_init).run hrun
  refine ⟨s, hreach, ?_, reset_not_undone hreach 0 1 "ep"⟩
  rw [hlog]
  decide

/-- A start registers a client before a reset, and saves it after. -/
def savedAfterReset : List (Pool.Action FlowOp FlowAnswer) :=
  [.launch (.start "ep"), .run 0 {}, .run 0 {}, .run 0 { registration := .ok ⟨"registered", none, 0⟩ }] ++
    .launch (.reset "ep") :: resetSteps 1 ++ [.run 0 {}]

theorem savedAfterReset_run : ∃ s, flows.system.run ⟨firstStores, []⟩ savedAfterReset = some s ∧
    s.shared.log = [.sampled 0 "ep", .resetBegan 1 "ep", .invalidated 1 "ep", .resetFinished 1 "ep",
      .clientSaved 0 "ep"] ∧
    s.shared.files "ep" = some (.record (firstRegistration ⟨"registered", none, 0⟩ none 0)) :=
  ⟨_, rfl, rfl, rfl⟩

/-- The client that a start has registered is saved after a reset that began after the start. -/
theorem reset_then_clientSaved : ∃ s, flows.system.Reachable s ∧
    [.sampled 0 "ep", .resetBegan 1 "ep", .resetFinished 1 "ep", .clientSaved 0 "ep"].Sublist s.shared.log ∧
    s.shared.files "ep" = some (.record (firstRegistration ⟨"registered", none, 0⟩ none 0)) := by
  obtain ⟨s, hrun, hlog, hfile⟩ := savedAfterReset_run
  refine ⟨s, (System.Reachable.init firstStores_init).run hrun, ?_, hfile⟩
  rw [hlog]
  decide

end EndaraRelay.ResetFlows
