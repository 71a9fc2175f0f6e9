import EndaraRelay.Http.Adapter

/-!
# Who does what

Each act belongs to one kind of thread: an *owner* has `&mut self`, a *request* has `&self`, and the
commits of handshakes and the installs of listeners are done under the handshake lock
(`HttpThread.Steps.author`). An owner is alone with the supervisor and the streams
(`borrowed`), and one thread at a time holds the handshake lock (`handshakeLock`).
-/

namespace EndaraRelay.Http

open Verif

/-! ## Authors -/

namespace Act

/-- The acts of `initialize` and `shutdown` themselves. -/
def byOwner : Act → Bool
  | .beginInitialize | .clearInitializeFromUnhealthy | .setShuttingDown _ | .drainListener
  | .clearHandshakeCompleted | .setStopped => true
  | _ => false

/-- The accounting of requests. -/
def byRequest : Act → Bool
  | .noteRequestSuccess | .noteTransportFailure => true
  | _ => false

/-- The acts that need the handshake lock. -/
def underLock : Act → Bool
  | .beginInitialize | .setHandshakeUnhealthy _ _ _ | .commit2026Handshake _ | .markHandshakeHealthy
  | .installListener _ | .commitServerIdentity _ | .commitSession _ | .setUpstreamDialect _ => true
  | _ => false

end Act

theorem ReplacePc.author_of_step (sh : HttpAdapter) (repair lockFree : Bool) (pc : ReplacePc) :
    (pc.step sh repair lockFree).1.byOwner = false ∧ (pc.step sh repair lockFree).1.byRequest = false ∧
      ((pc.step sh repair lockFree).1.underLock = true → pc.holdsHandshake = true) := by
  cases pc with
  | install sessionId => exact ⟨rfl, rfl, fun _ => rfl⟩
  | _ => exact ⟨rfl, rfl, fun h => by cases h⟩

variable {sh : HttpAdapter} {c : HttpChoice} {act : Act} {lockFree supervised : Bool}
  {new ts : List HttpThread} {t t' : HttpThread} {op : HttpOperation}

theorem HandshakePc.author_of_step {pc pc' : HandshakePc} {supervisorAttempt : Bool}
    (h : pc.step sh supervisorAttempt c = some (act, pc')) :
    act.byOwner = false ∧ act.byRequest = false := by
  revert h
  fun_cases HandshakePc.step sh supervisorAttempt pc c <;> intro h <;> cases h
  case case16 flipped => cases flipped <;> exact ⟨rfl, rfl⟩
  case case17 flipped => cases flipped <;> exact ⟨rfl, rfl⟩
  all_goals exact ⟨rfl, rfl⟩

theorem SupervisorPc.author_of_step {pc pc' : SupervisorPc}
    (h : pc.step sh lockFree c = some (act, pc')) :
    act.byOwner = false ∧ act.byRequest = false ∧ (act.underLock = true → pc.holdsHandshake = true) := by
  revert h
  fun_cases SupervisorPc.step sh lockFree pc c <;> intro h
  case case24 pc _ =>
    obtain ⟨⟨act, pc'⟩, hstep, heq⟩ := Option.map_eq_some_iff.1 h
    cases heq
    obtain ⟨howner, hrequest⟩ := HandshakePc.author_of_step hstep
    exact ⟨howner, hrequest, fun _ => rfl⟩
  case case31 pc next =>
    cases h
    exact ReplacePc.author_of_step sh false lockFree pc
  all_goals cases h
  all_goals exact ⟨rfl, rfl, fun h => by cases h⟩

theorem TrackedPc.author_of_step {pc pc' : TrackedPc} (h : pc.step sh lockFree c = some (act, pc')) :
    act.byOwner = false ∧ (act.underLock = true → pc.holdsHandshake = true) := by
  revert h
  fun_cases TrackedPc.step sh lockFree pc c <;> intro h <;> cases h
  case case9 f pc next =>
    obtain ⟨howner, -, hlock⟩ := ReplacePc.author_of_step sh true lockFree pc
    exact ⟨howner, hlock⟩
  case case10 f flippedTo pc next =>
    obtain ⟨howner, -, hlock⟩ := ReplacePc.author_of_step sh false lockFree pc
    exact ⟨howner, hlock⟩
  all_goals exact ⟨rfl, fun h => by cases h⟩

theorem InitializePc.author_of_step {pc pc' : InitializePc}
    (h : pc.step sh lockFree c = some (act, pc')) :
    act.byRequest = false ∧ (act.underLock = true → pc.holdsHandshake = true) := by
  revert h
  fun_cases InitializePc.step sh lockFree pc c <;> intro h
  case case7 pc _ =>
    obtain ⟨⟨act, pc'⟩, hstep, heq⟩ := Option.map_eq_some_iff.1 h
    cases heq
    exact ⟨(HandshakePc.author_of_step hstep).2, fun _ => rfl⟩
  all_goals cases h
  case case4 => exact ⟨rfl, fun _ => rfl⟩
  all_goals exact ⟨rfl, fun h => by cases h⟩

theorem ShutdownPc.author_of_step {pc pc' : ShutdownPc} (h : pc.step supervised = some (act, pc')) :
    act.byRequest = false ∧ act.underLock = false := by
  revert h
  fun_cases ShutdownPc.step supervised pc <;> intro h <;> cases h <;> exact ⟨rfl, rfl⟩

/-- **Each act has its author.** -/
theorem HttpThread.Steps.author (h : HttpThread.Steps sh ts c t act t' new) (hstreams : t.Streams) :
    (act.byOwner = true → t.owns = true) ∧ (act.byRequest = true → t.borrows = true) ∧
      (act.underLock = true → t.holdsHandshake = true) := by
  cases h with
  | @request pc pc' act hstep =>
    obtain ⟨howner, hlock⟩ := TrackedPc.author_of_step hstep
    refine ⟨by simp [howner], fun _ => ?_, hlock⟩
    cases pc with
    | returned => cases hstep
    | failed => cases hstep
    | _ => rfl
  | supervisor hstep =>
    obtain ⟨howner, hrequest, hlock⟩ := SupervisorPc.author_of_step hstep
    exact ⟨by simp [howner], by simp [hrequest], hlock⟩
  | @initializing pc pc' act hstep =>
    obtain ⟨hrequest, hlock⟩ := InitializePc.author_of_step hstep
    refine ⟨fun _ => ?_, by simp [hrequest], hlock⟩
    cases pc with
    | returned => cases hstep
    | _ => rfl
  | @shutdown pc pc' act hstep =>
    obtain ⟨hrequest, hlock⟩ := ShutdownPc.author_of_step hstep
    refine ⟨fun _ => ?_, by simp [hrequest], by simp [hlock]⟩
    cases pc with
    | returned => cases hstep
    | _ => rfl
  | stream =>
    cases act with
    | listenerAnswered => refine ⟨?_, ?_, ?_⟩ <;> intro h <;> cases h
    | listenerEnded => refine ⟨?_, ?_, ?_⟩ <;> intro h <;> cases h
    | _ => cases hstreams
  | _ => refine ⟨?_, ?_, ?_⟩ <;> intro h <;> cases h

/-! ## The borrow of the adapter -/

namespace HttpThread

/-- A thread keeps its borrow until it returns. -/
theorem Steps.borrow (h : HttpThread.Steps sh ts c t act t' new) :
    (t'.owns = true → t.owns = true) ∧ (t'.borrows = true → t.borrows = true) := by
  cases h with
  | @request pc pc' act hstep =>
    refine ⟨(fun h => by cases h), fun _ => ?_⟩
    cases pc with
    | returned => cases hstep
    | failed => cases hstep
    | _ => rfl
  | supervisor hstep => refine ⟨?_, ?_⟩ <;> intro h <;> cases h
  | @initializing pc pc' act hstep =>
    refine ⟨fun _ => ?_, (fun h => by cases h)⟩
    cases pc with
    | returned => cases hstep
    | _ => rfl
  | @shutdown pc pc' act hstep =>
    refine ⟨fun _ => ?_, (fun h => by cases h)⟩
    cases pc with
    | returned => cases hstep
    | _ => rfl
  | requestEnsures => exact ⟨(fun h => by cases h), fun _ => rfl⟩
  | retryEnsures => exact ⟨fun _ => rfl, fun h => by cases h⟩
  | initializedEnsures => refine ⟨?_, ?_⟩ <;> intro h <;> cases h
  | stream => refine ⟨?_, ?_⟩ <;> intro h <;> cases h

/-- Neither has the adapter to itself while the other one has it. -/
def Apart (t u : HttpThread) : Prop :=
  (t.owns = true → u.owns = false ∧ u.borrows = false) ∧
    (u.owns = true → t.owns = false ∧ t.borrows = false)

theorem Apart.symm {t u : HttpThread} (h : t.Apart u) : u.Apart t := ⟨h.2, h.1⟩

theorem apart_of_not {t u : HttpThread} (howns : t.owns = false) (hborrows : t.borrows = false) :
    t.Apart u := by
  refine ⟨fun h => ?_, fun _ => ⟨howns, hborrows⟩⟩
  rw [howns] at h
  cases h

end HttpThread

/-- A launched owner finds the adapter free, and a launched request finds no owner. -/
theorem HttpOperation.apart_of_thread (h : op.thread ts = some t) : ∀ u ∈ ts, t.Apart u := by
  intro u hu
  have hfree (hany : ¬ ts.any (fun t => t.owns || t.borrows) = true) :
      u.owns = false ∧ u.borrows = false := by
    rw [Bool.not_eq_true, List.any_eq_false] at hany
    simpa using hany u hu
  have hunowned (hany : ¬ ts.any (·.owns) = true) : u.owns = false := by
    rw [Bool.not_eq_true, List.any_eq_false] at hany
    simpa using hany u hu
  revert h
  fun_cases HttpOperation.thread ts op <;> intro h <;> cases h
  case case2 hany => exact ⟨(fun h => by cases h), fun ho => by rw [hunowned hany] at ho; cases ho⟩
  case case4 hany => exact ⟨(fun h => by cases h), fun ho => by rw [hunowned hany] at ho; cases ho⟩
  case case6 hany => exact ⟨fun _ => hfree hany, fun ho => by rw [(hfree hany).1] at ho; cases ho⟩
  case case8 hany => exact ⟨fun _ => hfree hany, fun ho => by rw [(hfree hany).1] at ho; cases ho⟩
  case case9 => exact HttpThread.apart_of_not rfl rfl
  case case10 => exact HttpThread.apart_of_not rfl rfl

variable {ok : HttpState → HttpAction → Prop} {s : HttpState}

/-- **An owner is alone** with the supervisor and the streams. -/
theorem borrowed (h : httpAdapter.system.ReachableWhile ok s) :
    s.threads.Pairwise HttpThread.Apart := by
  refine Pool.pairwise (P := httpAdapter) (fun _ _ h => h.symm) ?_ ?_ ?_ h
  · intro sh ts op t ht u hu
    exact (HttpOperation.apart_of_thread ht u hu).symm
  · intro sh ts t c sh' t' new u hstep hapart
    obtain ⟨act, hsteps, -⟩ := httpAdapter_steps hstep
    obtain ⟨howns, hborrows⟩ := hsteps.borrow
    refine ⟨fun ho => hapart.1 (howns ho), fun hu => ?_⟩
    obtain ⟨ho, hb⟩ := hapart.2 hu
    constructor
    · exact Bool.eq_false_iff.2 fun ht => Bool.eq_false_iff.1 ho (howns ht)
    · exact Bool.eq_false_iff.2 fun ht => Bool.eq_false_iff.1 hb (hborrows ht)
  · intro sh ts t c sh' t' new hstep u hu v
    obtain ⟨act, hsteps, -⟩ := httpAdapter_steps hstep
    obtain ⟨rfl, -⟩ := hsteps.spawned u hu
    exact HttpThread.apart_of_not rfl rfl

/-! ## The handshake lock -/

theorem ReplacePc.holds_of_step {repair lockFree : Bool} {pc pc' : ReplacePc}
    (h : (pc.step sh repair lockFree).2 = some pc') (hpc' : pc'.holdsHandshake = true) :
    pc.holdsHandshake = true ∨ lockFree = true := by
  cases pc with
  | check =>
    left
    simp only [ReplacePc.step] at h
    split at h <;> cases h
    cases hpc'
  | tryLock =>
    cases lockFree with
    | true => exact .inr rfl
    | false =>
      cases h
      cases hpc'
  | «defer» => cases h
  | _ => exact .inl rfl

theorem SupervisorPc.holds_of_step {pc pc' : SupervisorPc} (h : pc.step sh lockFree c = some (act, pc'))
    (hpc' : pc'.holdsHandshake = true) : pc.holdsHandshake = true ∨ lockFree = true := by
  revert h
  fun_cases SupervisorPc.step sh lockFree pc c <;> intro h
  case case24 => exact .inl rfl
  case case31 pc next =>
    cases h
    cases hnext : next.2 with
    | none =>
      rw [hnext] at hpc'
      cases hpc'
    | some pc' =>
      rw [hnext] at hpc'
      exact ReplacePc.holds_of_step hnext hpc'
  all_goals cases h
  case case14 hfree => exact .inr hfree
  case case7 | case8 | case12 | case13 =>
    left
    split at hpc' <;> cases hpc'
  all_goals first | exact .inl rfl | cases hpc'

theorem TrackedPc.holds_of_step {pc pc' : TrackedPc} (h : pc.step sh lockFree c = some (act, pc'))
    (hpc' : pc'.holdsHandshake = true) : pc.holdsHandshake = true ∨ lockFree = true := by
  revert h
  fun_cases TrackedPc.step sh lockFree pc c <;> intro h <;> cases h
  case case9 f pc next =>
    cases hnext : next.2 with
    | none =>
      rw [hnext] at hpc'
      cases hpc'
    | some pc' =>
      rw [hnext] at hpc'
      exact ReplacePc.holds_of_step hnext hpc'
  case case10 f flippedTo pc next =>
    cases hnext : next.2 with
    | none =>
      rw [hnext] at hpc'
      cases hpc'
    | some pc' =>
      rw [hnext] at hpc'
      exact ReplacePc.holds_of_step hnext hpc'
  case case2 | case7 => split at hpc' <;> cases hpc'
  case case6 f =>
    unfold TrackedPc.accounted at hpc'
    split at hpc'
    · cases hpc'
    · split at hpc' <;> cases hpc'
  all_goals cases hpc'

theorem InitializePc.holds_of_step {pc pc' : InitializePc} (h : pc.step sh lockFree c = some (act, pc'))
    (hpc' : pc'.holdsHandshake = true) : pc.holdsHandshake = true ∨ lockFree = true := by
  revert h
  fun_cases InitializePc.step sh lockFree pc c <;> intro h
  case case7 => exact .inl rfl
  all_goals cases h
  case case2 hfree => exact .inr hfree
  case case10 | case11 => split at hpc' <;> cases hpc'
  all_goals first | exact .inl rfl | cases hpc'

theorem HttpThread.Steps.holds (h : HttpThread.Steps sh ts c t act t' new)
    (ht' : t'.holdsHandshake = true) :
    t.holdsHandshake = true ∨ (!ts.any (·.holdsHandshake)) = true := by
  cases h with
  | request hstep => exact TrackedPc.holds_of_step hstep ht'
  | supervisor hstep => exact SupervisorPc.holds_of_step hstep ht'
  | initializing hstep => exact InitializePc.holds_of_step hstep ht'
  | _ => cases ht'

/-- **One thread at a time** holds the handshake lock. -/
theorem handshakeLock (h : httpAdapter.system.ReachableWhile ok s) :
    s.threads.Pairwise fun t u => ¬ (t.holdsHandshake = true ∧ u.holdsHandshake = true) := by
  refine Pool.exclusive (P := httpAdapter) (H := fun _ t => t.holdsHandshake = true) ?_ ?_ ?_ ?_ h
  · intro sh ts op t ht
    change op.thread ts = some t at ht
    revert ht
    fun_cases HttpOperation.thread ts op <;> intro ht <;> cases ht <;> intro h <;> cases h
  · intro sh ts t c sh' t' new hstep ht'
    obtain ⟨act, hsteps, -⟩ := httpAdapter_steps hstep
    refine (hsteps.holds ht').imp_right fun hfree u hu => ?_
    rw [Bool.not_eq_true', List.any_eq_false] at hfree
    exact hfree u hu
  · intro sh ts t c sh' t' new hstep u hu
    obtain ⟨act, hsteps, -⟩ := httpAdapter_steps hstep
    obtain ⟨rfl, -⟩ := hsteps.spawned u hu
    intro h
    cases h
  · intro _ _ _ _ _ _ _ _ _ hu
    exact hu

/-- Nobody else does what needs the lock while a thread holds it. -/
theorem not_underLock (h : httpAdapter.system.ReachableWhile ok s) {i j : Nat} {t u u' : HttpThread}
    (hi : s.threads[i]? = some t) (ht : t.holdsHandshake = true) (hj : s.threads[j]? = some u)
    (hne : j ≠ i) (hsteps : HttpThread.Steps s.shared s.threads c u act u' new) :
    act.underLock = false := by
  rw [← Bool.not_eq_true]
  intro hact
  have hu := (hsteps.author (streams h u (List.mem_of_getElem? hj))).2.2 hact
  exact Pool.not_holds_of_ne (H := fun _ t => t.holdsHandshake = true) (handshakeLock h) hi ht hj hne hu

/-! ## The supervisor of a shutdown -/

/-- The supervisor is told to end. -/
def ShutdownPc.signalled : ShutdownPc → Bool
  | .join | .drain | .clearCompleted | .stop => true
  | _ => false

/-- The supervisor has ended. -/
def ShutdownPc.joined : ShutdownPc → Bool
  | .drain | .clearCompleted | .stop => true
  | _ => false

/-- In a shutdown there is no supervisor any more once it is joined. -/
def Joined (s : HttpState) : Prop :=
  ∀ pc, .shutdown pc ∈ s.threads → (pc.signalled = true → s.shared.shuttingDown = true) ∧
    (pc.joined = true → ∀ u ∈ s.threads, u.supervises = false)

theorem ShutdownPc.owns_of_signalled {pc : ShutdownPc} (h : pc.signalled = true) :
    (HttpThread.shutdown pc).owns = true := by
  cases pc with
  | returned => cases h
  | _ => rfl

theorem ShutdownPc.signalled_of_joined {pc : ShutdownPc} (h : pc.joined = true) : pc.signalled = true := by
  cases pc with
  | signal => cases h
  | returned => cases h
  | _ => rfl

theorem shuttingDown_of_perform (hact : ∀ value, act ≠ .setShuttingDown value) :
    (sh.perform act).shuttingDown = sh.shuttingDown := by
  cases act with
  | setShuttingDown value => exact absurd rfl (hact value)
  | noteRequestSuccess | noteTransportFailure | setHandshakeUnhealthy =>
    exact perform_onHealth (·.shuttingDown = sh.shuttingDown) rfl fun _ _ _ _ _ => rfl
  | commit2026Handshake identity =>
    simp only [HttpAdapter.perform, HttpAdapter.markHealthyLocked, HttpAdapter.installListener]
    split <;> rfl
  | installListener sessionId =>
    simp only [HttpAdapter.perform, HttpAdapter.installListener]
    split <;> rfl
  | drainListener | listenerEnded => exact perform_onTask (·.shuttingDown = sh.shuttingDown) rfl fun _ _ => rfl
  | _ => rfl

theorem HttpThread.Steps.supervises (h : HttpThread.Steps sh ts c t act t' new)
    (ht' : t'.supervises = true) : t.supervises = true := by
  cases h with
  | @supervisor pc pc' act hstep =>
    cases pc with
    | ended => cases hstep
    | _ => rfl
  | _ => cases ht'

theorem HttpOperation.not_supervises (h : op.thread ts = some t) : t.supervises = false := by
  revert h
  fun_cases HttpOperation.thread ts op <;> intro h <;> cases h <;> rfl

theorem HttpOperation.signal_of_shutdown {pc : ShutdownPc} (h : op.thread ts = some (.shutdown pc)) :
    pc = .signal := by
  revert h
  fun_cases HttpOperation.thread ts op <;> intro h <;> cases h
  rfl

theorem ShutdownPc.joined_of_step {pc pc' : ShutdownPc} (h : pc.step supervised = some (act, pc'))
    (hsignalled : pc.signalled = true → sh.shuttingDown = true) :
    (pc'.signalled = true → (sh.perform act).shuttingDown = true) ∧
      (pc'.joined = true → pc.joined = true ∨ supervised = false) := by
  revert h
  fun_cases ShutdownPc.step supervised pc <;> intro h <;> cases h
  case case1 => exact ⟨fun _ => rfl, fun h => by cases h⟩
  case case3 hfree => exact ⟨fun _ => hsignalled rfl, fun _ => .inr (Bool.eq_false_iff.2 hfree)⟩
  case case4 =>
    refine ⟨fun _ => ?_, fun _ => .inl rfl⟩
    rw [shuttingDown_of_perform (by rintro value ⟨⟩)]
    exact hsignalled rfl
  case case5 => exact ⟨fun _ => hsignalled rfl, fun _ => .inl rfl⟩
  case case6 => refine ⟨?_, ?_⟩ <;> intro h <;> cases h

/-- **No supervisor outlives the join of a shutdown.** -/
theorem joined (h : httpAdapter.system.ReachableWhile ok s) : Joined s := by
  refine Pool.invariant_of (P := httpAdapter)
    (I := fun s => (∀ t ∈ s.threads, t.Streams) ∧ s.threads.Pairwise HttpThread.Apart) (J := Joined)
    (fun s hs => ⟨streams hs, borrowed hs⟩) ?_ ?_ ?_ h
  · intro sh _ pc hpc
    cases hpc
  · intro s op t _ hJ _ ht pc hpc
    rcases List.mem_append.1 hpc with hpc | hpc
    · obtain ⟨hsignalled, hjoined⟩ := hJ pc hpc
      refine ⟨hsignalled, fun hj u hu => ?_⟩
      rcases List.mem_append.1 hu with hu | hu
      · exact hjoined hj u hu
      · rw [List.mem_singleton.1 hu]
        exact HttpOperation.not_supervises ht
    · obtain rfl := HttpOperation.signal_of_shutdown (ht.trans (by rw [← List.mem_singleton.1 hpc]))
      refine ⟨?_, ?_⟩ <;> intro h <;> cases h
  · intro s i c t sh t' new hI hJ _ hi hstep pc hpc
    obtain ⟨act, hsteps, rfl⟩ := httpAdapter_steps hstep
    have hti := List.mem_of_getElem? hi
    rcases Pool.mem_stepped hpc with rfl | hpc | ⟨j, hne, hj⟩
    · cases hsteps with
      | shutdown hthread =>
        obtain ⟨hsignalled, hjoined⟩ := hJ _ hti
        obtain ⟨hsignals, hjoins⟩ := ShutdownPc.joined_of_step hthread hsignalled
        refine ⟨hsignals, fun hj => Pool.forall_mem_stepped rfl (List.forall_mem_nil _) ?_⟩
        intro j u _ hu
        obtain hj | hfree := hjoins hj
        · exact hjoined hj u (List.mem_of_getElem? hu)
        · rw [List.any_eq_false] at hfree
          exact Bool.eq_false_iff.2 (hfree u (List.mem_of_getElem? hu))
    · obtain ⟨hpc, -⟩ := hsteps.spawned _ hpc
      cases hpc
    · -- Another thread than the shutdown itself.
      obtain ⟨hsignalled, hjoined⟩ := hJ pc (List.mem_of_getElem? hj)
      have hflag (hs : pc.signalled = true) : (s.shared.perform act).shuttingDown = true := by
        rw [shuttingDown_of_perform, hsignalled hs]
        rintro value rfl
        have howns := (hsteps.author (hI.1 t hti)).1 rfl
        obtain ⟨-, hapart⟩ := Pool.rel_of_ne (fun _ _ h => h.symm) hI.2 hi hj hne
        rw [(hapart (ShutdownPc.owns_of_signalled hs)).1] at howns
        cases howns
      refine ⟨hflag, fun hj' => Pool.forall_mem_stepped ?_ ?_ ?_⟩
      · rw [← Bool.not_eq_true]
        intro ht'
        have ht := hsteps.supervises ht'
        rw [hjoined hj' t hti] at ht
        cases ht
      · intro u hu
        obtain ⟨-, hsd, -⟩ := hsteps.spawned u hu
        rw [hsignalled (ShutdownPc.signalled_of_joined hj')] at hsd
        cases hsd
      · intro k u _ hk
        exact hjoined hj' u (List.mem_of_getElem? hk)

end EndaraRelay.Http
