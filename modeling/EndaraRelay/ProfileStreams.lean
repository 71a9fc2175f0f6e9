import Mathlib.Data.List.Perm.Basic
import EndaraRelay.Lib.Broadcast
import EndaraRelay.Lib.Transition
import EndaraRelay.ProfileListing

/-!
# The streams of a profile

A `GET` on `/mcp/{profile}/sse` is answered with a stream on which the client is sent a
`notifications/tools/list_changed` when what the profile lists has changed (`build_mcp_sse_stream`, `server.rs`).

**The model.** A mutation is written first, and its ticks are sent some time after (`inFlight`). Each stream
has a receiver on both channels, which lags when it falls behind by more than the channel holds. The task of
a stream takes a tick, looks up the profile as it is by then, and puts a frame into the channel to the client
when it forwards the tick. Whether a stream is owed a frame (`owed`) is not part of the code: it is, once what
its profile lists has changed, until the next frame.

**The slip.** Which ticks are forwarded goes by the endpoints of the profile. What it lists does not: see
`ProfileListing`. When `chat` outside the profile is disabled and `mail` in it is all that is left, the tool
`mail__send` becomes `send`, and the stream is not told (`outside_endpoint_untold`).

**Theorem (`profile_streams_told`).** In every run in which each mutation is audible to the profiles with an
open stream, each open stream that has handled all ticks is owed nothing, and gets there by a bounded number
of its own steps. The invariant is that a stream that is owed a frame has one coming (`Foretold`), and
`owed_settles_iff` says that nothing less will do.
-/

namespace EndaraRelay.ProfileStreams

open Verif

/-! ## A stream -/

/-- How much is held by the channels for ticks, and by the channel of a stream to its client. -/
def channelCapacity : Nat := 16

inductive SseEvent where
  | endpoint (data : String)
  /-- `FRAME_BODY`. -/
  | toolsListChanged
deriving DecidableEq

/-- Where the task of a stream is. -/
inductive Phase where
  /-- At the `select!`. -/
  | waiting
  /-- The profile is looked up, to see whether the tick is forwarded. -/
  | resolving (name : String)
  /-- There is a frame to send. -/
  | sending
  | closed
deriving DecidableEq

structure ProfileStream where
  path : String
  toolsRx : Receiver String
  profilesRx : Receiver String
  phase : Phase
  /-- What the client has not read yet. -/
  outbox : List SseEvent
  /-- What the profile lists has changed since the last frame. -/
  owed : Prop

/-- What there is to do at the next step with what is received on the channel of the endpoints. -/
def afterToolsTick : Received String → Phase
  | .lagged => .sending
  | .value name => if name = relayWideToolsChanged then .sending else .resolving name

/-- And on the channel of the profiles. -/
def afterProfilesTick (path : String) : Received String → Phase
  | .lagged => .sending
  | .value p => if p = path then .sending else .waiting

/-- The steps of a stream. -/
inductive StreamOp where
  | receiveTools
  | receiveProfiles
  | resolve
  | send
  | read
  | close
deriving DecidableEq

namespace ProfileStream

/-- A stream subscribes to both channels, and sends its first event. -/
def subscribed (profilePath : String) : ProfileStream where
  path := toAsciiLowercase profilePath
  toolsRx := {}
  profilesRx := {}
  phase := .waiting
  outbox := [.endpoint ("/mcp/" ++ profilePath)]
  owed := False

def publish (st : ProfileStream) : CatalogTick → ProfileStream
  | .tools name => { st with toolsRx := st.toolsRx.publish channelCapacity name }
  | .profile path => { st with profilesRx := st.profilesRx.publish channelCapacity path }

/-- A step of the stream, or of its client; `none` when it is not there to be taken. -/
def step (profiles : List ProfileSettings) (st : ProfileStream) : StreamOp → Option ProfileStream
  | .receiveTools =>
    if st.phase = .waiting then
      st.toolsRx.recv.map fun (got, rx) => { st with toolsRx := rx, phase := afterToolsTick got }
    else none
  | .receiveProfiles =>
    if st.phase = .waiting then
      st.profilesRx.recv.map fun (got, rx) =>
        { st with profilesRx := rx, phase := afterProfilesTick st.path got }
    else none
  | .resolve =>
    match st.phase with
    | .resolving name =>
      some { st with phase := if inProfile profiles st.path name then .sending else .waiting }
    | _ => none
  | .send =>
    if st.phase = .sending ∧ st.outbox.length < channelCapacity then
      some { st with phase := .waiting, outbox := st.outbox ++ [.toolsListChanged], owed := False }
    else none
  | .read =>
    match st.phase, st.outbox with
    | .closed, _ => none
    | _, [] => none
    | _, _ :: outbox => some { st with outbox }
  | .close => if st.phase = .closed then none else some { st with phase := .closed }

/-- A mutation puts a stream into debt when the listing of its profile is not what it was. -/
def note (before after : Option (List Json)) (st : ProfileStream) : ProfileStream :=
  { st with owed := st.owed ∨ after ≠ before }

end ProfileStream

/-! ## The relay with its streams -/

structure StreamedRelay (A : Type) where
  relay : AdvertisedRelay A
  /-- The ticks of mutations that are written, not sent yet. -/
  inFlight : List CatalogTick
  streams : List ProfileStream

inductive Act (A : Type) where
  | mutate (m : CatalogMutation A)
  /-- A tick is sent to all receivers. -/
  | announce (k : Nat)
  | subscribe (profilePath : String)
  | stream (i : Nat) (op : StreamOp)

variable {A : Type} [AdvertisedAdapter A]

namespace StreamedRelay

def mutate (lower : String → String) (s : StreamedRelay A) (m : CatalogMutation A) : StreamedRelay A where
  relay := m.apply s.relay
  inFlight := s.inFlight ++ m.ticks s.relay
  streams := s.streams.map fun st =>
    st.note (profileListing lower s.relay st.path) (profileListing lower (m.apply s.relay) st.path)

def announce (s : StreamedRelay A) (k : Nat) (t : CatalogTick) : StreamedRelay A :=
  { s with inFlight := s.inFlight.eraseIdx k, streams := s.streams.map fun st => st.publish t }

/-- `mcp_sse_profiled`: there is no stream without a profile. -/
def subscribe (s : StreamedRelay A) (profilePath : String) : Option (StreamedRelay A) :=
  if (profileMap s.relay.profiles (toAsciiLowercase profilePath)).isSome then
    some { s with streams := s.streams ++ [.subscribed profilePath] }
  else none

def stepStream (s : StreamedRelay A) (i : Nat) (op : StreamOp) : Option (StreamedRelay A) :=
  (s.streams[i]?).bind fun st =>
    (st.step s.relay.profiles op).map fun st' => { s with streams := s.streams.set i st' }

def step (lower : String → String) (s : StreamedRelay A) : Act A → Option (StreamedRelay A)
  | .mutate m => some (s.mutate lower m)
  | .announce k => (s.inFlight[k]?).map (s.announce k)
  | .subscribe profilePath => s.subscribe profilePath
  | .stream i op => s.stepStream i op

end StreamedRelay

/-- The relay starts with any endpoints and profiles, and no stream. -/
def relaySystem (lower : String → String) : System (StreamedRelay A) (Act A) where
  init s := s.inFlight = [] ∧ s.streams = []
  step := StreamedRelay.step lower

/-- Every mutation is audible to the profiles with an open stream. -/
def Heard (s : StreamedRelay A) : Act A → Prop
  | .mutate m => ∀ st ∈ s.streams, st.phase ≠ .closed → m.Audible s.relay st.path
  | _ => True

/-! ## A frame that is coming -/

/-- The task is about to send a frame, or will be once it has looked up the profile. -/
def Phase.Foretells (profiles : List ProfileSettings) (path : String) : Phase → Prop
  | .sending => True
  | .resolving name => inProfile profiles path name = true
  | .waiting | .closed => False

/-- A stream has a frame coming: from where its task is, from a tick that it is going to receive and forward, or
from one that is still to be sent. -/
def Foretold (profiles : List ProfileSettings) (inFlight : List CatalogTick) (st : ProfileStream) : Prop :=
  st.phase.Foretells profiles st.path ∨
    (st.toolsRx.Carries fun name => (CatalogTick.tools name).forwarded profiles st.path = true) ∨
    (st.profilesRx.Carries fun path => path = st.path) ∨
    ∃ t ∈ inFlight, t.forwarded profiles st.path = true

/-- Every tick is handled. -/
structure Settled (s : StreamedRelay A) (st : ProfileStream) : Prop where
  inFlight : s.inFlight = []
  phase : st.phase = .waiting
  toolsRx : st.toolsRx.backlog = 0
  profilesRx : st.profilesRx.backlog = 0

/-- The steps that handle the ticks of a stream. -/
def Serves (i : Nat) : Act A → Prop
  | .announce _ => True
  | .stream j op => j = i ∧ op ≠ .close
  | _ => False

/-- How many steps of the task and its client a stream is from being settled, at most. -/
def streamWork (st : ProfileStream) : Nat :=
  5 * (st.toolsRx.backlog + st.profilesRx.backlog) + st.outbox.length +
    match st.phase with
    | .resolving _ => 3
    | .sending => 2
    | .waiting | .closed => 0

def work (s : StreamedRelay A) (st : ProfileStream) : Nat := 6 * s.inFlight.length + streamWork st

/-- **A stream is told**: once all is handled it is owed nothing, it can go on until then, and it cannot go on
for long. -/
structure Told (lower : String → String) (s : StreamedRelay A) (i : Nat) (st : ProfileStream) : Prop where
  paid : Settled s st → ¬ st.owed
  progress : ¬ Settled s st → ∃ a s', Serves i a ∧ s.step lower a = some s'
  bounded : ∀ as s', (∀ a ∈ as, Serves i a) → (relaySystem lower).run s as = some s' → as.length ≤ work s st

/-! ## Steps of a stream -/

section Stream

variable {profiles profiles' : List ProfileSettings} {inFlight inFlight' : List CatalogTick} {st st' : ProfileStream}
  {op : StreamOp} {path : String}

theorem foretells_waiting : Phase.waiting.Foretells profiles path ↔ False := Iff.rfl

/-- What is done with a tick that is forwarded. -/
theorem foretells_afterToolsTick {got : Received String} :
    (afterToolsTick got).Foretells profiles path ↔
      got.Passes fun name => (CatalogTick.tools name).forwarded profiles path = true := by
  cases got with
  | lagged => simp [Received.Passes, afterToolsTick, Phase.Foretells]
  | value name =>
    by_cases hname : name = relayWideToolsChanged
    · simp [Received.Passes, afterToolsTick, Phase.Foretells, CatalogTick.forwarded, hname]
    · simp [Received.Passes, afterToolsTick, Phase.Foretells, CatalogTick.forwarded, hname]

theorem foretells_afterProfilesTick {got : Received String} :
    (afterProfilesTick path got).Foretells profiles path ↔ got.Passes fun p => p = path := by
  cases got with
  | lagged => simp [Received.Passes, afterProfilesTick, Phase.Foretells]
  | value p =>
    by_cases hp : p = path
    · simp [Received.Passes, afterProfilesTick, Phase.Foretells, hp]
    · simp [Received.Passes, afterProfilesTick, Phase.Foretells, hp]

theorem step_receiveTools (h : st.step profiles .receiveTools = some st') :
    ∃ got rx, st.phase = .waiting ∧ st.toolsRx.recv = some (got, rx) ∧
      st' = { st with toolsRx := rx, phase := afterToolsTick got } := by
  simp only [ProfileStream.step] at h
  split at h
  · next hphase =>
    obtain ⟨⟨got, rx⟩, hrecv, rfl⟩ := Option.map_eq_some_iff.mp h
    exact ⟨got, rx, hphase, hrecv, rfl⟩
  · cases h

theorem step_receiveProfiles (h : st.step profiles .receiveProfiles = some st') :
    ∃ got rx, st.phase = .waiting ∧ st.profilesRx.recv = some (got, rx) ∧
      st' = { st with profilesRx := rx, phase := afterProfilesTick st.path got } := by
  simp only [ProfileStream.step] at h
  split at h
  · next hphase =>
    obtain ⟨⟨got, rx⟩, hrecv, rfl⟩ := Option.map_eq_some_iff.mp h
    exact ⟨got, rx, hphase, hrecv, rfl⟩
  · cases h

theorem step_resolve (h : st.step profiles .resolve = some st') :
    ∃ name, st.phase = .resolving name ∧
      st' = { st with phase := if inProfile profiles st.path name then .sending else .waiting } := by
  simp only [ProfileStream.step] at h
  split at h
  · next name hphase =>
    cases h
    exact ⟨name, hphase, rfl⟩
  · cases h

theorem step_send (h : st.step profiles .send = some st') :
    st.phase = .sending ∧
      st' = { st with phase := .waiting, outbox := st.outbox ++ [.toolsListChanged], owed := False } := by
  simp only [ProfileStream.step] at h
  split at h
  · next hsend =>
    cases h
    exact ⟨hsend.1, rfl⟩
  · cases h

theorem step_read (h : st.step profiles .read = some st') :
    ∃ e outbox, st.phase ≠ .closed ∧ st.outbox = e :: outbox ∧ st' = { st with outbox } := by
  simp only [ProfileStream.step] at h
  split at h
  · cases h
  · cases h
  · next e outbox hout hphase =>
    cases h
    exact ⟨e, outbox, hphase, hout, rfl⟩

theorem step_close (h : st.step profiles .close = some st') : st' = { st with phase := .closed } := by
  simp only [ProfileStream.step] at h
  split at h
  · cases h
  · cases h
    rfl

/-- **A step neither loses a frame that is coming nor makes one up**; it sends it, or it is still coming. -/
theorem foretold_iff_of_step (hop : op ≠ .close) (h : st.step profiles op = some st') :
    Foretold profiles inFlight st ↔ op = .send ∨ Foretold profiles inFlight st' := by
  cases op with
  | receiveTools =>
    obtain ⟨got, rx, hphase, hrecv, rfl⟩ := step_receiveTools h
    simp only [Foretold, hphase, Receiver.carries_iff_of_recv hrecv, foretells_afterToolsTick, foretells_waiting,
      reduceCtorEq, false_or, or_assoc]
  | receiveProfiles =>
    obtain ⟨got, rx, hphase, hrecv, rfl⟩ := step_receiveProfiles h
    simp only [Foretold, hphase, Receiver.carries_iff_of_recv hrecv, foretells_afterProfilesTick,
      foretells_waiting, reduceCtorEq, false_or, or_assoc]
    exact or_left_comm
  | resolve =>
    obtain ⟨name, hphase, rfl⟩ := step_resolve h
    by_cases hin : inProfile profiles st.path name = true
    · simp [Foretold, hphase, Phase.Foretells, hin]
    · simp [Foretold, hphase, Phase.Foretells, hin]
  | send =>
    obtain ⟨hphase, -⟩ := step_send h
    refine iff_of_true (.inl ?_) (.inl rfl)
    rw [hphase]
    trivial
  | read =>
    obtain ⟨e, outbox, -, -, rfl⟩ := step_read h
    simp only [Foretold, reduceCtorEq, false_or]
  | close => exact absurd rfl hop

/-- Only sending pays, and a stream stays on its path. -/
theorem owed_of_step (h : st.step profiles op = some st') :
    st'.path = st.path ∧ (st'.owed ↔ op ≠ .send ∧ st.owed) := by
  cases op with
  | receiveTools =>
    obtain ⟨got, rx, -, -, rfl⟩ := step_receiveTools h
    simp
  | receiveProfiles =>
    obtain ⟨got, rx, -, -, rfl⟩ := step_receiveProfiles h
    simp
  | resolve =>
    obtain ⟨name, -, rfl⟩ := step_resolve h
    simp
  | send =>
    obtain ⟨-, rfl⟩ := step_send h
    simp
  | read =>
    obtain ⟨e, outbox, -, -, rfl⟩ := step_read h
    simp
  | close =>
    obtain rfl := step_close h
    simp

end Stream

/-! ## What is coming stays so -/

section Kept

variable {profiles profiles' : List ProfileSettings} {inFlight : List CatalogTick} {st : ProfileStream}
  {path : String} {t : CatalogTick} {k : Nat}

theorem forwarded_congr (h : ∀ name, inProfile profiles' path name = inProfile profiles path name)
    (t : CatalogTick) : t.forwarded profiles' path = t.forwarded profiles path := by
  cases t with
  | tools name => simp only [CatalogTick.forwarded, h]
  | profile p => rfl

theorem foretells_congr (h : ∀ name, inProfile profiles' path name = inProfile profiles path name)
    {phase : Phase} : phase.Foretells profiles' path ↔ phase.Foretells profiles path := by
  cases phase with
  | resolving name => simp only [Phase.Foretells, h]
  | waiting | sending | closed => exact Iff.rfl

omit [AdvertisedAdapter A] in
/-- **A mutation takes away nothing that is coming**: where it takes an endpoint out of the profile, the path
has a tick of its own. -/
theorem foretold_mutate (m : CatalogMutation A) (relay : AdvertisedRelay A)
    (h : Foretold relay.profiles inFlight st) :
    Foretold (m.apply relay).profiles (inFlight ++ m.ticks relay) st := by
  obtain ⟨t, ht, hfwd⟩ | hsame := inProfile_apply m relay st.path
  · exact .inr (.inr (.inr ⟨t, List.mem_append_right _ ht, hfwd⟩))
  · obtain h | h | h | ⟨t, ht, hfwd⟩ := h
    · exact .inl ((foretells_congr hsame).mpr h)
    · exact .inr (.inl (h.mono fun name _ hname => (forwarded_congr hsame (.tools name)).trans hname))
    · exact .inr (.inr (.inl h))
    · exact .inr (.inr (.inr ⟨t, List.mem_append_left _ ht, (forwarded_congr hsame t).trans hfwd⟩))

/-- What is in flight is the tick that is sent and the others. -/
theorem mem_inFlight (hk : inFlight[k]? = some t) (t' : CatalogTick) :
    t' ∈ inFlight ↔ t' = t ∨ t' ∈ inFlight.eraseIdx k := by
  obtain ⟨hlt, rfl⟩ := List.getElem?_eq_some_iff.mp hk
  have hmem := (List.getElem_cons_eraseIdx_perm hlt).mem_iff (a := t')
  rw [← hmem, List.mem_cons]

/-- A tick that is sent is received by every stream. -/
theorem foretold_publish (hk : inFlight[k]? = some t) (h : Foretold profiles inFlight st) :
    Foretold profiles (inFlight.eraseIdx k) (st.publish t) := by
  have hrest : ∀ t' ∈ inFlight, t'.forwarded profiles st.path = true → t' = t ∨
      ∃ t' ∈ inFlight.eraseIdx k, t'.forwarded profiles st.path = true := fun t' ht' hfwd =>
    ((mem_inFlight hk t').mp ht').imp_right fun hmem => ⟨t', hmem, hfwd⟩
  cases t with
  | tools name =>
    obtain h | h | h | ⟨t', ht', hfwd⟩ := h
    · exact .inl h
    · exact .inr (.inl h.publish)
    · exact .inr (.inr (.inl h))
    · obtain rfl | hmem := hrest t' ht' hfwd
      · exact .inr (.inl (Receiver.carries_publish _ _ hfwd))
      · exact .inr (.inr (.inr hmem))
  | profile p =>
    obtain h | h | h | ⟨t', ht', hfwd⟩ := h
    · exact .inl h
    · exact .inr (.inl h)
    · exact .inr (.inr (.inl h.publish))
    · obtain rfl | hmem := hrest t' ht' hfwd
      · exact .inr (.inr (.inl (Receiver.carries_publish _ _ (of_decide_eq_true hfwd))))
      · exact .inr (.inr (.inr hmem))

/-- And nothing else is, when there is nothing to receive before it. -/
theorem foretold_of_publish (hk : inFlight[k]? = some t) (htools : st.toolsRx.backlog = 0)
    (hprofiles : st.profilesRx.backlog = 0)
    (h : Foretold profiles (inFlight.eraseIdx k) (st.publish t)) : Foretold profiles inFlight st := by
  have hrest : (∃ t' ∈ inFlight.eraseIdx k, t'.forwarded profiles st.path = true) →
      ∃ t' ∈ inFlight, t'.forwarded profiles st.path = true := fun ⟨t', ht', hfwd⟩ =>
    ⟨t', (mem_inFlight hk t').mpr (.inr ht'), hfwd⟩
  have hsent : t.forwarded profiles st.path = true →
      ∃ t' ∈ inFlight, t'.forwarded profiles st.path = true := fun hfwd =>
    ⟨t, (mem_inFlight hk t).mpr (.inl rfl), hfwd⟩
  cases t with
  | tools name =>
    obtain h | h | h | h := h
    · exact .inl h
    · have hname := Receiver.of_carries_publish
        (P := fun n => (CatalogTick.tools n).forwarded profiles st.path = true) h htools (by decide)
      exact .inr (.inr (.inr (hsent hname)))
    · exact .inr (.inr (.inl h))
    · exact .inr (.inr (.inr (hrest h)))
  | profile p =>
    obtain h | h | h | h := h
    · exact .inl h
    · exact .inr (.inl h)
    · have hpath := Receiver.of_carries_publish (P := fun path => path = st.path) h hprofiles (by decide)
      exact .inr (.inr (.inr (hsent (decide_eq_true hpath))))
    · exact .inr (.inr (.inr (hrest h)))

end Kept

/-! ## Every debt is foretold -/

section Runs

variable {lower : String → String} {s s' : StreamedRelay A} {st : ProfileStream} {a : Act A} {i : Nat}

omit [AdvertisedAdapter A] in
theorem stepStream_eq {op : StreamOp} (h : s.stepStream i op = some s') :
    ∃ st st', s.streams[i]? = some st ∧ st.step s.relay.profiles op = some st' ∧
      s' = { s with streams := s.streams.set i st' } := by
  obtain ⟨st, hst, h⟩ := Option.bind_eq_some_iff.mp h
  obtain ⟨st', hst', rfl⟩ := Option.map_eq_some_iff.mp h
  exact ⟨st, st', hst, hst', rfl⟩

/-- Every open stream that is owed a frame has one coming. -/
def DebtsForetold (s : StreamedRelay A) : Prop :=
  ∀ st ∈ s.streams, st.phase ≠ .closed → st.owed → Foretold s.relay.profiles s.inFlight st

/-- **A step keeps it**, when mutations are audible. -/
theorem debtsForetold_step (h : DebtsForetold s) (hheard : Heard s a) (hstep : s.step lower a = some s') :
    DebtsForetold s' := by
  cases a with
  | mutate m =>
    cases hstep
    intro st' hst' hopen howed
    obtain ⟨st, hst, rfl⟩ := List.mem_map.mp hst'
    obtain howed | hchanged := howed
    · exact foretold_mutate m s.relay (h st hst hopen howed)
    · obtain ⟨t, ht, hfwd⟩ | hsame := forwarded_or_same lower (hheard st hst hopen)
      · exact .inr (.inr (.inr ⟨t, List.mem_append_right _ ht, hfwd⟩))
      · exact absurd hsame hchanged
  | announce k =>
    obtain ⟨t, hk, rfl⟩ := Option.map_eq_some_iff.mp hstep
    intro st' hst' hopen howed
    obtain ⟨st, hst, rfl⟩ := List.mem_map.mp hst'
    cases t with
    | tools name => exact foretold_publish hk (h st hst hopen howed)
    | profile p => exact foretold_publish hk (h st hst hopen howed)
  | subscribe profilePath =>
    simp only [StreamedRelay.step, StreamedRelay.subscribe, Option.ite_none_right_eq_some] at hstep
    obtain ⟨-, hs'⟩ := hstep
    cases hs'
    intro st' hst' hopen howed
    obtain hst' | hst' := List.mem_append.mp hst'
    · exact h st' hst' hopen howed
    · obtain rfl := List.mem_singleton.mp hst'
      exact howed.elim
  | stream i op =>
    obtain ⟨st, st', hst, hop, rfl⟩ := stepStream_eq hstep
    intro st'' hst'' hopen howed
    obtain hst'' | rfl := List.mem_or_eq_of_mem_set hst''
    · exact h st'' hst'' hopen howed
    · obtain ⟨-, howes⟩ := owed_of_step hop
      obtain ⟨hsend, howed⟩ := howes.mp howed
      have hclose : op ≠ .close := by
        rintro rfl
        obtain rfl := step_close hop
        exact hopen rfl
      have hopen' : st.phase ≠ .closed := by
        intro hphase
        cases op <;> simp [ProfileStream.step, hphase] at hop
      have hcoming := h st (List.mem_of_getElem? hst) hopen' howed
      exact ((foretold_iff_of_step hclose hop).mp hcoming).resolve_left hsend

/-- **Run lemma.** -/
theorem debtsForetold (h : (relaySystem lower).ReachableWhile Heard s) : DebtsForetold s := by
  refine h.invariant ?_ fun s a s' hinv hheard hstep => debtsForetold_step hinv hheard hstep
  rintro s ⟨-, hnone⟩ st hst
  rw [hnone] at hst
  cases hst

omit [AdvertisedAdapter A] in
theorem not_foretold_of_settled (h : Settled s st) : ¬ Foretold s.relay.profiles s.inFlight st := by
  rintro (hphase | htools | hprofiles | ⟨t, ht, -⟩)
  · rw [h.phase] at hphase
    exact hphase
  · exact Receiver.not_carries h.toolsRx htools
  · exact Receiver.not_carries h.profilesRx hprofiles
  · rw [h.inFlight] at ht
    cases ht

end Runs

/-! ## Going on, and coming to an end -/

section Progress

variable {lower : String → String} {s s' : StreamedRelay A} {st st' : ProfileStream} {a : Act A} {i : Nat}
  {profiles : List ProfileSettings} {op : StreamOp}

theorem streamWork_publish_le (st : ProfileStream) (t : CatalogTick) : streamWork (st.publish t) ≤ streamWork st + 5 := by
  cases t with
  | tools name =>
    have h := Receiver.backlog_publish_le st.toolsRx channelCapacity name
    simp only [streamWork, ProfileStream.publish]
    omega
  | profile p =>
    have h := Receiver.backlog_publish_le st.profilesRx channelCapacity p
    simp only [streamWork, ProfileStream.publish]
    omega

/-- How much there is to do in a phase is at most this. -/
theorem streamWork_le (st : ProfileStream) : streamWork st ≤
    5 * (st.toolsRx.backlog + st.profilesRx.backlog) + st.outbox.length + 3 := by
  unfold streamWork
  split <;> omega

theorem streamWork_step (hop : op ≠ .close) (h : st.step profiles op = some st') :
    streamWork st' < streamWork st := by
  cases op with
  | receiveTools =>
    obtain ⟨got, rx, hphase, hrecv, rfl⟩ := step_receiveTools h
    have hlog := Receiver.backlog_recv hrecv
    have hle := streamWork_le { st with toolsRx := rx, phase := afterToolsTick got }
    simp only [streamWork, hphase] at hle ⊢
    omega
  | receiveProfiles =>
    obtain ⟨got, rx, hphase, hrecv, rfl⟩ := step_receiveProfiles h
    have hlog := Receiver.backlog_recv hrecv
    have hle := streamWork_le { st with profilesRx := rx, phase := afterProfilesTick st.path got }
    simp only [streamWork, hphase] at hle ⊢
    omega
  | resolve =>
    obtain ⟨name, hphase, rfl⟩ := step_resolve h
    by_cases hin : inProfile profiles st.path name = true
    · simp [streamWork, hphase, hin]
    · simp [streamWork, hphase, hin]
  | send =>
    obtain ⟨hphase, rfl⟩ := step_send h
    simp only [streamWork, hphase, List.length_append, List.length_singleton]
    omega
  | read =>
    obtain ⟨e, outbox, -, hout, rfl⟩ := step_read h
    simp only [streamWork, hout, List.length_cons]
    omega
  | close => exact absurd rfl hop

/-- **Serving a stream makes less of its work.** -/
theorem work_step (hserves : Serves i a) (hst : s.streams[i]? = some st) (hstep : s.step lower a = some s') :
    ∃ st', s'.streams[i]? = some st' ∧ work s' st' < work s st := by
  cases a with
  | announce k =>
    obtain ⟨t, hk, rfl⟩ := Option.map_eq_some_iff.mp hstep
    obtain ⟨hlt, -⟩ := List.getElem?_eq_some_iff.mp hk
    refine ⟨st.publish t, by simp [StreamedRelay.announce, hst], ?_⟩
    have hpublish := streamWork_publish_le st t
    simp only [work, StreamedRelay.announce, List.length_eraseIdx_of_lt hlt]
    omega
  | stream j op =>
    obtain ⟨rfl, hop⟩ := hserves
    obtain ⟨st₀, st', hst₀, hstream, rfl⟩ := stepStream_eq hstep
    obtain rfl : st = st₀ := Option.some.inj (hst.symm.trans hst₀)
    obtain ⟨hlt, -⟩ := List.getElem?_eq_some_iff.mp hst
    refine ⟨st', List.getElem?_set_self hlt, ?_⟩
    have hless := streamWork_step hop hstream
    simp only [work]
    omega
  | mutate m => exact hserves.elim
  | subscribe profilePath => exact hserves.elim

theorem length_le_work {as : List (Act A)} (hserves : ∀ a ∈ as, Serves i a) (hst : s.streams[i]? = some st)
    (hrun : (relaySystem lower).run s as = some s') : as.length ≤ work s st := by
  induction as generalizing s st with
  | nil => exact Nat.zero_le _
  | cons a as ih =>
    rw [System.run_cons] at hrun
    obtain ⟨s₁, hstep, hrun⟩ := Option.bind_eq_some_iff.mp hrun
    obtain ⟨st₁, hst₁, hless⟩ := work_step (hserves a List.mem_cons_self) hst hstep
    have hle := ih (fun a ha => hserves a (List.mem_cons_of_mem _ ha)) hst₁ hrun
    rw [List.length_cons]
    omega

/-- An open stream with something to receive or to do can take a step that serves it. -/
theorem exists_op (profiles : List ProfileSettings) (hopen : st.phase ≠ .closed)
    (h : st.phase ≠ .waiting ∨ 0 < st.toolsRx.backlog ∨ 0 < st.profilesRx.backlog) :
    ∃ op st', op ≠ .close ∧ st.step profiles op = some st' ∧ st'.phase ≠ .closed := by
  cases hphase : st.phase with
  | closed => exact absurd hphase hopen
  | waiting =>
    obtain h | h | h := h
    · exact absurd hphase h
    · obtain ⟨got, rx, hrecv⟩ := Receiver.exists_recv h
      refine ⟨.receiveTools, { st with toolsRx := rx, phase := afterToolsTick got }, by decide, ?_, ?_⟩
      · simp only [ProfileStream.step, if_pos hphase, hrecv, Option.map_some]
      · cases got with
        | lagged => exact Phase.noConfusion
        | value name =>
          simp only [afterToolsTick]
          split
          · exact Phase.noConfusion
          · exact Phase.noConfusion
    · obtain ⟨got, rx, hrecv⟩ := Receiver.exists_recv h
      refine ⟨.receiveProfiles, { st with profilesRx := rx, phase := afterProfilesTick st.path got },
        by decide, ?_, ?_⟩
      · simp only [ProfileStream.step, if_pos hphase, hrecv, Option.map_some]
      · cases got with
        | lagged => exact Phase.noConfusion
        | value p =>
          simp only [afterProfilesTick]
          split
          · exact Phase.noConfusion
          · exact Phase.noConfusion
  | resolving name =>
    refine ⟨.resolve, _, by decide, by simp only [ProfileStream.step, hphase]; rfl, ?_⟩
    dsimp only
    split
    · exact Phase.noConfusion
    · exact Phase.noConfusion
  | sending =>
    by_cases hroom : st.outbox.length < channelCapacity
    · refine ⟨.send, _, by decide, if_pos ⟨hphase, hroom⟩, Phase.noConfusion⟩
    · -- the client has to read before there is room for the frame
      cases hout : st.outbox with
      | nil =>
        rw [hout] at hroom
        exact absurd (by decide) hroom
      | cons e outbox =>
        refine ⟨.read, { st with outbox }, by decide, ?_, hopen⟩
        simp only [ProfileStream.step, hphase, hout]

/-- **A stream that is not settled can be served**, and if it has no frame coming it still has none then. -/
theorem exists_serve (lower : String → String) (hst : s.streams[i]? = some st) (hopen : st.phase ≠ .closed) (hns : ¬ Settled s st) :
    ∃ a s' st', Serves i a ∧ s.step lower a = some s' ∧ s'.streams[i]? = some st' ∧ st'.phase ≠ .closed ∧
      (¬ Foretold s.relay.profiles s.inFlight st →
        ¬ Foretold s'.relay.profiles s'.inFlight st' ∧ (st.owed → st'.owed)) := by
  by_cases hbusy : st.phase ≠ .waiting ∨ 0 < st.toolsRx.backlog ∨ 0 < st.profilesRx.backlog
  · obtain ⟨op, st', hop, hstep, hopen'⟩ := exists_op s.relay.profiles hopen hbusy
    obtain ⟨hlt, -⟩ := List.getElem?_eq_some_iff.mp hst
    refine ⟨.stream i op, { s with streams := s.streams.set i st' }, st', ⟨rfl, hop⟩, ?_,
      List.getElem?_set_self hlt, hopen', fun hnone => ?_⟩
    · simp only [StreamedRelay.step, StreamedRelay.stepStream, hst, hstep, Option.bind_some, Option.map_some]
    · rw [foretold_iff_of_step hop hstep, not_or] at hnone
      exact ⟨hnone.2, fun howed => (owed_of_step hstep).2.mpr ⟨hnone.1, howed⟩⟩
  · -- nothing is left to do but to send a tick
    simp only [not_or, not_not, Nat.not_lt, Nat.le_zero] at hbusy
    obtain ⟨hphase, htools, hprofiles⟩ := hbusy
    cases hflight : s.inFlight with
    | nil => exact absurd ⟨hflight, hphase, htools, hprofiles⟩ hns
    | cons t rest =>
      have hk : s.inFlight[0]? = some t := by rw [hflight]; rfl
      have hsame : (st.publish t).phase = st.phase ∧ ((st.publish t).owed ↔ st.owed) := by
        cases t <;> exact ⟨rfl, Iff.rfl⟩
      refine ⟨.announce 0, s.announce 0 t, st.publish t, trivial, ?_, ?_, ?_, fun hnone => ⟨fun h => ?_, ?_⟩⟩
      · simp only [StreamedRelay.step, hk, Option.map_some]
      · simp [StreamedRelay.announce, hst]
      · rw [hsame.1]
        exact hopen
      · refine hnone ?_
        rw [← hflight]
        exact foretold_of_publish hk htools hprofiles h
      · exact hsame.2.mpr

end Progress

/-! ## Being told -/

section Told

variable {lower : String → String} {s s' : StreamedRelay A} {st st' : ProfileStream} {a : Act A} {i : Nat}

/-- **Profile streams are told** of every change of their listing. -/
theorem profile_streams_told (h : (relaySystem lower).ReachableWhile Heard s)
    (hst : s.streams[i]? = some st) (hopen : st.phase ≠ .closed) : Told lower s i st where
  paid hsettled howed :=
    not_foretold_of_settled hsettled (debtsForetold h st (List.mem_of_getElem? hst) hopen howed)
  progress hns := by
    obtain ⟨a, s', st', hserves, hstep, -⟩ := exists_serve lower hst hopen hns
    exact ⟨a, s', hserves, hstep⟩
  bounded as s' hserves hrun := length_le_work hserves hst hrun

/-- An open stream can be served until it is settled. -/
theorem exists_settled (hst : s.streams[i]? = some st) (hopen : st.phase ≠ .closed) :
    ∃ as s' st', (∀ a ∈ as, Serves i a) ∧ (relaySystem lower).run s as = some s' ∧
      s'.streams[i]? = some st' ∧ Settled s' st' ∧
      (¬ Foretold s.relay.profiles s.inFlight st → st.owed → st'.owed) := by
  induction hn : work s st using Nat.strong_induction_on generalizing s st with
  | _ n ih =>
    by_cases hns : Settled s st
    · exact ⟨[], s, st, by simp, rfl, hst, hns, fun _ => id⟩
    · obtain ⟨a, s₁, st₁, hserves, hstep, hst₁, hopen₁, hquiet⟩ := exists_serve lower hst hopen hns
      obtain ⟨st₁', hst₁', hless⟩ := work_step hserves hst hstep
      obtain rfl : st₁ = st₁' := Option.some.inj (hst₁.symm.trans hst₁')
      obtain ⟨as, s', st', hall, hrun, hst', hsettled, hstill⟩ := ih _ (hn ▸ hless) hst₁ hopen₁ rfl
      refine ⟨a :: as, s', st', ?_, ?_, hst', hsettled, fun hnone howed => ?_⟩
      · intro b hb
        obtain rfl | hb := List.mem_cons.mp hb
        · exact hserves
        · exact hall b hb
      · rw [System.run_cons]
        exact Option.bind_eq_some_iff.mpr ⟨s₁, hstep, hrun⟩
      · obtain ⟨hnone₁, howed₁⟩ := hquiet hnone
        exact hstill hnone₁ (howed₁ howed)

/-- Serving a stream keeps what is coming until it is sent. -/
theorem foretold_serve (hserves : Serves i a) (hst : s.streams[i]? = some st)
    (hstep : s.step lower a = some s') (h : st.owed → Foretold s.relay.profiles s.inFlight st) :
    ∃ st', s'.streams[i]? = some st' ∧ (st'.owed → Foretold s'.relay.profiles s'.inFlight st') := by
  cases a with
  | announce k =>
    obtain ⟨t, hk, rfl⟩ := Option.map_eq_some_iff.mp hstep
    refine ⟨st.publish t, by simp [StreamedRelay.announce, hst], fun howed => ?_⟩
    cases t with
    | tools name => exact foretold_publish hk (h howed)
    | profile p => exact foretold_publish hk (h howed)
  | stream j op =>
    obtain ⟨rfl, hop⟩ := hserves
    obtain ⟨st₀, st', hst₀, hstream, rfl⟩ := stepStream_eq hstep
    obtain rfl : st = st₀ := Option.some.inj (hst.symm.trans hst₀)
    obtain ⟨hlt, -⟩ := List.getElem?_eq_some_iff.mp hst
    refine ⟨st', List.getElem?_set_self hlt, fun howed => ?_⟩
    obtain ⟨hsend, howed⟩ := (owed_of_step hstream).2.mp howed
    exact ((foretold_iff_of_step hop hstream).mp (h howed)).resolve_left hsend
  | mutate m => exact hserves.elim
  | subscribe profilePath => exact hserves.elim

/-- **A debt is paid exactly when it is foretold**: otherwise the ticks are all handled and the stream is still
owed its frame. -/
theorem owed_settles_iff (hst : s.streams[i]? = some st) (hopen : st.phase ≠ .closed) (howed : st.owed) :
    (∀ as s' st', (∀ a ∈ as, Serves i a) → (relaySystem lower).run s as = some s' →
        s'.streams[i]? = some st' → Settled s' st' → ¬ st'.owed) ↔
      Foretold s.relay.profiles s.inFlight st := by
  constructor
  · intro h
    by_contra hnone
    obtain ⟨as, s', st', hserves, hrun, hst', hsettled, hstill⟩ := exists_settled hst hopen
    exact h as s' st' hserves hrun hst' hsettled (hstill hnone howed)
  · intro h as s' st' hserves hrun hst' hsettled
    have hkept : ∀ {s : StreamedRelay A} {st : ProfileStream}, s.streams[i]? = some st →
        (st.owed → Foretold s.relay.profiles s.inFlight st) → (relaySystem lower).run s as = some s' →
          st'.owed → Foretold s'.relay.profiles s'.inFlight st' := by
      clear hst hopen howed h hrun
      induction as with
      | nil =>
        intro s st hst h hrun
        obtain rfl : s = s' := Option.some.inj hrun
        obtain rfl : st = st' := Option.some.inj (hst.symm.trans hst')
        exact h
      | cons a as ih =>
        intro s st hst h hrun
        rw [System.run_cons] at hrun
        obtain ⟨s₁, hstep, hrun⟩ := Option.bind_eq_some_iff.mp hrun
        obtain ⟨st₁, hst₁, h₁⟩ := foretold_serve (hserves a List.mem_cons_self) hst hstep h
        exact ih (fun a ha => hserves a (List.mem_cons_of_mem _ ha)) hst₁ h₁ hrun
    exact fun howed' => not_foretold_of_settled hsettled (hkept hst (fun _ => h) hrun howed')

end Told

/-! ## A profile of one endpoint -/

section Example

def gmailProfile : ProfileSettings := ⟨⟨"Work", "work", ["gmail"]⟩, false, false⟩

def mailRelay : StreamedRelay FixedAdapter := ⟨⟨mailEntries, [gmailProfile], []⟩, [], []⟩

/-- A stream is opened, an endpoint is disabled, and the tick is received and looked up. -/
def disabledWhileOpen (name : String) : List (Act FixedAdapter) :=
  [.subscribe "work", .mutate (.endpoint name (.disableEndpoint {} true)), .announce 0,
    .stream 0 .receiveTools, .stream 0 .resolve]

/-- The names that are listed when tools are. -/
theorem profileTools_names {A : Type} [AdvertisedAdapter A] (lower : String → String) (relay : AdvertisedRelay A)
    {p : ProfileSettings} (hjs : p.jsExecution = false) :
    ((profileTools lower relay p).map entryName).Perm
      (((profileMergedCatalog p.profile.endpoints (buildCatalog listedByAdapter relay.entries)).map (·.name)) ++
        if relay.writeRoots.isEmpty then ["list_tools", "search_tools"]
        else ["list_tools", "search_tools", "write_file"]) := by
  unfold profileTools
  rw [hjs]
  refine ((mcpToolsList_perm _ _ _ _).map entryName).trans ?_
  rw [List.map_append, List.map_map]
  refine (List.Perm.refl _).append ?_
  unfold metaToolDefinitions
  cases relay.writeRoots.isEmpty with
  | true => exact List.Perm.refl _
  | false => exact List.Perm.refl _

/-- An endpoint of the profile is disabled, and the stream is told. -/
theorem profile_streams_told_of_member :
    ∃ (s : StreamedRelay FixedAdapter) (st : ProfileStream),
      (relaySystem String.toLower).ReachableWhile Heard s ∧ s.streams[0]? = some st ∧ Settled s st ∧
        .toolsListChanged ∈ st.outbox ∧ Told String.toLower s 0 st := by
  have hinit : (relaySystem String.toLower).ReachableWhile Heard mailRelay := .init ⟨rfl, rfl⟩
  have hopened := hinit.step (a := Act.subscribe "work") trivial rfl
  have hmember : (CatalogMutation.endpoint "gmail" (.disableEndpoint ({} : FixedAdapter) true)).Audible
      mailRelay.relay "work" := by
    intro p hp
    obtain rfl : gmailProfile = p := Option.some.inj hp
    exact .inl ⟨by decide, rfl⟩
  have hmutated := hopened.step (a := Act.mutate (.endpoint "gmail" (.disableEndpoint {} true)))
    (fun st hst _ => by
      obtain rfl := List.mem_singleton.mp hst
      exact hmember) rfl
  have hsent := hmutated.step (a := Act.announce 0) trivial rfl
  have hreceived := hsent.step (a := Act.stream 0 .receiveTools) trivial rfl
  have hresolved := hreceived.step (a := Act.stream 0 .resolve) trivial rfl
  have htold := hresolved.step (a := Act.stream 0 .send) trivial rfl
  exact ⟨_, _, htold, rfl, ⟨rfl, rfl, rfl, rfl⟩, by decide, profile_streams_told htold rfl (by decide)⟩

/-- With `todoist` disabled the tool of `gmail` loses its prefix. -/
theorem gmail_renamed (lower : String → String) :
    profileListing lower ((CatalogMutation.endpoint "todoist" (.disableEndpoint {} true)).apply mailRelay.relay)
        "work" ≠ profileListing lower mailRelay.relay "work" := by
  intro h
  have hsame : profileTools lower
      ((CatalogMutation.endpoint "todoist" (.disableEndpoint {} true)).apply mailRelay.relay) gmailProfile =
        profileTools lower mailRelay.relay gmailProfile := Option.some.inj h
  have hbefore := profileTools_names lower mailRelay.relay (p := gmailProfile) rfl
  have hafter := profileTools_names lower
    ((CatalogMutation.endpoint "todoist" (.disableEndpoint {} true)).apply mailRelay.relay)
    (p := gmailProfile) rfl
  rw [hsame] at hafter
  have hmem := (hbefore.symm.trans hafter).mem_iff (a := "send")
  exact absurd (hmem.mpr (List.mem_append_left _ (List.mem_singleton_self "send"))) (by decide)

/-- **An endpoint outside the profile**: the stream has handled the tick, and does not know. -/
theorem outside_endpoint_untold :
    ∃ (s : StreamedRelay FixedAdapter) (st : ProfileStream),
      (relaySystem String.toLower).Reachable s ∧ s.streams[0]? = some st ∧ st.phase ≠ .closed ∧
        Settled s st ∧ st.owed ∧ .toolsListChanged ∉ st.outbox := by
  have hinit : (relaySystem String.toLower).Reachable mailRelay := .init ⟨rfl, rfl⟩
  have hreach : ∀ s, (relaySystem String.toLower).run mailRelay (disabledWhileOpen "todoist") = some s →
      (relaySystem String.toLower).Reachable s := fun s hrun => hinit.run hrun
  refine ⟨_, _, hreach _ rfl, rfl, by decide, ⟨rfl, rfl, rfl, rfl⟩, ?_, by decide⟩
  exact .inr (gmail_renamed String.toLower)

theorem outside_endpoint_unforetold : ∃ (s : StreamedRelay FixedAdapter) (st : ProfileStream),
    st.owed ∧ ¬ Foretold s.relay.profiles s.inFlight st := by
  obtain ⟨s, st, -, hst, hopen, hsettled, howed⟩ : ∃ s st,
      (relaySystem String.toLower).run mailRelay (disabledWhileOpen "todoist") = some s ∧
        s.streams[0]? = some st ∧ st.phase ≠ .closed ∧ Settled s st ∧ st.owed :=
    ⟨_, _, rfl, rfl, by decide, ⟨rfl, rfl, rfl, rfl⟩, Or.inr (gmail_renamed String.toLower)⟩
  exact ⟨s, st, howed, fun h => (@owed_settles_iff _ _ String.toLower s st 0 hst hopen howed).2 h [] s st
    (List.forall_mem_nil _) rfl hst hsettled howed⟩

end Example

end EndaraRelay.ProfileStreams
