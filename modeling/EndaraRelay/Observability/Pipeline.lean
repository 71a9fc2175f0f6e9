import EndaraRelay.Observability.Store

/-!
# The capture pipeline

`observability/pipeline.rs`: `capture` puts a record into a bounded channel, or drops and counts it, and
one consumer takes the records out in batches and hands each batch to `Store::insert_batch`.

The state has the channel, the counter and the point the consumer is at, and as history what was
captured and handed on. A step is a capture, a step of the consumer, the end of the last handle, or the
end of the runtime, which stops the consumer where it waits.

**Theorem (`records_conserved`).** At any time the records that the channel accepted are, in this order,
those handed to `insert_batch`, those in the batch under way and those in the channel; the others are
counted. A consumer that comes to its end has handed on all of them. One that is stopped has not: there
is no drain for this case, and `Conserved.lost` are the records left (`stopped_consumer_loses`).
-/

namespace EndaraRelay

open Verif

def captureChannelCapacity : Nat := 1024

def metadataBatchMax : Nat := 128

/-- A captured call, with its payloads where they are stored. -/
structure CaptureRecord (P : Type) where
  record : CallRecord
  payloads : Option P

/-- The records and payloads collected from the channel. -/
structure Batch (P : Type) where
  records : List CallRecord := []
  buffered : List (String × P) := []

def Batch.ingest {P : Type} (b : Batch P) (cr : CaptureRecord P) : Batch P where
  records := b.records ++ [cr.record]
  buffered :=
    match cr.record.requestUid, cr.payloads with
    | some uid, some p => b.buffered ++ [(uid, p)]
    | _, _ => b.buffered

/-- The points of `run_consumer`. At `handing` the write is spawned and has not started. -/
inductive Consumer (P : Type) where
  | receiving
  | collecting (b : Batch P)
  | handing (b : Batch P)
  | writing (b : Batch P)
  | storing (buffered : List (String × P))
  | finished
  | stopped

/-- The pipeline. `captures`, with what became of each, `handed` and `lost` are history. -/
structure Pipeline (P : Type) where
  enabled : Bool
  /-- Some handle is left, and with it a sender. -/
  handles : Bool
  channel : List (CaptureRecord P)
  dropped : Nat
  consumer : Consumer P
  log : CallLog
  payloads : List (String × P)
  captures : List (CallRecord × Bool)
  handed : List (List CallRecord)
  lost : List CallRecord

inductive PipelineAction (P : Type) where
  | capture (cr : CaptureRecord P)
  | consume
  /-- `insert_batch` returns, or panics. -/
  | written (ok : Bool)
  | dropHandles
  /-- The runtime ends. A write that has started runs on. -/
  | stop (ok : Bool)

variable {P : Type}

def Consumer.listens : Consumer P → Bool
  | .finished | .stopped => false
  | _ => true

/-- The records that were received and are not handed on. -/
def Consumer.held : Consumer P → List CallRecord
  | .collecting b | .handing b => b.records
  | _ => []

namespace Pipeline

def accepted (s : Pipeline P) : List CallRecord := (s.captures.filter (·.2)).map (·.1)

def discarded (s : Pipeline P) : List CallRecord := (s.captures.filter (!·.2)).map (·.1)

/-- `capture`, of an enabled pipeline. -/
def capture (s : Pipeline P) (cr : CaptureRecord P) : Pipeline P :=
  if s.channel.length < captureChannelCapacity ∧ s.consumer.listens then
    { s with channel := s.channel ++ [cr], captures := s.captures ++ [(cr.record, true)] }
  else
    { s with
      dropped := (s.dropped + 1) % UInt64.size
      captures := s.captures ++ [(cr.record, false)] }

/-- A step of the consumer that waits for nothing but a message. -/
def consume (s : Pipeline P) : Option (Pipeline P) :=
  match s.consumer with
  | .receiving =>
    match s.channel with
    | cr :: rest => some { s with channel := rest, consumer := .collecting (Batch.ingest {} cr) }
    | [] => if s.handles then none else some { s with consumer := .finished }
  | .collecting b =>
    match s.channel with
    | cr :: rest =>
      if b.records.length < metadataBatchMax then
        some { s with channel := rest, consumer := .collecting (b.ingest cr) }
      else some { s with consumer := .handing b }
    | [] => some { s with consumer := .handing b }
  | .handing b => some { s with consumer := .writing b, handed := s.handed ++ [b.records] }
  | .storing [] => some { s with consumer := .receiving }
  | .storing (p :: rest) => some { s with consumer := .storing rest, payloads := s.payloads ++ [p] }
  | _ => none

/-- The receiver is dropped with what the channel holds, and a write that has not started never does. -/
def stopped (s : Pipeline P) (log : CallLog) : Pipeline P :=
  { s with
    consumer := .stopped
    channel := []
    log := log
    lost := s.lost ++ s.consumer.held ++ s.channel.map (·.record) }

def step (s : Pipeline P) : PipelineAction P → Option (Pipeline P)
  | .capture cr => if s.handles then some (if s.enabled then s.capture cr else s) else none
  | .consume => s.consume
  | .written ok =>
    match s.consumer with
    | .writing b =>
      some { s with
        consumer := .storing b.buffered
        log := if ok then s.log.insertBatch b.records else s.log }
    | _ => none
  | .dropHandles => some { s with handles := false }
  | .stop ok =>
    match s.consumer with
    | .receiving | .handing _ => some (s.stopped s.log)
    | .writing b => some (s.stopped (if ok then s.log.insertBatch b.records else s.log))
    | _ => none

end Pipeline

/-- The pipeline from `Observability::new` on. When it is disabled no consumer is spawned. -/
def pipeline (P : Type) : System (Pipeline P) (PipelineAction P) where
  init s := s.handles = true ∧ s.channel = [] ∧ s.dropped = 0 ∧
    s.consumer = (if s.enabled then .receiving else .stopped) ∧ s.captures = [] ∧ s.handed = [] ∧
    s.lost = []
  step := Pipeline.step

/-- **Conservation.** -/
structure Conserved (s : Pipeline P) : Prop where
  accepted : s.accepted =
    s.handed.flatten ++ s.consumer.held ++ s.channel.map (·.record) ++ s.lost
  counted : s.dropped = s.discarded.length % UInt64.size
  lost : s.lost ≠ [] → s.consumer = .stopped
  stopped : s.consumer.listens = false → s.channel = []

variable {s s' : Pipeline P}

theorem Conserved.capture (h : Conserved s) (cr : CaptureRecord P) : Conserved (s.capture cr) := by
  unfold Pipeline.capture
  by_cases hroom : s.channel.length < captureChannelCapacity ∧ s.consumer.listens = true
  · have hlost : s.lost = [] := by
      by_contra hne
      have hlistens := hroom.2
      rw [h.lost hne] at hlistens
      cases hlistens
    rw [if_pos hroom]
    refine ⟨?_, ?_, h.lost, fun hdeaf => ?_⟩
    · have haccepted := h.accepted
      simp only [Pipeline.accepted, hlost, List.append_nil] at haccepted ⊢
      simp [haccepted]
    · have hcounted := h.counted
      simp only [Pipeline.discarded] at hcounted ⊢
      simpa using hcounted
    · rw [hroom.2] at hdeaf
      cases hdeaf
  · rw [if_neg hroom]
    refine ⟨?_, ?_, h.lost, h.stopped⟩
    · have haccepted := h.accepted
      simp only [Pipeline.accepted] at haccepted ⊢
      simpa using haccepted
    · have hcounted := h.counted
      simp only [Pipeline.discarded] at hcounted ⊢
      simp [hcounted]

/-- A step that only moves records along. -/
theorem Conserved.move (h : Conserved s) (hcaptures : s'.captures = s.captures)
    (hdropped : s'.dropped = s.dropped) (hlost : s'.lost = s.lost)
    (hplaces : s'.handed.flatten ++ s'.consumer.held ++ s'.channel.map (·.record) =
      s.handed.flatten ++ s.consumer.held ++ s.channel.map (·.record))
    (hlistens : s.consumer.listens = true)
    (hstopped : s'.consumer.listens = false → s'.channel = []) : Conserved s' where
  accepted := by
    rw [Pipeline.accepted, hcaptures, hlost, hplaces]
    exact h.accepted
  counted := by
    rw [Pipeline.discarded, hcaptures, hdropped]
    exact h.counted
  lost hne := by
    rw [hlost] at hne
    rw [h.lost hne] at hlistens
    cases hlistens
  stopped := hstopped

theorem Conserved.consume (h : Conserved s) (hstep : s.consume = some s') : Conserved s' := by
  unfold Pipeline.consume at hstep
  cases hconsumer : s.consumer with
  | receiving =>
    rw [hconsumer] at hstep
    cases hchannel : s.channel with
    | cons cr rest =>
      rw [hchannel] at hstep
      cases hstep
      refine h.move rfl rfl rfl ?_ (by rw [hconsumer]; rfl) fun hdeaf => by cases hdeaf
      simp [Consumer.held, Batch.ingest, hconsumer, hchannel]
    | nil =>
      rw [hchannel] at hstep
      dsimp only at hstep
      by_cases hhandles : s.handles = true
      · rw [if_pos hhandles] at hstep
        cases hstep
      · rw [if_neg hhandles] at hstep
        cases hstep
        refine h.move rfl rfl rfl ?_ (by rw [hconsumer]; rfl) fun _ => rfl
        simp [Consumer.held, hconsumer, hchannel]
  | collecting b =>
    rw [hconsumer] at hstep
    have hlistens : s.consumer.listens = true := by rw [hconsumer]; rfl
    cases hchannel : s.channel with
    | cons cr rest =>
      rw [hchannel] at hstep
      dsimp only at hstep
      by_cases hroom : b.records.length < metadataBatchMax
      · rw [if_pos hroom] at hstep
        cases hstep
        refine h.move rfl rfl rfl ?_ hlistens fun hdeaf => by cases hdeaf
        simp [Consumer.held, Batch.ingest, hconsumer, hchannel]
      · rw [if_neg hroom] at hstep
        cases hstep
        refine h.move rfl rfl rfl ?_ hlistens fun hdeaf => by cases hdeaf
        simp [Consumer.held, hconsumer, hchannel]
    | nil =>
      rw [hchannel] at hstep
      cases hstep
      refine h.move rfl rfl rfl ?_ hlistens fun hdeaf => by cases hdeaf
      simp [Consumer.held, hconsumer, hchannel]
  | handing b =>
    rw [hconsumer] at hstep
    cases hstep
    refine h.move rfl rfl rfl ?_ (by rw [hconsumer]; rfl) fun hdeaf => by cases hdeaf
    simp [Consumer.held, hconsumer]
  | storing buffered =>
    rw [hconsumer] at hstep
    have hlistens : s.consumer.listens = true := by rw [hconsumer]; rfl
    cases buffered with
    | nil =>
      cases hstep
      refine h.move rfl rfl rfl ?_ hlistens fun hdeaf => by cases hdeaf
      simp [Consumer.held, hconsumer]
    | cons p rest =>
      cases hstep
      refine h.move rfl rfl rfl ?_ hlistens fun hdeaf => by cases hdeaf
      simp [Consumer.held, hconsumer]
  | writing b =>
    rw [hconsumer] at hstep
    cases hstep
  | finished =>
    rw [hconsumer] at hstep
    cases hstep
  | stopped =>
    rw [hconsumer] at hstep
    cases hstep

theorem Conserved.stop (h : Conserved s) (hlistens : s.consumer.listens = true) (log : CallLog) :
    Conserved (s.stopped log) where
  accepted := by
    have hlost : s.lost = [] := by
      by_contra hne
      rw [h.lost hne] at hlistens
      cases hlistens
    have haccepted := h.accepted
    simp only [Pipeline.accepted, Pipeline.stopped, Consumer.held, hlost] at haccepted ⊢
    simpa using haccepted
  counted := h.counted
  lost _ := rfl
  stopped _ := rfl

theorem Conserved.step (h : Conserved s) {a : PipelineAction P} (hstep : s.step a = some s') :
    Conserved s' := by
  cases a with
  | capture cr =>
    unfold Pipeline.step at hstep
    dsimp only at hstep
    by_cases hhandles : s.handles = true
    · rw [if_pos hhandles] at hstep
      cases hstep
      by_cases henabled : s.enabled = true
      · rw [if_pos henabled]
        exact h.capture cr
      · rw [if_neg henabled]
        exact h
    · rw [if_neg hhandles] at hstep
      cases hstep
  | consume => exact h.consume hstep
  | written ok =>
    unfold Pipeline.step at hstep
    cases hconsumer : s.consumer with
    | writing b =>
      rw [hconsumer] at hstep
      cases hstep
      refine h.move rfl rfl rfl ?_ (by rw [hconsumer]; rfl) fun hdeaf => by cases hdeaf
      simp [Consumer.held, hconsumer]
    | _ =>
      rw [hconsumer] at hstep
      cases hstep
  | dropHandles =>
    cases hstep
    exact ⟨h.accepted, h.counted, h.lost, h.stopped⟩
  | stop ok =>
    unfold Pipeline.step at hstep
    cases hconsumer : s.consumer with
    | receiving | handing b | writing b =>
      rw [hconsumer] at hstep
      cases hstep
      exact h.stop (by rw [hconsumer]; rfl) _
    | _ =>
      rw [hconsumer] at hstep
      cases hstep

/-- **Theorem.** In every run, every captured record is in one place once. -/
theorem records_conserved (h : (pipeline P).Reachable s) :
    Conserved s ∧ (s.consumer = .finished → s.accepted = s.handed.flatten) := by
  have hconserved : Conserved s := by
    refine System.ReachableWhile.invariant (P := Conserved) ?_ ?_ h
    · rintro s ⟨-, hchannel, hdropped, hconsumer, hcaptures, hhanded, hlost⟩
      refine ⟨?_, ?_, fun hne => absurd hlost hne, fun _ => hchannel⟩
      · rw [hconsumer]
        by_cases henabled : s.enabled = true <;>
          simp [Pipeline.accepted, Consumer.held, hcaptures, hhanded, hchannel, hlost, henabled]
      · simp [Pipeline.discarded, hcaptures, hdropped]
    · intro s a s' hs _ hstep
      exact hs.step hstep
  refine ⟨hconserved, fun hfinished => ?_⟩
  have hlost : s.lost = [] := by
    by_contra hne
    have hstopped := hconserved.lost hne
    rw [hfinished] at hstopped
    cases hstopped
  rw [hconserved.accepted, hconserved.stopped (by rw [hfinished]; rfl), hlost, hfinished]
  simp [Consumer.held]

def callOf (tool : String) : CallRecord := { tool, tsStart := 0 }

def newPipeline : Pipeline Unit := ⟨true, true, [], 0, .receiving, .empty, [], [], [], []⟩

theorem newPipeline_init : (pipeline Unit).init newPipeline := ⟨rfl, rfl, rfl, rfl, rfl, rfl, rfl⟩

/-- Two records are handed on in one batch whose insertion fails, and the consumer comes to its end. -/
theorem records_conserved_failed_batch : ∃ s : Pipeline Unit, (pipeline Unit).Reachable s ∧
    s.handed = [[callOf "a", callOf "b"]] ∧ s.log.rows = [] ∧
      Conserved s ∧ s.accepted = s.handed.flatten := by
  have hrun : ∃ s, (pipeline Unit).run newPipeline
      [.capture ⟨callOf "a", none⟩, .capture ⟨callOf "b", none⟩, .dropHandles, .consume,
        .consume, .consume, .consume, .written false, .consume, .consume] = some s ∧
      s.handed = [[callOf "a", callOf "b"]] ∧ s.log.rows = [] ∧ s.consumer = .finished :=
    ⟨_, rfl, rfl, rfl, rfl⟩
  obtain ⟨s, hrun, hhanded, hrows, hfinished⟩ := hrun
  have hreach := System.Reachable.run (.init newPipeline_init) hrun
  obtain ⟨hconserved, hall⟩ := records_conserved hreach
  exact ⟨s, hreach, hhanded, hrows, hconserved, hall hfinished⟩

/-- The runtime ends while a record waits: the record is not handed on, and not counted. -/
theorem stopped_consumer_loses : ¬ ∀ s : Pipeline Unit, (pipeline Unit).Reachable s →
    s.consumer.listens = false → s.accepted = s.handed.flatten := by
  intro h
  have hrun : ∃ s, (pipeline Unit).run newPipeline [.capture ⟨callOf "a", none⟩, .stop true] =
      some s ∧ s.consumer = .stopped ∧ s.accepted = [callOf "a"] ∧ s.handed = [] :=
    ⟨_, rfl, rfl, rfl, rfl⟩
  obtain ⟨s, hrun, hstopped, haccepted, hhanded⟩ := hrun
  have hall := h s (System.Reachable.run (.init newPipeline_init) hrun)
    (by rw [hstopped]; rfl)
  rw [haccepted, hhanded] at hall
  cases hall

end EndaraRelay
