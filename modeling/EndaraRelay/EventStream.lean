import EndaraRelay.Lib.Lines
import EndaraRelay.Text

/-!
# The listeners of event streams

Two tasks read server-sent events: the listener of the SSE adapter (`connect` in `sse.rs`) and the GET
listener of the HTTP adapter (`run_get_listener` in `http.rs`). Both append every chunk, decoded by
itself, to a buffer, take complete lines from it and carry the event they are in across chunks. They
differ in the fields they read: `sseFields`, `getFields`.

* `listen`: the events that are dispatched for a stream in chunks. `listen_eq`: they are those of the
  decoded text, wherever it was cut.
* The text is not always the same: a chunk that ends inside a character loses it. `intact` says that no
  character of a dispatched event is lost in this way.

**Theorem (`chunking_iff`).** A listener dispatches the same events for the chunks as for the whole
stream exactly when `intact` holds.
-/

namespace EndaraRelay

open Verif Verif.Utf8 Verif.Lines

/-! ## Fields -/

/-- `rest.strip_prefix(' ').unwrap_or(rest)`. -/
def stripOneSpace (s : List Char) : List Char := (s.dropPrefix? [' ']).getD s

/-- Which fields a listener reads, and how. -/
structure FieldReader where
  eventType : List Char → Option (List Char)
  data : List Char → Option (List Char)

/-- The fields of the SSE adapter. -/
def sseFields : FieldReader where
  eventType line := (line.dropPrefix? "event:".toList).map trimChars
  data line := (line.dropPrefix? "data:".toList).map trimChars

/-- The fields of the HTTP adapter, which has no event types. -/
def getFields : FieldReader where
  eventType _ := none
  data line := (line.dropPrefix? "data:".toList).map stripOneSpace

/-! ## Events -/

/-- An event in the making. -/
structure Block where
  eventType : List Char := []
  dataLines : List (List Char) := []

/-- The events that are dispatched, with their data. -/
inductive StreamEvent where
  | endpoint (data : List Char)
  | message (data : List Char)
deriving DecidableEq

/-- The kind of an event. Other types are ignored. -/
def eventKind (eventType : List Char) : Option (List Char → StreamEvent) :=
  if eventType = [] ∨ eventType = "message".toList then some .message
  else if eventType = "endpoint".toList then some .endpoint
  else none

/-- What is dispatched at an empty line. -/
def Block.event (block : Block) : Option StreamEvent :=
  if block.dataLines = [] then none
  else (eventKind block.eventType).map fun kind => kind (['\n'].intercalate block.dataLines)

def isCr (c : Char) : Bool := c == '\r'

/-- `trim_end_matches('\r')`. -/
def trimCr (line : List Char) : List Char := line.rdropWhile isCr

/-- A field of the event. -/
def Block.field (fields : FieldReader) (block : Block) (line : List Char) : Block :=
  match fields.eventType line with
  | some eventType => { block with eventType := eventType }
  | none =>
    match fields.data line with
    | some data => { block with dataLines := block.dataLines ++ [data] }
    | none => block

/-- The complete lines of the buffer, one after the other. -/
def readLines (fields : FieldReader) : Block → List (List Char) → Block × List StreamEvent
  | block, [] => (block, [])
  | block, line :: lines =>
    if trimCr line = [] then
      ((readLines fields {} lines).1, block.event.toList ++ (readLines fields {} lines).2)
    else readLines fields (block.field fields (trimCr line)) lines

/-- The state of a listener between two chunks. -/
structure ListenerState where
  buffer : List Char := []
  block : Block := {}

def ListenerState.chunk (fields : FieldReader) (st : ListenerState) (chunk : List UInt8) :
    ListenerState × List StreamEvent :=
  let (lines, rest) := cutLines isNewline (st.buffer ++ decodeLossy none chunk)
  let (block, events) := readLines fields st.block lines
  (⟨rest, block⟩, events)

def listenFrom (fields : FieldReader) : ListenerState → List (List UInt8) → List StreamEvent
  | _, [] => []
  | st, chunk :: chunks =>
    (st.chunk fields chunk).2 ++ listenFrom fields (st.chunk fields chunk).1 chunks

/-- The events that a listener dispatches for a stream in chunks. -/
def listen (fields : FieldReader) (chunks : List (List UInt8)) : List StreamEvent :=
  listenFrom fields {} chunks

/-! ## Chunks of text -/

variable {fields : FieldReader}

theorem readLines_append (block : Block) (a b : List (List Char)) :
    readLines fields block (a ++ b) =
      ((readLines fields (readLines fields block a).1 b).1,
        (readLines fields block a).2 ++ (readLines fields (readLines fields block a).1 b).2) := by
  induction a generalizing block with
  | nil => rfl
  | cons line a ih =>
    rw [List.cons_append, readLines, readLines]
    by_cases hline : trimCr line = []
    · rw [if_pos hline, if_pos hline, ih]
      simp
    · rw [if_neg hline, if_neg hline, ih]

theorem listenFrom_eq {st : ListenerState} (hbuffer : (cutLines isNewline st.buffer).1 = [])
    (chunks : List (List UInt8)) :
    listenFrom fields st chunks =
      (readLines fields st.block (cutLines isNewline (st.buffer ++ decodeChunks chunks)).1).2 := by
  induction chunks generalizing st with
  | nil =>
    rw [decodeChunks, List.flatMap_nil, List.append_nil, hbuffer]
    rfl
  | cons chunk chunks ih =>
    rw [decodeChunks_cons, ← List.append_assoc, cutLines_append, readLines_append, listenFrom,
      ih (cutLines_rest _)]
    rfl

/-- **The events are those of the decoded text.** -/
theorem listen_eq (chunks : List (List UInt8)) :
    listen fields chunks = (readLines fields {} (cutLines isNewline (decodeChunks chunks)).1).2 :=
  listenFrom_eq rfl chunks

/-! ## Events that lose nothing -/

/-- Whether no character of a dispatched event is lost, for lines of marked characters: `typeCut` and
`dataCut` say whether one of the type in force, or of the data so far, is. -/
def intactFrom (fields : FieldReader) (block : Block) (typeCut dataCut : Bool) :
    List (List (Char × Bool)) → Bool
  | [] => true
  | line :: lines =>
    let text := trimCr (line.map Prod.fst)
    let cut := Blurred.lossy line
    if text = [] then
      (block.event.isNone || !(typeCut || dataCut)) && intactFrom fields {} false false lines
    else
      match fields.eventType text, fields.data text with
      | some _, _ => intactFrom fields (block.field fields text) cut dataCut lines
      | none, some _ => intactFrom fields (block.field fields text) typeCut (dataCut || cut) lines
      | none, none => intactFrom fields block typeCut dataCut lines

/-- In no event that is dispatched when the stream arrives in one chunk, a cut between two chunks falls
inside a character of a `data:` line or of the `event:` line in force. -/
def intact (fields : FieldReader) (chunks : List (List UInt8)) (s : List Char) : Bool :=
  intactFrom fields {} false false (cutLines (fun x => isNewline x.1) (marks (cuts 0 chunks) 0 s)).1

/-! ## Blurred fields -/

/-- The value of a field in a text, and in what is read of it. -/
def ReadsAlike (v v' : Option (List Char)) (lost : Bool) : Prop :=
  v = none ∧ v' = none ∨ ∃ w w', v = some w ∧ v' = some w' ∧ (lost = false → w' = w) ∧
    (lost = true → replacement ∈ w' ∧ w.length < w'.length)

/-- A listener finds its fields in both. -/
structure FieldReader.Faithful (fields : FieldReader) : Prop where
  eventType : ∀ m d, Blurred m d →
    ReadsAlike (fields.eventType (m.map Prod.fst)) (fields.eventType d) (Blurred.lossy m)
  data : ∀ m d, Blurred m d →
    ReadsAlike (fields.data (m.map Prod.fst)) (fields.data d) (Blurred.lossy m)

variable {m : List (Char × Bool)} {d : List Char}

theorem isWhitespace_replacement : isWhitespace replacement = false := by decide

theorem ascii_of_all {p : List Char} (h : (p.all fun c => c.toNat < 0x80) = true) :
    ∀ c ∈ p, c.toNat < 0x80 := by
  simpa using h

/-- A lost character is never trimmed, and there are more of them. -/
theorem trimChars_blurred (h : Blurred m d) (hm : Blurred.lossy m = true) :
    replacement ∈ trimChars d ∧ (trimChars (m.map Prod.fst)).length < (trimChars d).length := by
  have hfront := h.dropWhile isWhitespace_replacement
  have hboth := (hfront.reverse.dropWhile isWhitespace_replacement).reverse
  have hlossy : Blurred.lossy
      ((m.dropWhile fun x => isWhitespace x.1 && !x.2).reverse.dropWhile
        fun x => isWhitespace x.1 && !x.2).reverse = true := by
    rw [Blurred.lossy_reverse, Blurred.lossy_dropWhile, Blurred.lossy_reverse,
      Blurred.lossy_dropWhile, hm]
  refine ⟨hboth.mem_replacement hlossy, Nat.lt_of_le_of_lt ?_ (hboth.length_lt hlossy)⟩
  have hfirst := (Blurred.dropWhile_sublist isWhitespace m).reverse
  have hsecond := (Blurred.dropWhile_mono (q := isWhitespace) hfirst).length_le
  rw [← List.map_reverse] at hsecond
  have hthird := (Blurred.dropWhile_sublist isWhitespace
    (m.dropWhile fun x => isWhitespace x.1 && !x.2).reverse).length_le
  rw [List.length_map] at hthird
  rw [trimChars, List.rdropWhile, List.length_reverse, List.length_reverse]
  exact Nat.le_trans hsecond hthird

theorem stripOneSpace_blurred (h : Blurred m d) (hm : Blurred.lossy m = true) :
    replacement ∈ stripOneSpace d ∧
      (stripOneSpace (m.map Prod.fst)).length < (stripOneSpace d).length := by
  unfold stripOneSpace
  obtain ⟨hnone, hnone'⟩ | ⟨m', d', hsome, hsome', hblurred, hlossy⟩ :=
    h.dropPrefix? (ascii_of_all (p := [' ']) rfl)
  · rw [hnone, hnone', Option.getD_none, Option.getD_none, List.length_map]
    exact ⟨h.mem_replacement hm, h.length_lt hm⟩
  · rw [hsome, hsome', Option.getD_some, Option.getD_some, List.length_map]
    rw [← hlossy] at hm
    exact ⟨hblurred.mem_replacement hm, hblurred.length_lt hm⟩

theorem readsAlike_field {name : List Char} (hname : ∀ c ∈ name, c.toNat < 0x80)
    {value : List Char → List Char}
    (hvalue : ∀ {m d}, Blurred m d → Blurred.lossy m = true →
      replacement ∈ value d ∧ (value (m.map Prod.fst)).length < (value d).length)
    (h : Blurred m d) :
    ReadsAlike (((m.map Prod.fst).dropPrefix? name).map value) ((d.dropPrefix? name).map value)
      (Blurred.lossy m) := by
  obtain ⟨hnone, hnone'⟩ | ⟨m', d', hsome, hsome', hblurred, hlossy⟩ := h.dropPrefix? hname
  · left
    rw [hnone, hnone']
    exact ⟨rfl, rfl⟩
  · right
    rw [hsome, hsome', ← hlossy]
    refine ⟨_, _, rfl, rfl, fun hkept => ?_, fun hlost => hvalue hblurred hlost⟩
    rw [hblurred.eq_of_not_lossy hkept]

theorem sseFields_faithful : sseFields.Faithful where
  eventType _ _ h := readsAlike_field (ascii_of_all rfl) trimChars_blurred h
  data _ _ h := readsAlike_field (ascii_of_all rfl) trimChars_blurred h

theorem getFields_faithful : getFields.Faithful where
  eventType _ _ _ := .inl ⟨rfl, rfl⟩
  data _ _ h := readsAlike_field (ascii_of_all rfl) stripOneSpace_blurred h

/-! ## Blurred events -/

/-- An event in the making, in a text and in what is read of it. -/
structure BlockAlike (block block' : Block) (typeCut dataCut : Bool) : Prop where
  type_eq : typeCut = false → block'.eventType = block.eventType
  type_cut : typeCut = true → replacement ∈ block'.eventType
  lines : block'.dataLines.length = block.dataLines.length
  data_eq : dataCut = false → block'.dataLines = block.dataLines
  data_cut : dataCut = true → block.dataLines.flatten.length < block'.dataLines.flatten.length

theorem BlockAlike.refl (block : Block) : BlockAlike block block false false where
  type_eq _ := rfl
  type_cut hfalse := absurd hfalse Bool.false_ne_true
  lines := rfl
  data_eq _ := rfl
  data_cut hfalse := absurd hfalse Bool.false_ne_true

variable {block block' : Block} {typeCut dataCut : Bool}

theorem eventKind_of_mem_replacement {eventType : List Char} (h : replacement ∈ eventType) :
    eventKind eventType = none := by
  have hne : ∀ name : List Char, replacement ∉ name → eventType ≠ name := by
    rintro name hname rfl
    exact hname h
  rw [eventKind, if_neg, if_neg]
  · exact hne _ (by decide)
  · rintro (hnil | hmessage)
    · exact hne _ (by decide) hnil
    · exact hne _ (by decide) hmessage

theorem length_intercalate {lines : List (List Char)} (h : lines ≠ []) :
    (['\n'].intercalate lines).length + 1 = lines.flatten.length + lines.length := by
  induction lines with
  | nil => exact absurd rfl h
  | cons line lines ih =>
    cases lines with
    | nil => simp
    | cons line' lines =>
      have ih := ih (List.cons_ne_nil _ _)
      rw [List.intercalate_cons_cons, List.flatten_cons]
      simp only [List.length_append, List.length_cons, List.length_nil] at ih ⊢
      omega

/-- Nothing new is dispatched, and the same only when nothing is lost. -/
theorem event_alike (h : BlockAlike block block' typeCut dataCut) :
    (block.event = none → block'.event = none) ∧
      ∀ e, block.event = some e → (block'.event = some e ↔ (typeCut || dataCut) = false) := by
  have hempty : block'.dataLines = [] ↔ block.dataLines = [] := by
    rw [← List.length_eq_zero_iff, h.lines, List.length_eq_zero_iff]
  unfold Block.event
  by_cases hlines : block.dataLines = []
  · rw [if_pos hlines, if_pos (hempty.2 hlines)]
    exact ⟨fun _ => rfl, fun e he => by cases he⟩
  · rw [if_neg hlines, if_neg fun h' => hlines (hempty.1 h')]
    cases typeCut with
    | true =>
      rw [eventKind_of_mem_replacement (h.type_cut rfl)]
      exact ⟨fun _ => rfl, fun e _ => by simp⟩
    | false =>
      rw [h.type_eq rfl, Bool.false_or]
      cases hkind : eventKind block.eventType with
      | none => exact ⟨fun _ => rfl, fun e he => by cases he⟩
      | some kind =>
        refine ⟨fun hnone => absurd hnone (Option.some_ne_none _), fun e he => ?_⟩
        cases he
        cases dataCut with
        | false =>
          rw [h.data_eq rfl]
          exact ⟨fun _ => rfl, fun _ => rfl⟩
        | true =>
          refine ⟨fun heq => ?_, fun hfalse => by cases hfalse⟩
          have hlength := h.data_cut rfl
          have hleft := length_intercalate hlines
          have hright := length_intercalate (fun h' => hlines (hempty.1 h'))
          have hinj : ∀ a b : List Char, kind a = kind b → a = b := by
            intro a b hab
            unfold eventKind at hkind
            split at hkind
            · cases hkind
              exact StreamEvent.message.inj hab
            · split at hkind
              · cases hkind
                exact StreamEvent.endpoint.inj hab
              · cases hkind
          rw [hinj _ _ (Option.some.inj heq), h.lines] at hright
          omega

/-! ### Fields -/

theorem BlockAlike.type (h : BlockAlike block block' typeCut dataCut) {w w' : List Char}
    {lost : Bool} (heq : lost = false → w' = w)
    (hcut : lost = true → replacement ∈ w' ∧ w.length < w'.length) :
    BlockAlike { block with eventType := w } { block' with eventType := w' } lost dataCut where
  type_eq := heq
  type_cut hlost := (hcut hlost).1
  lines := h.lines
  data_eq := h.data_eq
  data_cut := h.data_cut

theorem BlockAlike.data (h : BlockAlike block block' typeCut dataCut) {w w' : List Char}
    {lost : Bool} (heq : lost = false → w' = w)
    (hcut : lost = true → replacement ∈ w' ∧ w.length < w'.length) :
    BlockAlike { block with dataLines := block.dataLines ++ [w] }
      { block' with dataLines := block'.dataLines ++ [w'] } typeCut (dataCut || lost) where
  type_eq := h.type_eq
  type_cut := h.type_cut
  lines := by simp [h.lines]
  data_eq hkept := by
    rw [Bool.or_eq_false_iff] at hkept
    rw [h.data_eq hkept.1, heq hkept.2]
  data_cut hlost := by
    simp only [List.flatten_append, List.length_append, List.flatten_singleton]
    cases hl : lost with
    | true =>
      have hw := (hcut hl).2
      cases hd : dataCut with
      | true =>
        have := h.data_cut hd
        omega
      | false =>
        rw [h.data_eq hd]
        omega
    | false =>
      rw [hl, Bool.or_false] at hlost
      have := h.data_cut hlost
      rw [heq hl]
      omega

/-- A line without its `\r`, and what is read of it. -/
theorem trimCr_blurred (h : Blurred m d) :
    ∃ m', Blurred m' (trimCr d) ∧ m'.map Prod.fst = trimCr (m.map Prod.fst) ∧
      Blurred.lossy m' = Blurred.lossy m := by
  have hcr : ∀ c : Char, 0x80 ≤ c.toNat → isCr c = false := by
    intro c hc
    rw [isCr, beq_eq_false_iff_ne]
    rintro rfl
    exact absurd hc (by decide)
  refine ⟨(m.reverse.dropWhile fun x => isCr x.1 && !x.2).reverse, ?_, ?_, ?_⟩
  · exact (h.reverse.dropWhile (q := isCr) (by decide)).reverse
  · rw [List.map_reverse, h.reverse.map_dropWhile hcr, List.map_reverse]
    rfl
  · rw [Blurred.lossy_reverse, Blurred.lossy_dropWhile, Blurred.lossy_reverse]

/-- **One reading and the other**: what is read of the lost characters dispatches no more events, and
the same ones exactly when no dispatched event loses any. -/
theorem readLines_alike (hf : fields.Faithful) {lines : List (List (Char × Bool))}
    {lines' : List (List Char)} (h : List.Forall₂ Blurred lines lines')
    (hb : BlockAlike block block' typeCut dataCut) :
    (readLines fields block' lines').2.length ≤
        (readLines fields block (lines.map (List.map Prod.fst))).2.length ∧
      ((readLines fields block' lines').2 =
          (readLines fields block (lines.map (List.map Prod.fst))).2 ↔
        intactFrom fields block typeCut dataCut lines = true) := by
  induction h generalizing block block' typeCut dataCut with
  | nil => exact ⟨Nat.le_refl _, fun _ => rfl, fun _ => rfl⟩
  | @cons line line' lines lines' hline _ ih =>
    obtain ⟨m, hm, htext, hlossy⟩ := trimCr_blurred hline
    have hnil : trimCr line' = [] ↔ trimCr (line.map Prod.fst) = [] := by
      rw [hm.eq_nil_iff, htext]
    rw [List.map_cons, readLines, readLines, intactFrom]
    by_cases hempty : trimCr (line.map Prod.fst) = []
    · -- the end of an event
      rw [if_pos (hnil.2 hempty), if_pos hempty, if_pos hempty]
      obtain ⟨hle, hiff⟩ := ih (BlockAlike.refl {})
      obtain ⟨hnone, hsome⟩ := event_alike hb
      cases hevent : block.event with
      | none =>
        rw [hnone hevent]
        simpa using ⟨hle, hiff⟩
      | some e =>
        have hsame := hsome e hevent
        cases hevent' : block'.event with
        | none =>
          rw [hevent'] at hsame
          have hcut : (typeCut || dataCut) = true := by
            rw [← Bool.not_eq_false]
            exact fun hcut => absurd (hsame.2 hcut) (by simp)
          rw [hcut]
          refine ⟨Nat.le_succ_of_le hle, fun heq => ?_, fun hfalse => by cases hfalse⟩
          have hlength := congrArg List.length heq
          simp only [Option.toList_none, Option.toList_some, List.nil_append, List.length_append,
            List.length_singleton] at hlength
          omega
        | some e' =>
          rw [hevent', Option.some.injEq] at hsame
          refine ⟨Nat.succ_le_succ hle, ?_⟩
          rw [Option.toList_some, Option.toList_some, List.singleton_append, List.singleton_append,
            List.cons.injEq, hsame, hiff]
          simp
    · -- a field
      rw [if_neg fun h' => hempty (hnil.1 h'), if_neg hempty, if_neg hempty]
      have htype := hf.eventType m _ hm
      have hdata := hf.data m _ hm
      rw [htext, hlossy] at htype hdata
      obtain ⟨hn, hn'⟩ | ⟨w, w', hw, hw', heq, hcut⟩ := htype
      · obtain ⟨hd, hd'⟩ | ⟨w, w', hw, hw', heq, hcut⟩ := hdata
        · simpa only [Block.field, hn, hn', hd, hd'] using ih hb
        · simpa only [Block.field, hn, hn', hw, hw'] using ih (hb.data heq hcut)
      · simpa only [Block.field, hw, hw'] using ih (hb.type heq hcut)

/-- The whole stream in one chunk is read as its text. -/
theorem decodeChunks_encode (s : List Char) : decodeChunks [encode s] = s := by
  rw [decodeChunks_cons]
  induction s with
  | nil => rfl
  | cons c s ih =>
    rw [encode_cons, (encodes c).decode, List.cons_append, ih]

theorem listen_alike (hf : fields.Faithful) {chunks : List (List UInt8)} {s : List Char}
    (h : chunks.flatten = encode s) :
    listen fields chunks = listen fields [encode s] ↔ intact fields chunks s = true := by
  have hblurred := (blurred_cutLines (blurred_decodeChunks h)).1
  have hlines : (cutLines isNewline s).1 =
      (cutLines (fun x => isNewline x.1) (marks (cuts 0 chunks) 0 s)).1.map (List.map Prod.fst) := by
    have hmap : cutLines isNewline ((marks (cuts 0 chunks) 0 s).map Prod.fst) = _ :=
      cutLines_map Prod.fst _
    rw [map_marks] at hmap
    exact congrArg Prod.fst hmap
  rw [listen_eq, listen_eq, decodeChunks_encode, hlines]
  exact (readLines_alike hf hblurred (BlockAlike.refl {})).2

/-- **Chunks and events.** For every stream of text and every way of cutting it, each listener
dispatches the events it dispatches for the whole stream exactly when no cut falls inside a character
of one of these. -/
theorem chunking_iff {chunks : List (List UInt8)} {s : List Char} (h : chunks.flatten = encode s) :
    (listen sseFields chunks = listen sseFields [encode s] ↔ intact sseFields chunks s = true) ∧
      (listen getFields chunks = listen getFields [encode s] ↔ intact getFields chunks s = true) :=
  ⟨listen_alike sseFields_faithful h, listen_alike getFields_faithful h⟩

/-- A stream that is cut between `\r` and `\n` and between two characters. -/
theorem chunking_iff_crlf :
    listen sseFields [encode "data: é\r".toList, encode "\n\r\n".toList] =
        listen sseFields [encode "data: é\r\n\r\n".toList] ∧
      intact sseFields [encode "data: é\r".toList, encode "\n\r\n".toList]
        "data: é\r\n\r\n".toList = true := by
  have hflat : [encode "data: é\r".toList, encode "\n\r\n".toList].flatten =
      encode "data: é\r\n\r\n".toList := by decide
  have hintact : intact sseFields [encode "data: é\r".toList, encode "\n\r\n".toList]
      "data: é\r\n\r\n".toList = true := by decide
  exact ⟨(chunking_iff hflat).1.2 hintact, hintact⟩

/-- A cut inside the `é`. -/
theorem cut_character_lost :
    [[0x64, 0x61, 0x74, 0x61, 0x3A, 0xC3], [0xA9, 0x0A, 0x0A]].flatten = encode "data:é\n\n".toList ∧
      listen sseFields [[0x64, 0x61, 0x74, 0x61, 0x3A, 0xC3], [0xA9, 0x0A, 0x0A]] ≠
        listen sseFields [encode "data:é\n\n".toList] := by
  decide

end EndaraRelay
