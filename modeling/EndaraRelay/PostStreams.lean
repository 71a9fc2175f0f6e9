import EndaraRelay.MessageDispatch

/-!
# The streams that answer a POST

`parse_sse_response` reads the body of a response as an event stream, and so does the GET listener of the
same adapter. The listener goes by lines, each ended by LF or CRLF. The parser cuts the body at `\n\n`
and reads what is between two cuts as one event.

**The slip.** An empty line that ends in CRLF ends an event for the listener only. For the parser the events
before and after it are one, whose data is no JSON document: a response and a notification that arrive in
this way are both lost.

**Theorem (`parseSseResponse_agrees_iff`).** Parser and listener agree on a body exactly when every
`tools/list_changed` is the only event with data in its block, and the first response with the id that is
alone in its block is the first of all. A block goes up to the next empty line that ends in LF.

It is for bodies in which no document is put together from the data of several events.
-/

namespace EndaraRelay

open Verif Verif.Utf8 Verif.Lines

/-! ## Event streams -/

/-- A line, with whether it ends in CRLF or in LF. -/
structure StreamLine where
  text : List Char
  crlf : Bool
deriving DecidableEq

namespace StreamLine

variable (l : StreamLine)

def chars : List Char := l.text ++ if l.crlf then ['\r', '\n'] else ['\n']

def blank : Bool := l.text = []

def lfBlank : Bool := l.blank && !l.crlf

end StreamLine

/-- The text of a stream. -/
def render (lines : List StreamLine) : List Char := lines.flatMap StreamLine.chars

/-- Lines of comments and fields, and an empty line at the end. -/
structure WellFormedStream (lines : List StreamLine) : Prop where
  plain : ∀ l ∈ lines, '\n' ∉ l.text ∧ '\r' ∉ l.text
  field : ∀ l ∈ lines, ∀ c ∈ l.text.head?, isWhitespace c = false
  ended : ∀ l ∈ lines.getLast?, l.blank = true

/-- The data of an event: its `data:` lines that are not empty. -/
def payload (event : List StreamLine) : List Char :=
  ['\n'].intercalate (((event.map StreamLine.text).filterMap getFields.data).filter (· ≠ []))

/-- What the parser takes for an event: the lines up to the next empty one that ends in LF. -/
def blocks (lines : List StreamLine) : List (List StreamLine) := lines.splitOnP StreamLine.lfBlank

/-- The data of the events in a block that have any. -/
def payloads (block : List StreamLine) : List (List Char) :=
  ((block.splitOnP StreamLine.blank).map payload).filter (· ≠ [])

/-! ## Documents -/

/-- `serde_json::from_str`: white space around a document does not matter, a line break within it is one
between its tokens, and nothing follows it. -/
structure DocumentReader where
  fromStr : List Char → Option Json
  empty : fromStr [] = none
  firstBreak : ∀ b, fromStr ('\n' :: b) = fromStr b
  lastBreak : ∀ a, fromStr (a ++ ['\n']) = fromStr a
  innerBreak : ∀ a b, fromStr (a ++ '\n' :: '\n' :: b) = fromStr (a ++ '\n' :: b)
  trailing : ∀ a c v, isWhitespace c = true → fromStr (a ++ [c]) = some v → fromStr a = some v
  single : ∀ a b v w, fromStr a = some v → fromStr (a ++ '\n' :: b) = some w →
    ∀ c ∈ b, isWhitespace c = true

def responseWith (id : Nat) (document : Json) : Option JsonRpcResponse :=
  (JsonRpcResponse.fromJson document).filter fun response => response.id == some id

/-- What a list of documents comes to for a request: the first response with its id, and the ticks. -/
def answersIn (documents : List Json) (id : Nat) : Option JsonRpcResponse × Nat :=
  (documents.findSome? (responseWith id), documents.countP notifies)

/-- The documents that the GET listener reads from a stream. -/
def listenedDocuments (reader : DocumentReader) (chunks : List (List UInt8)) : List Json :=
  (listen getFields chunks).filterMap fun event =>
    match event with
    | .message data => reader.fromStr data
    | .endpoint _ => none

def allDocuments (reader : DocumentReader) (lines : List StreamLine) : List Json :=
  ((blocks lines).flatMap payloads).filterMap reader.fromStr

/-- The document that is the only data of a block. -/
def aloneDocument (reader : DocumentReader) (block : List StreamLine) : Option Json :=
  match payloads block with
  | [p] => reader.fromStr p
  | _ => none

/-- The documents that are alone in their blocks. -/
def aloneDocuments (reader : DocumentReader) (lines : List StreamLine) : List Json :=
  (blocks lines).filterMap (aloneDocument reader)

/-- A notification in a block is all that is in it. -/
def NotifiesAlone (reader : DocumentReader) (block : List StreamLine) : Prop :=
  ∀ p ∈ payloads block, ∀ v, reader.fromStr p = some v → notifies v = true → payloads block = [p]

/-- No document is put together: where the data of a block, with or without the white space at its end,
is a document, it is that of one event and the document of this event. -/
def NoFragments (reader : DocumentReader) (lines : List StreamLine) : Prop :=
  ∀ block ∈ blocks lines, ∀ a w v, payload block = a ++ w → (∀ c ∈ w, isWhitespace c = true) →
    reader.fromStr a = some v → payloads block = [payload block] ∧ reader.fromStr (payload block) = some v

/-! ## A reader of documents without white space -/

def words (s : List Char) : List (List Char) := (s.splitOnP isWhitespace).filter (· ≠ [])

theorem words_append {c : Char} (hc : isWhitespace c = true) (a b : List Char) :
    words (a ++ c :: b) = words a ++ words b := by
  rw [words, List.splitOnP_append_cons a b hc, List.filter_append]
  rfl

variable {s t : List Char} {block lines : List StreamLine}

theorem isWhitespace_of_words_eq_nil (h : words s = []) : ∀ c ∈ s, isWhitespace c = true := by
  induction s with
  | nil => simp
  | cons c s ih =>
    rw [words, List.splitOnP_cons_eq_if_modifyHead] at h
    cases hc : isWhitespace c with
    | true =>
      rw [if_pos hc] at h
      exact List.forall_mem_cons.mpr ⟨hc, ih (by simpa [words] using h)⟩
    | false =>
      cases hs : s.splitOnP isWhitespace with
      | nil => exact absurd hs (List.splitOnP_ne_nil _ _)
      | cons word rest => simp [hs, hc] at h

/-- One word is looked up, several are none. -/
def lookUp (table : List Char → Option Json) : List (List Char) → Option Json
  | [word] => table word
  | _ => none

/-- A reader for documents of one word. -/
def DocumentReader.ofTable (table : List Char → Option Json) : DocumentReader where
  fromStr s := lookUp table (words s)
  empty := rfl
  firstBreak b := congrArg (lookUp table) (@words_append '\n' rfl [] b)
  lastBreak a := by
    rw [@words_append '\n' rfl a [], show words [] = [] from rfl, List.append_nil]
  innerBreak a b := by
    have hb : words ('\n' :: b) = words b := @words_append '\n' rfl [] b
    rw [@words_append '\n' rfl a ('\n' :: b), @words_append '\n' rfl a b, hb]
  trailing a c v hc h := by
    rwa [@words_append c hc a [], show words [] = [] from rfl, List.append_nil] at h
  single a b v w ha hb := by
    rw [@words_append '\n' rfl a b] at hb
    apply isWhitespace_of_words_eq_nil
    match hwa : words a, hwb : words b with
    | _, [] => rfl
    | [], _ :: _ => simp [hwa, lookUp] at ha
    | _ :: _, _ :: _ => simp [hwa, hwb, lookUp] at hb

/-! ## Cutting the text -/

/-- Put a list before the first of some lists. -/
def prepend {α : Type} (p : List α) : List (List α) → List (List α)
  | [] => [p]
  | event :: events => (p ++ event) :: events

theorem splitEvents_ne_nil (s : List Char) : splitEvents s ≠ [] := by
  unfold splitEvents
  split
  · simp
  · simp
  · split <;> simp

theorem prepend_prepend {α : Type} (p t : List α) (s : List (List α)) :
    prepend p (prepend t s) = prepend (p ++ t) s := by
  cases s with
  | nil => rfl
  | cons event events => simp [prepend]

theorem splitEvents_cons {c : Char} (h : c = '\n' → s.head? ≠ some '\n') :
    splitEvents (c :: s) = prepend [c] (splitEvents s) := by
  rw [splitEvents]
  · cases hevents : splitEvents s with
    | nil => exact absurd hevents (splitEvents_ne_nil s)
    | cons event events => rfl
  · rintro rest rfl rfl
    exact h rfl rfl

theorem splitEvents_append (ht : '\n' ∉ t) (s : List Char) :
    splitEvents (t ++ s) = prepend t (splitEvents s) := by
  induction t with
  | nil =>
    cases hs : splitEvents s with
    | nil => exact absurd hs (splitEvents_ne_nil s)
    | cons event events => exact hs
  | cons c t ih =>
    obtain ⟨hc, ht⟩ := List.ne_and_not_mem_of_not_mem_cons ht
    rw [List.cons_append, splitEvents_cons (fun h => absurd h.symm hc), ih ht, prepend_prepend,
      List.singleton_append]

theorem prepend_nil {α : Type} {s : List (List α)} (hs : s ≠ []) : prepend [] s = s := by
  cases s with
  | nil => exact absurd rfl hs
  | cons event events => rfl

theorem blocks_ne_nil (lines : List StreamLine) : blocks lines ≠ [] := List.splitOnP_ne_nil _ _

theorem blocks_of_lfBlank {l : StreamLine} (h : l.lfBlank = true) (lines : List StreamLine) :
    blocks (l :: lines) = [] :: blocks lines := by
  rw [blocks, List.splitOnP_cons_eq_if_modifyHead, if_pos h]
  rfl

theorem map_render_blocks {l : StreamLine} (h : l.lfBlank = false) (lines : List StreamLine) :
    (blocks (l :: lines)).map render = prepend l.chars ((blocks lines).map render) := by
  rw [blocks, List.splitOnP_cons_eq_if_modifyHead, if_neg (by simp [h])]
  cases hb : lines.splitOnP StreamLine.lfBlank with
  | nil => exact absurd hb (blocks_ne_nil lines)
  | cons block rest => simp [blocks, hb, prepend, render]

namespace StreamLine

variable {l : StreamLine}

theorem chars_of_lfBlank (h : l.lfBlank = true) : l.chars = ['\n'] := by
  simp only [lfBlank, blank, Bool.and_eq_true, Bool.not_eq_true', decide_eq_true_eq] at h
  simp [chars, h.1, h.2]

/-- Another line has something before its line break. -/
theorem chars_of_not_lfBlank (h : l.lfBlank = false) (hplain : '\n' ∉ l.text) :
    ∃ t, l.chars = t ++ ['\n'] ∧ '\n' ∉ t ∧ t ≠ [] := by
  obtain ⟨text, crlf⟩ := l
  cases crlf with
  | true => exact ⟨text ++ ['\r'], by simp [chars], by simpa using hplain, by simp⟩
  | false => exact ⟨text, rfl, hplain, by simpa [lfBlank, blank] using h⟩

end StreamLine

/-- A stream that does not begin with an empty line ended in LF does not begin with a line break. -/
theorem head?_render (hplain : ∀ l ∈ lines, '\n' ∉ l.text) (h : ∀ l ∈ lines.head?, l.lfBlank = false) :
    (render lines).head? ≠ some '\n' := by
  cases lines with
  | nil => simp [render]
  | cons l lines =>
    obtain ⟨t, hchars, ht, hne⟩ := StreamLine.chars_of_not_lfBlank (h l rfl) (hplain l (by simp))
    rw [render, List.flatMap_cons, hchars]
    cases t with
    | nil => exact absurd rfl hne
    | cons c t =>
      have hc : '\n' ≠ c := (List.ne_and_not_mem_of_not_mem_cons ht).1
      simpa using hc.symm

theorem head_lfBlank_cases (lines : List StreamLine) :
    (∃ l later, lines = l :: later ∧ l.lfBlank = true) ∨ ∀ l ∈ lines.head?, l.lfBlank = false := by
  cases lines with
  | nil => exact .inr (by simp)
  | cons l later =>
    cases hl : l.lfBlank with
    | true => exact .inl ⟨l, later, rfl, hl⟩
    | false => exact .inr (by simpa using hl)

/-- What is read of the events that the parser cuts is what is read of the blocks, if line breaks around
an event do not matter. A text `p` may be before the first. -/
theorem filterMap_splitEvents {α : Type} {q : List Char → Option α} (hempty : q [] = none)
    (hfirst : ∀ s, q ('\n' :: s) = q s) (hlast : ∀ s, q (s ++ ['\n']) = q s) (lines : List StreamLine)
    (hplain : ∀ l ∈ lines, '\n' ∉ l.text) (p : List Char)
    (hp : p = [] ∨ ∀ l ∈ lines.head?, l.lfBlank = false) :
    (prepend p (splitEvents (render lines))).filterMap q =
      (prepend p ((blocks lines).map render)).filterMap q := by
  match lines with
  | [] => rfl
  | l :: lines =>
    have hlater : ∀ l ∈ lines, '\n' ∉ l.text := fun l hl => hplain l (List.mem_cons_of_mem _ hl)
    have hrender : render (l :: lines) = l.chars ++ render lines := rfl
    -- behind a line and an empty one that ends in LF
    have hcut : ∀ m later, lines = m :: later → m.lfBlank = true →
        splitEvents ('\n' :: render lines) = [] :: splitEvents (render later) ∧
          (splitEvents (render later)).filterMap q = ((blocks later).map render).filterMap q := by
      rintro m later rfl hm
      have ih := filterMap_splitEvents hempty hfirst hlast later
        (fun l hl => hlater l (List.mem_cons_of_mem _ hl)) [] (.inl rfl)
      rw [prepend_nil (splitEvents_ne_nil _), prepend_nil (by simp [blocks_ne_nil])] at ih
      refine ⟨?_, ih⟩
      rw [render, List.flatMap_cons, StreamLine.chars_of_lfBlank hm]
      rfl
    cases hl : l.lfBlank with
    | true =>
      obtain rfl : p = [] := hp.resolve_right fun h => by simp [h l rfl] at hl
      rw [prepend_nil (splitEvents_ne_nil _), prepend_nil (by simp [blocks_ne_nil]), hrender,
        StreamLine.chars_of_lfBlank hl, blocks_of_lfBlank hl, List.singleton_append]
      obtain ⟨m, later, rfl, hm⟩ | hnext := head_lfBlank_cases lines
      · obtain ⟨hsplit, hread⟩ := hcut m later rfl hm
        rw [hsplit, blocks_of_lfBlank hm]
        simpa [hempty, render] using hread
      · rw [splitEvents_cons fun _ => head?_render hlater hnext]
        have ih := filterMap_splitEvents hempty hfirst hlast lines hlater [] (.inl rfl)
        rw [prepend_nil (splitEvents_ne_nil _), prepend_nil (by simp [blocks_ne_nil])] at ih
        have hbreak : (prepend ['\n'] (splitEvents (render lines))).filterMap q =
            (splitEvents (render lines)).filterMap q := by
          cases splitEvents (render lines) with
          | nil => simp [prepend, hempty, hfirst]
          | cons event events => simp [prepend, List.filterMap_cons, hfirst]
        rw [hbreak, ih]
        simp [hempty, render]
    | false =>
      obtain ⟨t, hchars, ht, -⟩ := StreamLine.chars_of_not_lfBlank hl (hplain l (by simp))
      rw [hrender, map_render_blocks hl, prepend_prepend, hchars, List.append_assoc,
        splitEvents_append ht, List.singleton_append]
      obtain ⟨m, later, hlines, hm⟩ | hnext := head_lfBlank_cases lines
      · obtain ⟨hsplit, hread⟩ := hcut m later hlines hm
        rw [hsplit, hlines, blocks_of_lfBlank hm]
        simp only [prepend, List.append_nil, List.map_cons, List.filterMap_cons, hread]
        rw [show p ++ (t ++ ['\n']) ++ render [] = (p ++ t) ++ ['\n'] by simp [render], hlast]
      · rw [splitEvents_cons fun _ => head?_render hlater hnext, prepend_prepend, prepend_prepend,
          List.append_assoc]
        exact filterMap_splitEvents hempty hfirst hlast lines hlater _ (.inr hnext)
termination_by lines.length

/-! ## The lines of the listener -/

/-- The values of the `data:` lines of an event. -/
def values (event : List StreamLine) : List (List Char) :=
  (event.map StreamLine.text).filterMap getFields.data

theorem cutLines_text (ht : '\n' ∉ t) (s : List Char) :
    cutLines isNewline (t ++ '\n' :: s) = (t :: (cutLines isNewline s).1, (cutLines isNewline s).2) := by
  induction t with
  | nil => rfl
  | cons c t ih =>
    obtain ⟨hc, ht⟩ := List.ne_and_not_mem_of_not_mem_cons ht
    rw [List.cons_append, cutLines, ih ht, if_neg (by simpa [isNewline] using hc.symm)]

def StreamLine.buffered (l : StreamLine) : List Char := l.text ++ if l.crlf then ['\r'] else []

theorem StreamLine.chars_eq (l : StreamLine) : l.chars = l.buffered ++ ['\n'] := by
  obtain ⟨text, crlf⟩ := l
  cases crlf <;> simp [chars, buffered]

theorem newline_notMem_buffered {l : StreamLine} (h : '\n' ∉ l.text) : '\n' ∉ l.buffered := by
  obtain ⟨text, crlf⟩ := l
  cases crlf <;> simpa [StreamLine.buffered] using h

theorem cutLines_render (hplain : ∀ l ∈ lines, '\n' ∉ l.text) (s : List Char) :
    cutLines isNewline (render lines ++ s) =
      (lines.map StreamLine.buffered ++ (cutLines isNewline s).1, (cutLines isNewline s).2) := by
  induction lines with
  | nil => rfl
  | cons l lines ih =>
    have hlater : ∀ l ∈ lines, '\n' ∉ l.text := fun l hl => hplain l (List.mem_cons_of_mem _ hl)
    have hrender : render (l :: lines) ++ s = l.buffered ++ '\n' :: (render lines ++ s) := by
      rw [render, List.flatMap_cons, l.chars_eq]
      simp [render]
    rw [hrender, cutLines_text (newline_notMem_buffered (hplain l (by simp))), ih hlater]
    rfl

theorem trimCr_of_plain (h : '\r' ∉ t) : trimCr t = t := by
  apply List.rdropWhile_eq_self_iff.mpr
  intro hne hlast
  apply h
  rw [← show t.getLast hne = '\r' by simpa [isCr] using hlast]
  exact List.getLast_mem hne

theorem trimCr_buffered {l : StreamLine} (h : '\r' ∉ l.text) : trimCr l.buffered = l.text := by
  obtain ⟨text, crlf⟩ := l
  cases crlf with
  | false => simpa [StreamLine.buffered] using trimCr_of_plain h
  | true =>
    have hcr : trimCr (text ++ ['\r']) = trimCr text := by
      rw [trimCr, List.rdropWhile_concat_pos _ _ _ rfl]
      rfl
    simpa [StreamLine.buffered, hcr] using trimCr_of_plain h

theorem map_values_of_blank {l : StreamLine} (h : l.blank = true) (lines : List StreamLine) :
    ((l :: lines).splitOnP StreamLine.blank).map values =
      [] :: (lines.splitOnP StreamLine.blank).map values := by
  rw [List.splitOnP_cons_eq_if_modifyHead, if_pos h]
  rfl

theorem map_values_of_not_blank {l : StreamLine} (h : l.blank = false) (lines : List StreamLine) :
    ((l :: lines).splitOnP StreamLine.blank).map values =
      prepend (getFields.data l.text).toList ((lines.splitOnP StreamLine.blank).map values) := by
  rw [List.splitOnP_cons_eq_if_modifyHead, if_neg (by simp [h])]
  cases hevents : lines.splitOnP StreamLine.blank with
  | nil => exact absurd hevents (List.splitOnP_ne_nil _ _)
  | cons event events =>
    cases hdata : getFields.data l.text with
    | none => simp [values, prepend, hdata]
    | some v => simp [values, prepend, hdata]

theorem field_getFields (data : List (List Char)) (line : List Char) :
    Block.field getFields ⟨[], data⟩ line = ⟨[], data ++ (getFields.data line).toList⟩ := by
  unfold Block.field
  cases getFields.data line with
  | none => simp [getFields]
  | some v => rfl

/-- The listener dispatches the events between the empty lines, the first of which may have begun. -/
theorem readLines_events (hplain : ∀ l ∈ lines, '\r' ∉ l.text)
    (hended : ∀ l ∈ lines.getLast?, l.blank = true) (data : List (List Char))
    (hdata : lines = [] → data = []) :
    (readLines getFields ⟨[], data⟩ (lines.map StreamLine.buffered)).2 =
      (prepend data ((lines.splitOnP StreamLine.blank).map values)).filterMap fun data =>
        Block.event ⟨[], data⟩ := by
  induction lines generalizing data with
  | nil =>
    rw [hdata rfl]
    rfl
  | cons l lines ih =>
    have hlater : ∀ l ∈ lines, '\r' ∉ l.text := fun l hl => hplain l (List.mem_cons_of_mem _ hl)
    have hlast : ∀ l ∈ lines.getLast?, l.blank = true := by
      intro m hm
      apply hended
      cases lines with
      | nil => cases hm
      | cons m' lines => rwa [List.getLast?_cons_cons]
    rw [List.map_cons, readLines, trimCr_buffered (hplain l (by simp))]
    cases hl : l.blank with
    | true =>
      rw [if_pos (by simpa [StreamLine.blank] using hl), map_values_of_blank hl]
      have ih := ih hlater hlast [] fun _ => rfl
      rw [prepend_nil (by simp)] at ih
      rw [ih]
      cases hevent : Block.event ⟨[], data⟩ with
      | none => simp [prepend, hevent]
      | some event => simp [prepend, hevent]
    | false =>
      rw [if_neg (by simpa [StreamLine.blank] using hl), field_getFields, map_values_of_not_blank hl,
        prepend_prepend]
      refine ih hlater hlast _ fun hnil => ?_
      subst hnil
      have := hended l rfl
      rw [hl] at this
      cases this

/-! ## Documents of the listener -/

namespace DocumentReader

variable (reader : DocumentReader)

/-- Lines that are empty do not matter behind a text. -/
theorem fromStr_join (pre : List Char) (vs : List (List Char)) :
    reader.fromStr (pre ++ '\n' :: ['\n'].intercalate vs) =
      if vs.filter (· ≠ []) = [] then reader.fromStr pre
      else reader.fromStr (pre ++ '\n' :: ['\n'].intercalate (vs.filter (· ≠ []))) := by
  induction vs generalizing pre with
  | nil => simp [reader.lastBreak]
  | cons v vs ih =>
    by_cases hvs : vs = []
    · subst hvs
      by_cases hv : v = []
      · simp [hv, reader.lastBreak]
      · simp [hv]
    · rw [List.intercalate_cons_of_ne_nil hvs]
      by_cases hv : v = []
      · subst hv
        have hbreak := reader.innerBreak pre (['\n'].intercalate vs)
        simp only [List.nil_append, List.cons_append, ne_eq, not_true_eq_false, decide_false,
          Bool.false_eq_true, not_false_eq_true, List.filter_cons_of_neg, hbreak]
        simpa using ih pre
      · have hassoc : pre ++ '\n' :: (v ++ ['\n'] ++ ['\n'].intercalate vs) =
            (pre ++ '\n' :: v) ++ '\n' :: ['\n'].intercalate vs := by simp
        have hkeep : (v :: vs).filter (· ≠ []) = v :: vs.filter (· ≠ []) := by simp [hv]
        rw [hassoc, ih, hkeep, if_neg (List.cons_ne_nil _ _)]
        split
        · next hnone => rw [hnone, List.intercalate_singleton]
        · next hsome =>
          rw [List.intercalate_cons_of_ne_nil hsome]
          simp

/-- Data is read alike with its empty lines and without. -/
theorem fromStr_filter (vs : List (List Char)) :
    reader.fromStr (['\n'].intercalate vs) = reader.fromStr (['\n'].intercalate (vs.filter (· ≠ []))) := by
  have h := reader.fromStr_join [] vs
  rw [List.nil_append, reader.firstBreak] at h
  rw [h]
  split
  · next hnone => rw [hnone, List.intercalate_nil]
  · rw [List.nil_append, reader.firstBreak]

end DocumentReader

theorem splitOnP_blocks (lines : List StreamLine) :
    lines.splitOnP StreamLine.blank = (blocks lines).flatMap fun block => block.splitOnP StreamLine.blank := by
  induction lines with
  | nil => rfl
  | cons l lines ih =>
    rw [List.splitOnP_cons_eq_if_modifyHead, ih]
    cases hl : l.lfBlank with
    | true =>
      have hblank : l.blank = true := by
        rw [StreamLine.lfBlank, Bool.and_eq_true] at hl
        exact hl.1
      rw [blocks_of_lfBlank hl, if_pos hblank]
      rfl
    | false =>
      have hblocks : blocks (l :: lines) = (blocks lines).modifyHead (l :: ·) := by
        rw [blocks, List.splitOnP_cons_eq_if_modifyHead, if_neg (by simp [hl])]
        rfl
      rw [hblocks]
      cases hb : blocks lines with
      | nil => exact absurd hb (blocks_ne_nil lines)
      | cons block rest =>
        rw [List.modifyHead_cons, List.flatMap_cons, List.flatMap_cons,
          List.splitOnP_cons_eq_if_modifyHead]
        split
        · rfl
        · cases hevents : block.splitOnP StreamLine.blank with
          | nil => exact absurd hevents (List.splitOnP_ne_nil _ _)
          | cons event events => rfl

theorem fromStr_event (reader : DocumentReader) (event : List StreamLine) :
    ((Block.event ⟨[], values event⟩).bind fun event =>
      match event with
      | .message data => reader.fromStr data
      | .endpoint _ => none) = reader.fromStr (payload event) := by
  rw [payload, ← values, ← reader.fromStr_filter]
  unfold Block.event
  split
  · next hnone =>
    dsimp only at hnone
    rw [hnone]
    exact reader.empty.symm
  · rfl

theorem allDocuments_eq (reader : DocumentReader) (lines : List StreamLine) :
    allDocuments reader lines =
      (lines.splitOnP StreamLine.blank).filterMap fun event => reader.fromStr (payload event) := by
  have hblock : ∀ block : List StreamLine, (payloads block).filterMap reader.fromStr =
      (block.splitOnP StreamLine.blank).filterMap fun event => reader.fromStr (payload event) := by
    intro block
    unfold payloads
    induction block.splitOnP StreamLine.blank with
    | nil => rfl
    | cons event events ih =>
      by_cases hdata : payload event = []
      · simpa [hdata, reader.empty] using ih
      · simp only [List.map_cons, ne_eq, hdata, not_false_eq_true, decide_true, List.filter_cons_of_pos,
          List.filterMap_cons, ih]
  rw [allDocuments, splitOnP_blocks, List.filterMap_flatMap, List.filterMap_flatMap]
  exact congrArg (fun f => (blocks lines).flatMap f) (funext hblock)

/-- The listener reads all documents of a stream. -/
theorem listenedDocuments_render (h : WellFormedStream lines) (reader : DocumentReader) :
    listenedDocuments reader [encode (render lines)] = allDocuments reader lines := by
  have hlines : cutLines isNewline (render lines) = (lines.map StreamLine.buffered, []) := by
    have := cutLines_render (fun l hl => (h.plain l hl).1) []
    rwa [List.append_nil, cutLines, List.append_nil] at this
  have hevents := readLines_events (fun l hl => (h.plain l hl).2) h.ended [] fun _ => rfl
  rw [prepend_nil (by simp)] at hevents
  rw [listenedDocuments, listen_eq, decodeChunks, List.flatMap_singleton, decodeLossy_encode, hlines, hevents,
    List.filterMap_map, List.filterMap_filterMap, allDocuments_eq]
  exact congrArg (List.filterMap · _) (funext fun event => fromStr_event reader event)

/-! ## What the parser makes of a block -/

/-- Lines that a block may have: without line breaks, and empty in CRLF only. -/
structure BlockLine (l : StreamLine) : Prop where
  newline : '\n' ∉ l.text
  cr : '\r' ∉ l.text
  field : ∀ c ∈ l.text.head?, isWhitespace c = false
  crlf : l.lfBlank = false

theorem BlockLine.rdropWhile_ne_nil {l : StreamLine} (h : BlockLine l) (hblank : l.blank = false) :
    l.text.rdropWhile isWhitespace ≠ [] := by
  have hne : l.text ≠ [] := by simpa [StreamLine.blank] using hblank
  intro hnil
  rw [List.rdropWhile_eq_nil_iff] at hnil
  cases htext : l.text with
  | nil => exact hne htext
  | cons c t =>
    have hc := hnil c (by simp [htext])
    rw [h.field c (by simp [htext])] at hc
    cases hc

theorem BlockLine.chars_of_blank {l : StreamLine} (h : BlockLine l) (hblank : l.blank = true) :
    l.chars = ['\r', '\n'] := by
  have hcrlf := h.crlf
  rw [StreamLine.lfBlank, hblank, Bool.true_and, Bool.not_eq_false'] at hcrlf
  have htext : l.text = [] := by simpa [StreamLine.blank] using hblank
  simp [StreamLine.chars, hcrlf, htext]

theorem values_of_blank {l : StreamLine} (h : l.blank = true) (lines : List StreamLine) :
    values (l :: lines) = values lines := by
  have htext : l.text = [] := by simpa [StreamLine.blank] using h
  rw [values, values, List.map_cons, htext]
  rfl

/-- A block up to a line that is not empty, without the white space around it. -/
theorem trimChars_render {init : List StreamLine} {z : StreamLine} (hinit : ∀ l ∈ init, BlockLine l)
    (hz : BlockLine z) (hblank : z.blank = false) :
    ∃ core, (∀ l ∈ core, BlockLine l) ∧ values core = values init ∧
      trimChars (render (init ++ [z])) = render core ++ z.text.rdropWhile isWhitespace := by
  have hne := hz.rdropWhile_ne_nil hblank
  have hend : ∀ text, (text ++ z.chars).rdropWhile isWhitespace = text ++ z.text.rdropWhile isWhitespace := by
    intro text
    have hchars : ∃ w, z.chars = z.text ++ w ∧ ∀ c ∈ w, isWhitespace c = true := by
      obtain ⟨text, crlf⟩ := z
      cases crlf with
      | true => exact ⟨['\r', '\n'], rfl, List.all_eq_true.1 rfl⟩
      | false => exact ⟨['\n'], rfl, List.all_eq_true.1 rfl⟩
    obtain ⟨w, hchars, hw⟩ := hchars
    rw [hchars, ← List.append_assoc, rdropWhile_append_of_all hw, rdropWhile_append_of_ne hne]
  induction init with
  | nil =>
    refine ⟨[], by simp, rfl, ?_⟩
    have hhead : ∀ c ∈ z.chars.head?, isWhitespace c = false := by
      have htext : z.text ≠ [] := by simpa [StreamLine.blank] using hblank
      intro c hc
      apply hz.field
      cases htext' : z.text with
      | nil => exact absurd htext' htext
      | cons c' t => simpa [StreamLine.chars, htext'] using hc
    rw [List.nil_append, render, List.flatMap_singleton, trimChars, dropWhile_of_head hhead]
    simpa [render] using hend []
  | cons l init ih =>
    have hl := hinit l (by simp)
    have hlater : ∀ l ∈ init, BlockLine l := fun l hl => hinit l (List.mem_cons_of_mem _ hl)
    cases hlb : l.blank with
    | true =>
      obtain ⟨core, hcore, hvalues, htrim⟩ := ih hlater
      refine ⟨core, hcore, by rw [hvalues, values_of_blank hlb], ?_⟩
      rw [← htrim, List.cons_append, render, List.flatMap_cons, hl.chars_of_blank hlb]
      exact trimChars_of_all_append (List.all_eq_true.1 rfl)
    | false =>
      refine ⟨l :: init, hinit, rfl, ?_⟩
      have hhead : ∀ c ∈ (render (l :: init ++ [z])).head?, isWhitespace c = false := by
        have htext : l.text ≠ [] := by simpa [StreamLine.blank] using hlb
        intro c hc
        apply hl.field
        cases htext' : l.text with
        | nil => exact absurd htext' htext
        | cons c' t => simpa [render, StreamLine.chars, htext'] using hc
      rw [trimChars, dropWhile_of_head hhead]
      have := hend (render (l :: init))
      simpa [render] using this

theorem stripCr_buffered {l : StreamLine} (h : '\r' ∉ l.text) : stripCr l.buffered = l.text := by
  obtain ⟨text, crlf⟩ := l
  cases crlf with
  | true => simp [stripCr, StreamLine.buffered]
  | false =>
    have hlast : text.getLast? ≠ some '\r' := fun hlast => h (List.mem_of_getLast? hlast)
    simp [stripCr, StreamLine.buffered, hlast]

theorem cutLines_of_plain (h : '\n' ∉ t) : cutLines isNewline t = ([], t) := by
  induction t with
  | nil => rfl
  | cons c t ih =>
    obtain ⟨hc, ht⟩ := List.ne_and_not_mem_of_not_mem_cons h
    rw [cutLines, ih ht, if_neg (by simpa [isNewline] using hc.symm)]

theorem textLines_render {core : List StreamLine} (hcore : ∀ l ∈ core, BlockLine l) (ht : '\n' ∉ t)
    (hne : t ≠ []) : textLines (render core ++ t) = core.map StreamLine.text ++ [t] := by
  rw [textLines, cutLines_render (fun l hl => (hcore l hl).newline), cutLines_of_plain ht]
  simp only [List.append_nil, List.map_map, if_neg hne, List.append_cancel_right_eq]
  apply List.map_congr_left
  intro l hl
  exact stripCr_buffered (hcore l hl).cr

theorem rdropWhile_split (t : List Char) :
    ∃ w, t = t.rdropWhile isWhitespace ++ w ∧ ∀ c ∈ w, isWhitespace c = true :=
  ⟨t.rtakeWhile isWhitespace, List.rdropWhile_append_rtakeWhile.symm,
    fun _ hc => List.mem_rtakeWhile_imp hc⟩

theorem stripOneSpace_rdropWhile (r : List Char) :
    ∃ w, stripOneSpace r = stripOneSpace (r.rdropWhile isWhitespace) ++ w ∧
      ∀ c ∈ w, isWhitespace c = true := by
  obtain ⟨w, hr, hw⟩ := rdropWhile_split r
  cases hr' : r.rdropWhile isWhitespace with
  | nil =>
    rw [hr', List.nil_append] at hr
    refine ⟨stripOneSpace r, rfl, fun c hc => ?_⟩
    have hmem : c ∈ r := by
      unfold stripOneSpace at hc
      cases hspace : r.dropPrefix? [' '] with
      | none => simpa [hspace] using hc
      | some rest =>
        obtain ⟨p, rfl, -⟩ := List.dropPrefix?_eq_some_iff.mp hspace
        exact List.mem_append_right _ (by simpa [hspace] using hc)
    rw [hr] at hmem
    exact hw c hmem
  | cons c t =>
    rw [hr'] at hr
    refine ⟨w, ?_, hw⟩
    rw [hr]
    by_cases hc : c = ' '
    · subst hc
      simp [stripOneSpace, List.dropPrefix?]
    · simp [stripOneSpace, List.dropPrefix?, hc]

/-- Without the white space at its end a line has less of the same data. -/
theorem data_rdropWhile (t : List Char) :
    (getFields.data t = none ∧ getFields.data (t.rdropWhile isWhitespace) = none) ∨
      ∃ v w, getFields.data t = some (v ++ w) ∧ getFields.data (t.rdropWhile isWhitespace) = some v ∧
        ∀ c ∈ w, isWhitespace c = true := by
  cases hdata : t.dropPrefix? "data:".toList with
  | none =>
    left
    refine ⟨congrArg (Option.map stripOneSpace) hdata, ?_⟩
    cases hdata' : (t.rdropWhile isWhitespace).dropPrefix? "data:".toList with
    | none => exact congrArg (Option.map stripOneSpace) hdata'
    | some s =>
      obtain ⟨p, hp, hname⟩ := List.dropPrefix?_eq_some_iff.mp hdata'
      obtain ⟨w, ht, -⟩ := rdropWhile_split t
      have : t.dropPrefix? "data:".toList = some (s ++ w) := by
        rw [List.dropPrefix?_eq_some_iff]
        exact ⟨p, by rw [ht, hp, List.append_assoc], hname⟩
      rw [hdata] at this
      cases this
  | some r =>
    right
    obtain ⟨p, rfl, hname⟩ := List.dropPrefix?_eq_some_iff.mp hdata
    obtain rfl := eq_of_beq hname
    have hdrop : ("data:".toList ++ r).rdropWhile isWhitespace =
        "data:".toList ++ r.rdropWhile isWhitespace := by
      by_cases hr : r.rdropWhile isWhitespace = []
      · rw [rdropWhile_append_of_all (List.rdropWhile_eq_nil_iff.mp hr), hr]
        decide
      · exact rdropWhile_append_of_ne hr
    obtain ⟨w, hstrip, hw⟩ := stripOneSpace_rdropWhile r
    refine ⟨stripOneSpace (r.rdropWhile isWhitespace), w, ?_, ?_, hw⟩
    · rw [← hstrip]
      exact congrArg (Option.map stripOneSpace) hdata
    · rw [hdrop]
      exact congrArg (Option.map stripOneSpace) (List.dropPrefix?_append_of_beq _ BEq.rfl)

/-- The joined lines of a list that has one more. -/
theorem intercalate_concat (vs : List (List Char)) (v : List Char) :
    ['\n'].intercalate (vs ++ [v]) = if vs = [] then v else ['\n'].intercalate vs ++ '\n' :: v := by
  induction vs with
  | nil => simp
  | cons u vs ih =>
    rw [if_neg (List.cons_ne_nil _ _), List.cons_append,
      List.intercalate_cons_of_ne_nil (List.append_ne_nil_of_right_ne_nil _ (List.cons_ne_nil _ _)), ih]
    split
    · next hvs => simp [hvs]
    · next hvs =>
      rw [List.intercalate_cons_of_ne_nil hvs]
      simp

theorem getD_eventData (event : List Char) : (eventData event).getD [] =
    ['\n'].intercalate (((textLines event).filterMap getFields.data).filter (· ≠ [])) := by
  unfold eventData
  dsimp only
  split
  · next hnone => rw [hnone, List.intercalate_nil, Option.getD_none]
  · rw [Option.getD_some]

/-- A last value that has white space less at its end. -/
theorem intercalate_filter_concat (vs : List (List Char)) {v w : List Char}
    (hw : ∀ c ∈ w, isWhitespace c = true) :
    ∃ w', ['\n'].intercalate ((vs ++ [v ++ w]).filter (· ≠ [])) =
        ['\n'].intercalate ((vs ++ [v]).filter (· ≠ [])) ++ w' ∧
      ∀ c ∈ w', isWhitespace c = true := by
  rw [List.filter_append, List.filter_append]
  by_cases hv : v = []
  · subst hv
    rw [List.nil_append, show ([[]] : List (List Char)).filter (· ≠ []) = [] from rfl, List.append_nil]
    by_cases hnil : w = []
    · exact ⟨[], by simp [hnil], by simp⟩
    · rw [show [w].filter (· ≠ []) = [w] by simp [hnil], intercalate_concat]
      split
      · next hvs =>
        rw [hvs, List.intercalate_nil]
        exact ⟨w, rfl, hw⟩
      · refine ⟨'\n' :: w, rfl, ?_⟩
        intro c hc
        obtain rfl | hc := List.mem_cons.mp hc
        · decide
        · exact hw c hc
  · rw [show [v ++ w].filter (· ≠ []) = [v ++ w] by simp [hv], show [v].filter (· ≠ []) = [v] by simp [hv],
      intercalate_concat, intercalate_concat]
    refine ⟨w, ?_, hw⟩
    split
    · rfl
    · rw [List.append_assoc, List.cons_append]

/-- The data that the parser reads in a block, up to white space at its end. -/
theorem eventData_block (h : ∀ l ∈ block, BlockLine l) :
    ∃ w, payload block = (eventData (trimChars (render block))).getD [] ++ w ∧
      ∀ c ∈ w, isWhitespace c = true := by
  induction block using List.reverseRecOn with
  | nil => exact ⟨[], rfl, by simp⟩
  | append_singleton init z ih =>
    have hinit : ∀ l ∈ init, BlockLine l := fun l hl => h l (List.mem_append_left _ hl)
    have hz : BlockLine z := h z (by simp)
    have hvalues : values (init ++ [z]) = values init ++ (getFields.data z.text).toList := by
      cases hdata : getFields.data z.text with
      | none => simp [values, hdata]
      | some v => simp [values, hdata]
    cases hblank : z.blank with
    | true =>
      have htext : z.text = [] := by simpa [StreamLine.blank] using hblank
      have hpayload : payload (init ++ [z]) = payload init := by
        rw [payload, ← values, hvalues, htext]
        exact congrArg (fun vs => ['\n'].intercalate (vs.filter (· ≠ []))) (List.append_nil _)
      have hrender : render (init ++ [z]) = render init ++ ['\r', '\n'] := by
        rw [render, List.flatMap_append, List.flatMap_singleton, hz.chars_of_blank hblank]
        rfl
      rw [hpayload, hrender, trimChars_append (List.all_eq_true.1 rfl)]
      exact ih hinit
    | false =>
      obtain ⟨core, hcore, hsame, htrim⟩ := trimChars_render hinit hz hblank
      have hnewline : '\n' ∉ z.text.rdropWhile isWhitespace := fun hmem =>
        hz.newline ((List.rdropWhile_prefix _ _).subset hmem)
      rw [htrim, getD_eventData, textLines_render hcore hnewline (hz.rdropWhile_ne_nil hblank),
        List.filterMap_append, ← values, hsame, payload, ← values, hvalues]
      obtain ⟨hnone, hnone'⟩ | ⟨v, w, hsome, hsome', hw⟩ := data_rdropWhile z.text
      · exact ⟨[], by simp [hnone, hnone'], by simp⟩
      · obtain ⟨w', heq, hw'⟩ := intercalate_filter_concat (values init) hw
        refine ⟨w', ?_, hw'⟩
        simpa [hsome, hsome'] using heq

/-! ## Blocks and their events -/

theorem intercalate_append (vs ws : List (List Char)) : ['\n'].intercalate (vs ++ ws) =
    if vs = [] then ['\n'].intercalate ws else if ws = [] then ['\n'].intercalate vs
      else ['\n'].intercalate vs ++ '\n' :: ['\n'].intercalate ws := by
  induction vs with
  | nil => rfl
  | cons v vs ih =>
    rw [if_neg (List.cons_ne_nil _ _), List.cons_append]
    by_cases hvs : vs = []
    · subst hvs
      by_cases hws : ws = []
      · simp [hws]
      · rw [if_neg hws, List.nil_append, List.intercalate_cons_of_ne_nil hws]
        simp
    · rw [List.intercalate_cons_of_ne_nil (List.append_ne_nil_of_left_ne_nil hvs _),
        List.intercalate_cons_of_ne_nil hvs, ih, if_neg hvs]
      split
      · rfl
      · simp

theorem intercalate_eq_nil {vs : List (List Char)} (h : ∀ v ∈ vs, v ≠ []) :
    ['\n'].intercalate vs = [] ↔ vs = [] := by
  cases vs with
  | nil => simp
  | cons v vs =>
    by_cases hvs : vs = []
    · simpa [hvs] using h v (by simp)
    · rw [List.intercalate_cons_of_ne_nil hvs]
      simp

/-- Joined values may be joined in groups. -/
theorem intercalate_flatten (groups : List (List (List Char))) (h : ∀ vs ∈ groups, ∀ v ∈ vs, v ≠ []) :
    ['\n'].intercalate groups.flatten =
      ['\n'].intercalate ((groups.map ['\n'].intercalate).filter (· ≠ [])) := by
  induction groups with
  | nil => rfl
  | cons vs groups ih =>
    have ih := ih fun ws hws => h ws (List.mem_cons_of_mem _ hws)
    have hvs := intercalate_eq_nil (h vs (by simp))
    have hrest : groups.flatten = [] ↔ (groups.map ['\n'].intercalate).filter (· ≠ []) = [] := by
      rw [← intercalate_eq_nil fun v hv => ?_, ih, intercalate_eq_nil fun v hv => ?_]
      · simpa using (List.mem_filter.mp hv).2
      · obtain ⟨ws, hws, hv⟩ := List.mem_flatten.mp hv
        exact h ws (List.mem_cons_of_mem _ hws) v hv
    rw [List.flatten_cons, intercalate_append, List.map_cons]
    by_cases hnil : vs = []
    · subst hnil
      rw [if_pos rfl, ih]
      rfl
    · rw [if_neg hnil, List.filter_cons_of_pos (by simpa using mt hvs.mp hnil)]
      by_cases hgroups : groups.flatten = []
      · rw [if_pos hgroups, hrest.mp hgroups, List.intercalate_singleton]
      · rw [if_neg hgroups, List.intercalate_cons_of_ne_nil (mt hrest.mpr hgroups), ih]
        simp

theorem values_splitOnP (block : List StreamLine) :
    values block = ((block.splitOnP StreamLine.blank).map values).flatten := by
  induction block with
  | nil => rfl
  | cons l block ih =>
    cases hl : l.blank with
    | true => rw [values_of_blank hl, map_values_of_blank hl, List.flatten_cons, List.nil_append, ih]
    | false =>
      rw [map_values_of_not_blank hl]
      have hcons : values (l :: block) = (getFields.data l.text).toList ++ values block := by
        cases hdata : getFields.data l.text with
        | none => simp [values, hdata]
        | some v => simp [values, hdata]
      rw [hcons, ih]
      cases hevents : (block.splitOnP StreamLine.blank).map values with
      | nil => simp [prepend]
      | cons event events => simp [prepend]

/-- The data of a block is the data of its events. -/
theorem payload_eq_intercalate (block : List StreamLine) :
    payload block = ['\n'].intercalate (payloads block) := by
  have hgroups : payloads block = ((((block.splitOnP StreamLine.blank).map values).map
      (List.filter (· ≠ []))).map ['\n'].intercalate).filter (· ≠ []) := by
    rw [payloads, List.map_map, List.map_map]
    rfl
  rw [payload, ← values, values_splitOnP, List.filter_flatten, hgroups]
  apply intercalate_flatten
  intro vs hvs v hv
  obtain ⟨us, -, rfl⟩ := List.mem_map.mp hvs
  simpa using (List.mem_filter.mp hv).2

theorem not_lfBlank_of_mem (hblock : block ∈ blocks lines) {l : StreamLine} (hl : l ∈ block) :
    l ∈ lines ∧ l.lfBlank = false := by
  induction lines generalizing block with
  | nil =>
    rw [show blocks [] = [[]] from rfl, List.mem_singleton] at hblock
    rw [hblock] at hl
    cases hl
  | cons m lines ih =>
    cases hm : m.lfBlank with
    | true =>
      rw [blocks_of_lfBlank hm] at hblock
      obtain rfl | hblock := List.mem_cons.mp hblock
      · cases hl
      · exact ⟨List.mem_cons_of_mem _ (ih hblock hl).1, (ih hblock hl).2⟩
    | false =>
      rw [blocks, List.splitOnP_cons_eq_if_modifyHead, if_neg (by simp [hm])] at hblock
      cases hrest : lines.splitOnP StreamLine.lfBlank with
      | nil => exact absurd hrest (blocks_ne_nil lines)
      | cons first rest =>
        rw [hrest, List.modifyHead_cons] at hblock
        have hfirst : first ∈ blocks lines := by
          rw [blocks, hrest]
          exact List.mem_cons_self
        obtain rfl | hblock := List.mem_cons.mp hblock
        · obtain rfl | hl := List.mem_cons.mp hl
          · exact ⟨List.mem_cons_self, hm⟩
          · exact ⟨List.mem_cons_of_mem _ (ih hfirst hl).1, (ih hfirst hl).2⟩
        · have hlater : block ∈ blocks lines := by
            rw [blocks, hrest]
            exact List.mem_cons_of_mem _ hblock
          exact ⟨List.mem_cons_of_mem _ (ih hlater hl).1, (ih hlater hl).2⟩

theorem WellFormedStream.blockLine (h : WellFormedStream lines) (hblock : block ∈ blocks lines) :
    ∀ l ∈ block, BlockLine l := by
  intro l hl
  obtain ⟨hmem, hcrlf⟩ := not_lfBlank_of_mem hblock hl
  exact ⟨(h.plain l hmem).1, (h.plain l hmem).2, h.field l hmem, hcrlf⟩

/-! ## The documents of the parser -/

namespace DocumentReader

variable (reader : DocumentReader)

theorem fromStr_of_append {a w : List Char} {v : Json} (hw : ∀ c ∈ w, isWhitespace c = true)
    (h : reader.fromStr (a ++ w) = some v) : reader.fromStr a = some v := by
  induction w using List.reverseRecOn with
  | nil => rwa [List.append_nil] at h
  | append_singleton w c ih =>
    rw [← List.append_assoc] at h
    exact ih (fun c hc => hw c (List.mem_append_left _ hc)) (reader.trailing _ c v (hw c (by simp)) h)

/-- A document is more than white space. -/
theorem exists_of_fromStr {p : List Char} {v : Json} (h : reader.fromStr p = some v) :
    ∃ c ∈ p, isWhitespace c = false := by
  by_contra hall
  have hw : ∀ c ∈ p, isWhitespace c = true := by
    intro c hc
    by_contra hne
    exact hall ⟨c, hc, by simpa using hne⟩
  have := @fromStr_of_append reader [] p v hw h
  rw [reader.empty] at this
  cases this

/-- Two documents with a line break between them are none, with or without white space at the end. -/
theorem fromStr_two {p b d w : List Char} {v : Json} (hp : reader.fromStr p = some v)
    (hb : ∃ c ∈ b, isWhitespace c = false) (hw : ∀ c ∈ w, isWhitespace c = true)
    (hd : p ++ '\n' :: b = d ++ w) : reader.fromStr d = none := by
  obtain ⟨c, hc, hne⟩ := hb
  obtain ⟨b₁, b₂, rfl⟩ := List.append_of_mem hc
  have hsplit : (p ++ '\n' :: b₁ ++ [c]) ++ b₂ = d ++ w := by
    rw [← hd]
    simp
  have hprefix : ∃ t, d = p ++ '\n' :: (b₁ ++ [c] ++ t) := by
    obtain ⟨t, hdt, -⟩ | ⟨t, hdt, hwt⟩ := List.append_eq_append_iff.mp hsplit
    · exact ⟨t, by simp [hdt]⟩
    · cases t using List.reverseRecOn with
      | nil => exact ⟨[], by simpa using hdt.symm⟩
      | append_singleton t c' =>
        rw [← List.append_assoc] at hdt
        obtain ⟨-, hcc⟩ := List.append_inj' hdt rfl
        have := hw c' (by simp [hwt])
        rw [← List.singleton_injective hcc, hne] at this
        cases this
  obtain ⟨t, rfl⟩ := hprefix
  cases hfrom : reader.fromStr (p ++ '\n' :: (b₁ ++ [c] ++ t)) with
  | none => rfl
  | some x =>
    have := reader.single p _ v x hp hfrom c (by simp)
    rw [hne] at this
    cases this

end DocumentReader

/-- Where all data is documents, none is put together. -/
theorem noFragments_of_documents {reader : DocumentReader}
    (h : ∀ block ∈ blocks lines, ∀ p ∈ payloads block, (reader.fromStr p).isSome = true) :
    NoFragments reader lines := by
  intro block hblock a w v hpayload hw ha
  have hdocs := h block hblock
  rw [payload_eq_intercalate] at hpayload ⊢
  generalize payloads block = ps at hdocs hpayload
  match ps with
  | [] =>
    rw [List.intercalate_nil] at hpayload
    rw [(List.append_eq_nil_iff.mp hpayload.symm).1, reader.empty] at ha
    cases ha
  | [p] =>
    rw [List.intercalate_singleton] at hpayload ⊢
    obtain ⟨v', hv'⟩ := Option.isSome_iff_exists.mp (hdocs p (by simp))
    have hv := hv'
    rw [hpayload] at hv
    rw [reader.fromStr_of_append hw hv] at ha
    exact ⟨rfl, hv'.trans ha⟩
  | p :: p' :: ps =>
    obtain ⟨u, hu⟩ := Option.isSome_iff_exists.mp (hdocs p (by simp))
    obtain ⟨u', hu'⟩ := Option.isSome_iff_exists.mp (hdocs p' (by simp))
    obtain ⟨c, hc, hne⟩ := reader.exists_of_fromStr hu'
    rw [List.intercalate_cons_of_ne_nil (List.cons_ne_nil _ _)] at hpayload
    have hmem : c ∈ ['\n'].intercalate (p' :: ps) := by
      by_cases hps : ps = []
      · simpa [hps] using hc
      · rw [List.intercalate_cons_of_ne_nil hps]
        simp [hc]
    rw [reader.fromStr_two hu ⟨c, hmem, hne⟩ hw (by simpa using hpayload)] at ha
    cases ha

/-- The document that the parser reads in a block, if any. -/
theorem fromStr_block {reader : DocumentReader} (hwf : WellFormedStream lines)
    (hfrag : NoFragments reader lines) (hblock : block ∈ blocks lines) :
    (eventData (trimChars (render block))).bind reader.fromStr = aloneDocument reader block := by
  obtain ⟨w, hpayload, hw⟩ := eventData_block (hwf.blockLine hblock)
  have hdata : (eventData (trimChars (render block))).bind reader.fromStr =
      reader.fromStr ((eventData (trimChars (render block))).getD []) := by
    cases eventData (trimChars (render block)) with
    | none => exact reader.empty.symm
    | some data => rfl
  rw [hdata]
  generalize (eventData (trimChars (render block))).getD [] = d at hpayload
  unfold aloneDocument
  cases hd : reader.fromStr d with
  | some v =>
    obtain ⟨hone, hv⟩ := hfrag block hblock d w v hpayload hw hd
    rw [hone]
    exact hv.symm
  | none =>
    split
    · next p hone =>
      rw [payload_eq_intercalate, hone, List.intercalate_singleton] at hpayload
      cases hp : reader.fromStr p with
      | none => rfl
      | some v =>
        rw [hpayload] at hp
        rw [reader.fromStr_of_append hw hp] at hd
        cases hd
    · rfl

/-- The parser reads the documents that are alone in their blocks. -/
theorem bodyMessages_render {reader : DocumentReader} (hwf : WellFormedStream lines)
    (hfrag : NoFragments reader lines) :
    bodyMessages reader.fromStr (render lines) = aloneDocuments reader lines := by
  have hplain : ∀ l ∈ lines, '\n' ∉ l.text := fun l hl => (hwf.plain l hl).1
  have hcut := @filterMap_splitEvents Json (fun s => (eventData (trimChars s)).bind reader.fromStr) rfl
    (fun s => by rw [show trimChars ('\n' :: s) = trimChars s from @trimChars_of_all_append s ['\n'] (List.all_eq_true.1 rfl)])
    (fun s => by rw [trimChars_append (List.all_eq_true.1 rfl)]) lines hplain [] (.inl rfl)
  rw [prepend_nil (splitEvents_ne_nil _), prepend_nil (by simp [blocks_ne_nil]), List.filterMap_map] at hcut
  rw [bodyMessages, List.filterMap_map, List.filterMap_filterMap, aloneDocuments]
  refine Eq.trans hcut (List.filterMap_congr fun block hblock => ?_)
  exact fromStr_block hwf hfrag hblock

/-! ## Agreement -/

theorem foldl_matchResponse_none (id : Nat) (documents : List Json) :
    documents.foldl (matchResponse id) none = documents.findSome? (responseWith id) := by
  induction documents with
  | nil => rfl
  | cons document documents ih =>
    have hmatch : matchResponse id none document = responseWith id document := rfl
    rw [List.foldl_cons, hmatch, List.findSome?_cons]
    cases responseWith id document with
    | none => exact ih
    | some response => exact foldl_matchResponse_some id response documents

theorem countP_block (reader : DocumentReader) (block : List StreamLine) :
    (aloneDocument reader block).toList.countP notifies ≤
        ((payloads block).filterMap reader.fromStr).countP notifies ∧
      ((aloneDocument reader block).toList.countP notifies =
        ((payloads block).filterMap reader.fromStr).countP notifies ↔ NotifiesAlone reader block) := by
  unfold aloneDocument NotifiesAlone
  match payloads block with
  | [] => simp
  | [p] => cases hp : reader.fromStr p <;> simp [hp]
  | p :: p' :: ps =>
    refine ⟨Nat.zero_le _, ?_⟩
    rw [Option.toList_none, List.countP_nil, eq_comm, List.countP_eq_zero]
    constructor
    · intro hnone q hq v hv hnotifies
      exact absurd hnotifies (hnone v (List.mem_filterMap.mpr ⟨q, hq, hv⟩))
    · intro halone v hv hnotifies
      obtain ⟨q, hq, hv⟩ := List.mem_filterMap.mp hv
      cases halone q hq v hv hnotifies

/-- The ticks are as many as there are notifications exactly when each is alone in its block. -/
theorem countP_aloneDocuments (reader : DocumentReader) (lines : List StreamLine) :
    (aloneDocuments reader lines).countP notifies = (allDocuments reader lines).countP notifies ↔
      ∀ block ∈ blocks lines, NotifiesAlone reader block := by
  rw [aloneDocuments, allDocuments]
  suffices h : ∀ parts : List (List StreamLine),
      (parts.filterMap (aloneDocument reader)).countP notifies ≤
          ((parts.flatMap payloads).filterMap reader.fromStr).countP notifies ∧
        ((parts.filterMap (aloneDocument reader)).countP notifies =
            ((parts.flatMap payloads).filterMap reader.fromStr).countP notifies ↔
          ∀ block ∈ parts, NotifiesAlone reader block) from (h (blocks lines)).2
  intro parts
  induction parts with
  | nil => simp
  | cons block parts ih =>
    have hblock := countP_block reader block
    have hcons : (block :: parts).filterMap (aloneDocument reader) =
        (aloneDocument reader block).toList ++ parts.filterMap (aloneDocument reader) := by
      rw [List.filterMap_cons]
      cases aloneDocument reader block with
      | none => rfl
      | some document => rfl
    rw [hcons, List.flatMap_cons, List.filterMap_append, List.countP_append, List.countP_append,
      List.forall_mem_cons, ← ih.2, ← hblock.2]
    omega

/-- The parser makes of a body what the listener makes of it exactly when every notification is alone in
its block and the first response with the id, among the documents alone in theirs, is the first of all. -/
theorem parseSseResponse_agrees_iff {reader : DocumentReader} {lines : List StreamLine}
    (hwf : WellFormedStream lines) (hfrag : NoFragments reader lines) (id : Nat) :
    parseSseResponse reader.fromStr (render lines) id =
        answersIn (listenedDocuments reader [encode (render lines)]) id ↔
      (∀ block ∈ blocks lines, NotifiesAlone reader block) ∧
        (aloneDocuments reader lines).findSome? (responseWith id) =
          (allDocuments reader lines).findSome? (responseWith id) := by
  rw [listenedDocuments_render hwf, parseSseResponse, bodyMessages_render hwf hfrag, answersIn]
  rw [Prod.mk.injEq, foldl_matchResponse_none, countP_aloneDocuments, and_comm]

/-! ## Two events -/

def responseText : List Char := "\x7b\"jsonrpc\":\"2.0\",\"id\":1,\"result\":\x7b\x7d\x7d".toList

def listChangedText : List Char :=
  "\x7b\"jsonrpc\":\"2.0\",\"method\":\"notifications/tools/list_changed\"\x7d".toList

def responseJson : Json := .obj [("jsonrpc", .str "2.0"), ("id", .num "1"), ("result", .obj [])]

def listChangedJson : Json := .obj [("jsonrpc", .str "2.0"), ("method", .str toolsListChanged)]

def twoTable (word : List Char) : Option Json :=
  if word = responseText then some responseJson
  else if word = listChangedText then some listChangedJson
  else none

def twoDocuments : DocumentReader := .ofTable twoTable

/-- A response and a notification, as two events. -/
def twoEvents (crlf : Bool) : List StreamLine :=
  [⟨"data: ".toList ++ responseText, crlf⟩, ⟨[], crlf⟩,
    ⟨"data: ".toList ++ listChangedText, crlf⟩, ⟨[], crlf⟩]

theorem wellFormedStream_twoEvents (crlf : Bool) : WellFormedStream (twoEvents crlf) := by
  have hfield : ((twoEvents crlf).all fun l => l.text.head?.all fun c => !isWhitespace c) = true := by
    cases crlf <;> decide
  constructor
  · cases crlf <;> decide
  · intro l hl c hc
    have h := List.all_eq_true.1 hfield l hl
    rw [Option.mem_def.1 hc] at h
    exact Bool.not_eq_true' _ ▸ h
  · cases crlf <;> decide

theorem blocks_twoEvents_crlf : blocks (twoEvents true) = [twoEvents true] := by decide

theorem payloads_twoEvents_crlf : payloads (twoEvents true) = [responseText, listChangedText] := by decide

theorem payloads_twoEvents_lf : (blocks (twoEvents false)).map payloads =
    [[responseText], [listChangedText], []] := by
  decide

theorem payloads_of_mem_lf (h : block ∈ blocks (twoEvents false)) :
    payloads block = [responseText] ∨ payloads block = [listChangedText] ∨ payloads block = [] := by
  have hmem : payloads block ∈ (blocks (twoEvents false)).map payloads := List.mem_map.mpr ⟨block, h, rfl⟩
  rw [payloads_twoEvents_lf] at hmem
  simpa using hmem

theorem fromStr_responseText : twoDocuments.fromStr responseText = some responseJson := by
  have hwords : words responseText = [responseText] := by decide
  have hlook : twoDocuments.fromStr responseText = twoTable responseText := congrArg (lookUp twoTable) hwords
  rw [hlook, twoTable, if_pos rfl]

theorem fromStr_listChangedText : twoDocuments.fromStr listChangedText = some listChangedJson := by
  have hwords : words listChangedText = [listChangedText] := by decide
  have hne : listChangedText ≠ responseText := by decide
  have hlook : twoDocuments.fromStr listChangedText = twoTable listChangedText :=
    congrArg (lookUp twoTable) hwords
  rw [hlook, twoTable, if_neg hne, if_pos rfl]

theorem noFragments_twoEvents (crlf : Bool) : NoFragments twoDocuments (twoEvents crlf) := by
  have hread : ∀ p, p = responseText ∨ p = listChangedText → (twoDocuments.fromStr p).isSome = true := by
    rintro p (rfl | rfl)
    · rw [fromStr_responseText]
      rfl
    · rw [fromStr_listChangedText]
      rfl
  refine noFragments_of_documents fun block hblock p hp => hread p ?_
  cases crlf with
  | true =>
    rw [blocks_twoEvents_crlf, List.mem_singleton] at hblock
    rw [hblock, payloads_twoEvents_crlf] at hp
    simpa using hp
  | false =>
    obtain hps | hps | hps := payloads_of_mem_lf hblock
    · exact .inl (by simpa [hps] using hp)
    · exact .inr (by simpa [hps] using hp)
    · simp [hps] at hp

theorem allDocuments_twoEvents_crlf : allDocuments twoDocuments (twoEvents true) =
    [responseJson, listChangedJson] := by
  rw [allDocuments, blocks_twoEvents_crlf, List.flatMap_singleton, payloads_twoEvents_crlf]
  simp [fromStr_responseText, fromStr_listChangedText]

/-- Between events that end in CRLF the parser loses both; the listener reads them. -/
theorem parseSseResponse_loses_events :
    parseSseResponse twoDocuments.fromStr (render (twoEvents true)) 1 = (none, 0) ∧
      ∃ response, answersIn (listenedDocuments twoDocuments [encode (render (twoEvents true))]) 1 =
        (some response, 1) := by
  constructor
  · have halone : aloneDocuments twoDocuments (twoEvents true) = [] := by
      rw [aloneDocuments, blocks_twoEvents_crlf]
      simp [aloneDocument, payloads_twoEvents_crlf]
    rw [parseSseResponse, bodyMessages_render (wellFormedStream_twoEvents true) (noFragments_twoEvents true),
      halone]
    rfl
  · rw [listenedDocuments_render (wellFormedStream_twoEvents true), allDocuments_twoEvents_crlf]
    exact ⟨_, rfl⟩

/-- Between events that end in LF they agree. -/
theorem parseSseResponse_keeps_events :
    parseSseResponse twoDocuments.fromStr (render (twoEvents false)) 1 =
      answersIn (listenedDocuments twoDocuments [encode (render (twoEvents false))]) 1 := by
  apply (parseSseResponse_agrees_iff (wellFormedStream_twoEvents false) (noFragments_twoEvents false) 1).mpr
  constructor
  · intro block hblock p hp v _ _
    obtain hps | hps | hps := payloads_of_mem_lf hblock
    · simpa [hps, eq_comm] using hp
    · simpa [hps, eq_comm] using hp
    · simp [hps] at hp
  · have hall : allDocuments twoDocuments (twoEvents false) = [responseJson, listChangedJson] := by
      rw [allDocuments, List.flatMap_def, payloads_twoEvents_lf]
      simp [fromStr_responseText, fromStr_listChangedText]
    have halone : aloneDocuments twoDocuments (twoEvents false) = [responseJson, listChangedJson] := by
      have hlook : aloneDocuments twoDocuments (twoEvents false) =
          ((blocks (twoEvents false)).map payloads).filterMap (fun ps => match ps with
            | [p] => twoDocuments.fromStr p
            | _ => none) := by
        rw [List.filterMap_map]
        rfl
      rw [hlook, payloads_twoEvents_lf]
      simp [fromStr_responseText, fromStr_listChangedText]
    rw [hall, halone]

end EndaraRelay
