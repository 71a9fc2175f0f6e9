import EndaraRelay.ResourceUri
import EndaraRelay.ProfileRegistry
import EndaraRelay.Lib.UriTemplate.Characters

/-!
# Resource templates

The relay wraps the URI templates of an endpoint so that a client can expand them, and unwraps the
expanded URI when the client reads it. `encode_resource_uri_template` escapes the whole text of a
template except its braces.

**Inside an expression** the escaping takes operator, commas and modifiers into the name of one
variable (`Expression.escaped`); only an expression that is unreserved throughout survives.

**Values** are escaped by the expansion and unescaped by the decoder, so that the upstream sees them
raw where the expansion of its own template would have them escaped.

**Theorem (`template_wrapping`).** Expanding the wrapped template and decoding the result gives the
endpoint and the expansion of the original when the input is `Faithful`: the endpoint name is
non-empty text of a URI without `/`, every literal is a character of a URI, every expression with
anything to escape expands to nothing, and the other expressions have unreserved values. Unless a name
that the escaping makes up is itself assigned (`Clashes`), that is also necessary.

The proof reads the decoded text part by part (`readPart`). It is never longer than the expansion of
the part, so the two texts are equal only if they agree on every part.
-/

namespace EndaraRelay

open Verif Verif.UriTemplate

/-! ## Listing -/

/-- Wrap the `uriTemplate` of a listed resource template. -/
def wrapListedTemplate (endpointName : String) (skipWrap : Bool) (item : Json) : Json :=
  match (item.get "uriTemplate").bind Json.asStr with
  | some tmpl => item.mapObject fun m =>
      m.insert "uriTemplate" (.str (maybeEncodeResourceUriTemplate endpointName tmpl skipWrap))
  | none => item

section Listing

variable {A : Type}

/-- `list_resource_templates`, where `listTemplates` is what an adapter answers. -/
def listResourceTemplates (listTemplates : A → Except AdapterError (List Json))
    (entries : Entries A) : List Json :=
  entries.entries.flatMap fun e =>
    if e.2.disabled then []
    else
      match listTemplates e.2.adapter with
      | .ok items => items.map (wrapListedTemplate e.1 (skipPrefix entries))
      | .error _ => []

def listResourceTemplatesIn (listTemplates : A → Except AdapterError (List Json))
    (allowedEndpoints : List String) (entries : Entries A) : List Json :=
  entries.entries.flatMap fun e =>
    if e.2.disabled || !allowedEndpoints.contains e.1 then []
    else
      match listTemplates e.2.adapter with
      | .ok items => items.map (wrapListedTemplate e.1 (skipWrapIn allowedEndpoints entries))
      | .error _ => []

variable {listTemplates : A → Except AdapterError (List Json)} {entries : Entries A}

/-- A profile lists what a registry with its endpoints alone would list. -/
theorem listResourceTemplates_standalone {allowedEndpoints : List String} :
    listResourceTemplates listTemplates (standalone allowedEndpoints entries) =
      listResourceTemplatesIn listTemplates allowedEndpoints entries := by
  unfold listResourceTemplates listResourceTemplatesIn
  rw [skipPrefix_standalone, flatMap_standalone]

end Listing

/-! ## The text of a wrapped template -/

/-- What the template encoder makes of a text. -/
def encodeTemplateText (s : List Char) : List Char :=
  s.flatMap (Percent.encodeChar encodeSetTemplate)

theorem encodeResourceUriTemplate_toList (endpoint original : String) :
    (encodeResourceUriTemplate endpoint original).toList =
      wrapperPrefix.toList ++ (endpoint.toList ++ '/' :: encodeTemplateText original.toList) := by
  rw [encodeTemplateText, ← Percent.toList_encodeString, String.ofList_toList]
  simp [encodeResourceUriTemplate]

theorem encodeSetTemplate_of_not_ascii (b : UInt8) (hb : 128 ≤ b.toNat) :
    encodeSetTemplate b = true := by
  have hbrace : ∀ c : UInt8, c.toNat < 128 → b ≠ c := by
    rintro c hc rfl
    omega
  simp [encodeSetTemplate, encodeSet_of_not_ascii b hb, hbrace 0x7B (by decide),
    hbrace 0x7D (by decide)]

theorem encodeSet_eq {c : Char} (hc : c.toNat < 128) :
    encodeSet (UInt8.ofNat c.toNat) = !unreserved c := by
  have hbyte : (UInt8.ofNat c.toNat).toNat = c.toNat := by
    simp only [UInt8.toNat_ofNat']
    omega
  have hchar : ∀ d : Char, c = d ↔ c.toNat = d.toNat := fun d =>
    ⟨congrArg Char.toNat, fun h => by rw [← Char.ofNat_toNat c, h, Char.ofNat_toNat]⟩
  rw [encodeSet, hbyte, Bool.eq_iff_iff]
  simp only [Bool.not_eq_true', Bool.eq_false_iff, ne_eq, unreserved, Bool.or_eq_true,
    decide_eq_true_eq, Utf8.isAlphanum_iff, hchar]
  refine not_congr ?_
  change _ ↔ ((((((65 ≤ c.toNat ∧ c.toNat ≤ 90) ∨ (97 ≤ c.toNat ∧ c.toNat ≤ 122)) ∨
    (48 ≤ c.toNat ∧ c.toNat ≤ 57)) ∨ c.toNat = 0x2D) ∨ c.toNat = 0x2E) ∨ c.toNat = 0x5F) ∨
    c.toNat = 0x7E
  omega

/-- Braces apart, the template encoder keeps the unreserved characters. -/
theorem encodeChar_template {c : Char} (hopen : c ≠ '{') (hclose : c ≠ '}') :
    Percent.encodeChar encodeSetTemplate c = Percent.encodeChar escapes c := by
  have hkeeps : Percent.keeps encodeSetTemplate c = unreserved c := by
    by_cases hc : c.toNat < 128
    · have hne : ∀ d : Char, d.toNat < 128 → c ≠ d → UInt8.ofNat c.toNat ≠ UInt8.ofNat d.toNat := by
        intro d hd hcd heq
        have hval := congrArg UInt8.toNat heq
        simp only [UInt8.toNat_ofNat'] at hval
        refine hcd ?_
        rw [← Char.ofNat_toNat c, show c.toNat = d.toNat by omega, Char.ofNat_toNat]
      have hopen' : UInt8.ofNat c.toNat ≠ 0x7B := hne '{' (by decide) hopen
      have hclose' : UInt8.ofNat c.toNat ≠ 0x7D := hne '}' (by decide) hclose
      simp [Percent.keeps, hc, encodeSetTemplate, encodeSet_eq hc, hopen', hclose']
    · have hnot : ¬ unreserved c = true := fun h => hc (unreserved_lt h)
      simp [Percent.keeps, hc, hnot]
  cases h : unreserved c with
  | true => rw [encodeChar_of_unreserved h, Percent.encodeChar_of_keeps (hkeeps.trans h)]
  | false =>
    rw [encodeChar_of_not_unreserved h,
      Percent.encodeChar_of_not_keeps encodeSetTemplate_of_not_ascii (hkeeps.trans h)]

theorem encodeChar_template_brace :
    Percent.encodeChar encodeSetTemplate '{' = ['{'] ∧
      Percent.encodeChar encodeSetTemplate '}' = ['}'] :=
  ⟨Percent.encodeChar_of_keeps (by decide), Percent.encodeChar_of_keeps (by decide)⟩

/-- The text of an expression is escaped like any other. -/
theorem encodeTemplateText_of_uriText {s : List Char} (h : UriText s) :
    encodeTemplateText s = encodeUnreserved s := by
  refine List.flatMap_congr fun c hc => encodeChar_template ?_ ?_
  · rintro rfl
    exact absurd (h _ hc) (by decide)
  · rintro rfl
    exact absurd (h _ hc) (by decide)

/-! ## What a client reads -/

/-- The expression a client finds in place of `e`. -/
def escapedExpression (e : Expression) : Expression where
  body := encodeUnreserved e.body
  operator := readOperator e.body
  varSpecs := [⟨readName e.body, .none⟩]
  parsed := parseBody_encodeUnreserved e.parsed

def wrapPart : Part → List Part
  | .literal c => (Percent.encodeChar escapes c).map .literal
  | .expression e => [.expression (escapedExpression e)]

theorem encodeTemplateText_cons (c : Char) (s : List Char) :
    encodeTemplateText (c :: s) = Percent.encodeChar encodeSetTemplate c ++ encodeTemplateText s :=
  rfl

theorem plainUri_triplets (bs : List UInt8) :
    plainUri (bs.flatMap Percent.triplet) = true := by
  induction bs with
  | nil => rfl
  | cons b bs ih =>
    obtain ⟨x, y, htriplet, hx, hy⟩ := triplet_eq b
    rw [List.flatMap_cons, htriplet]
    simp [plainUri, startsHexPair, hx, hy, unreserved_of_isHex hx, unreserved_of_isHex hy, ih]

theorem plainUri_encodeChar (c : Char) : plainUri (Percent.encodeChar escapes c) = true := by
  cases h : unreserved c with
  | true => simp [encodeChar_of_unreserved h, plainUri, h]
  | false =>
    rw [encodeChar_of_not_unreserved h]
    exact plainUri_triplets _

/-- An open expression takes in everything up to a closing brace. -/
theorem parseFrom_opened {body s : List Char} (hs : '}' ∉ s) (r : List Char) :
    parseFrom (some body) (s ++ r) = parseFrom (some (body ++ s)) r := by
  induction s generalizing body with
  | nil => rw [List.nil_append, List.append_nil]
  | cons c s ih =>
    obtain ⟨hc, hs⟩ := not_or.1 (List.mem_cons.not.1 hs)
    rw [List.cons_append, parseFrom, if_neg fun h => hc h.symm, ih hs, List.append_assoc,
      List.singleton_append]

theorem close_notMem_encodeChar {c : Char} (hc : c ≠ '}') :
    '}' ∉ Percent.encodeChar encodeSetTemplate c := by
  by_cases hopen : c = '{'
  · rw [hopen, encodeChar_template_brace.1]
    decide
  · rw [encodeChar_template hopen hc]
    intro h
    obtain h | h := mem_encodeChar h
    · exact absurd h (by decide)
    · exact absurd h (by decide)

/-- Reading an escaped template gives the parts `wrapPart` says, whether or not an expression is
open. -/
theorem parseFrom_encode {opened : Option (List Char)} {s : List Char} {t : List Part}
    (h : parseFrom opened s = some t) :
    parseFrom (opened.map encodeTemplateText) (encodeTemplateText s) =
      some (t.flatMap wrapPart) := by
  induction s generalizing opened t with
  | nil =>
    cases opened with
    | none =>
      cases h
      rfl
    | some body => cases h
  | cons c s ih =>
    rw [encodeTemplateText_cons]
    cases opened with
    | none =>
      rw [parseFrom] at h
      split at h
      · next hc =>
        rw [hc, encodeChar_template_brace.1]
        exact ih h
      · next hopen =>
        split at h
        · next hliteral =>
          obtain ⟨t', ht', rfl⟩ := Option.map_eq_some_iff.1 h
          have hclose : c ≠ '}' := by
            rintro rfl
            revert hliteral
            simp [literalChar, unreserved, reserved, ucsChar]
          have hrest := ih ht'
          rw [Option.map_none] at hrest ⊢
          rw [encodeChar_template hopen hclose, parseFrom_plainUri (plainUri_encodeChar c), hrest]
          rfl
        · cases h
    | some body =>
      rw [parseFrom] at h
      split at h
      · next hc =>
        obtain ⟨e, he, h⟩ := Option.bind_eq_some_iff.1 h
        obtain ⟨t', ht', rfl⟩ := Option.map_eq_some_iff.1 h
        obtain rfl := Expression.body_of_parse he
        have htext := encodeTemplateText_of_uriText (uriText_of_parseBody e.parsed)
        rw [hc, encodeChar_template_brace.2]
        simp only [Option.map_some, List.cons_append, List.nil_append]
        rw [parseFrom, if_pos rfl, htext,
          Expression.parse_eq (parseBody_encodeUnreserved e.parsed), Option.bind_some]
        have hrest := ih ht'
        rw [Option.map_none] at hrest
        rw [hrest]
        rfl
      · next hclose =>
        have hrest := ih h
        rw [Option.map_some, parseFrom_opened (close_notMem_encodeChar hclose)]
        rw [Option.map_some, encodeTemplateText, List.flatMap_append, List.flatMap_singleton] at hrest
        exact hrest

/-- Without its escaping, the text that the client's expansion puts for a part. -/
def readPart (σ : Assignment) : Part → List Char
  | .literal c => [c]
  | .expression e => plainText id (readOperator e.body) (σ (readName e.body))

theorem readOperator_cases (body : List Char) :
    readOperator body = .simple ∨ readOperator body = .label := by
  unfold readOperator
  split
  · exact .inr rfl
  · exact .inl rfl

theorem expand_escapedExpression (σ : Assignment) (e : Expression) :
    (escapedExpression e).expand σ =
      plainText encodeUnreserved (readOperator e.body) (σ (readName e.body)) := by
  change expandVars σ (readOperator e.body) [⟨readName e.body, .none⟩] = _
  obtain h | h := readOperator_cases e.body
  · rw [h]
    exact expandVars_single rfl _
  · rw [h]
    exact expandVars_single rfl _

theorem readsAs_encodeUnreserved (s : List Char) : Percent.ReadsAs (encodeUnreserved s) s :=
  Percent.ReadsAs.encode escapes_percentSign escapes_of_not_ascii s

theorem readsAs_intercalate (words : List (List Char)) :
    Percent.ReadsAs ([','].intercalate (words.map encodeUnreserved)) ([','].intercalate words) := by
  induction words with
  | nil => exact Percent.ReadsAs.nil
  | cons w words ih =>
    cases words with
    | nil =>
      rw [List.map_cons, List.map_nil, List.intercalate_singleton, List.intercalate_singleton]
      exact readsAs_encodeUnreserved w
    | cons v words =>
      rw [List.map_cons] at ih ⊢
      rw [List.map_cons, List.intercalate_cons_cons, List.intercalate_cons_cons]
      exact ((readsAs_encodeUnreserved w).append
        (Percent.ReadsAs.char (by decide) (by decide))).append ih

/-- **The decoder reverses the client's escaping** of every part. -/
theorem readsAs_wrapPart (σ : Assignment) (p : Part) :
    Percent.ReadsAs (expand σ (wrapPart p)) (readPart σ p) := by
  cases p with
  | literal c =>
    rw [wrapPart, expand_map_literal (uriText_encodeChar c)]
    have h := readsAs_encodeUnreserved [c]
    rwa [encodeUnreserved_cons, encodeUnreserved_nil, List.append_nil] at h
  | expression e =>
    rw [wrapPart, expand, List.flatMap_singleton, Part.expand, expand_escapedExpression, readPart]
    have hfirst : Percent.ReadsAs (readOperator e.body).first (readOperator e.body).first := by
      obtain h | h := readOperator_cases e.body
      · rw [h]
        exact Percent.ReadsAs.nil
      · rw [h]
        exact Percent.ReadsAs.char (by decide) (by decide)
    cases σ (readName e.body) with
    | none => exact Percent.ReadsAs.nil
    | some value =>
      rw [plainText, plainText]
      split
      · exact Percent.ReadsAs.nil
      · rw [List.map_id]
        exact hfirst.append (readsAs_intercalate value.words)

theorem readsAs_wrapParts (σ : Assignment) (t : List Part) :
    Percent.ReadsAs (expand σ (t.flatMap wrapPart)) (t.flatMap (readPart σ)) := by
  induction t with
  | nil => exact Percent.ReadsAs.nil
  | cons p t ih =>
    rw [List.flatMap_cons, List.flatMap_cons, expand_append]
    exact (readsAs_wrapPart σ p).append ih

/-! ## The round trip -/

/-- Expanding the wrapped template and decoding the result gives the endpoint and the expansion of the
original. -/
def ExpansionRoundTrips (σ : Assignment) (endpoint original : String) : Prop :=
  ∃ wrapped expanded,
    expandText σ (encodeResourceUriTemplate endpoint original) = some wrapped ∧
      expandText σ original = some expanded ∧
      decodeResourceUri wrapped = .ok (endpoint, expanded)

/-- An endpoint name that expansion and decoder leave alone. -/
def PlainEndpoint (endpoint : String) : Prop :=
  endpoint ≠ "" ∧ '/' ∉ endpoint.toList ∧ plainUri endpoint.toList = true

/-- A part that survives the wrapper. An expression does when it is unreserved throughout, which makes
it one variable without modifier, and so are the words of its value. -/
def FaithfulPart (σ : Assignment) : Part → Prop
  | .literal c => uriChar c = true
  | .expression e =>
    if e.body.all unreserved then
      ∀ v ∈ e.varSpecs, ∀ value, σ v.name = some value →
        ∀ w ∈ value.words, ∀ c ∈ w, unreserved c = true
    else e.expand σ = [] ∧ σ (readName e.body) = none

/-- An input that the wrapper treats as it should. -/
structure Faithful (σ : Assignment) (endpoint : String) (t : List Part) : Prop where
  endpoint : PlainEndpoint endpoint
  parts : ∀ p ∈ t, FaithfulPart σ p

/-- A name that the wrapper makes up is assigned. -/
def Clashes (σ : Assignment) (t : List Part) : Prop :=
  ∃ e, Part.expression e ∈ t ∧ e.body.all unreserved = false ∧ σ (readName e.body) ≠ none

variable {σ : Assignment} {endpoint original : String} {t : List Part}

theorem plainUri_slash : plainUri ['/'] = true := by decide

/-- The client's expansion of the wrapped template. -/
theorem expandText_wrapped (hp : PlainEndpoint endpoint) (h : parse original.toList = some t) :
    expandText σ (encodeResourceUriTemplate endpoint original) =
      some (String.ofList (wrapperPrefix.toList ++
        (endpoint.toList ++ '/' :: expand σ (t.flatMap wrapPart)))) := by
  obtain ⟨-, -, hplain⟩ := hp
  have hwrapper : plainUri wrapperPrefix.toList = true := by decide
  have hrest := parseFrom_encode h
  rw [Option.map_none] at hrest
  rw [expandText, parse, encodeResourceUriTemplate_toList, parseFrom_plainUri hwrapper,
    parseFrom_plainUri hplain, ← List.singleton_append, parseFrom_plainUri plainUri_slash, hrest]
  simp only [Option.map_some, expand_append, expand_map_literal (uriText_of_plainUri hwrapper),
    expand_map_literal (uriText_of_plainUri hplain),
    expand_map_literal (uriText_of_plainUri plainUri_slash), List.singleton_append]

/-- With a plain endpoint name the round trip is an equation between what is read and what should be
read. -/
theorem expansionRoundTrips_iff (hp : PlainEndpoint endpoint) (h : parse original.toList = some t) :
    ExpansionRoundTrips σ endpoint original ↔ t.flatMap (readPart σ) = expand σ t := by
  have hne : endpoint.toList ≠ [] := fun h' => hp.1 (by simpa using h')
  have hdecode := decodeResourceUri_wrapped hne hp.2.1
    (Percent.decodeString_of_readsAs (readsAs_wrapParts σ t))
  rw [String.ofList_toList] at hdecode
  have horiginal : expandText σ original = some (String.ofList (expand σ t)) := by
    rw [expandText, h, Option.map_some]
  constructor
  · intro hround
    obtain ⟨wrapped, expanded, hwrapped, hexpanded, hok⟩ := hround
    cases (expandText_wrapped hp h).symm.trans hwrapped
    cases horiginal.symm.trans hexpanded
    have heq := Except.ok.inj (hdecode.symm.trans hok)
    exact String.ofList_injective (congrArg Prod.snd heq)
  · intro heq
    exact ⟨_, _, expandText_wrapped hp h, horiginal, by rw [hdecode, heq]⟩

/-- The endpoint comes back only if its name is plain. -/
theorem plainEndpoint_of_roundTrips (h : ExpansionRoundTrips σ endpoint original) :
    PlainEndpoint endpoint := by
  obtain ⟨wrapped, expanded, hwrapped, -, hok⟩ := h
  obtain ⟨hne, hslash, encoded, hwrapper, -⟩ := decodeResourceUri_eq_ok hok
  refine ⟨hne, hslash, ?_⟩
  obtain ⟨parts, hparts, hexpand⟩ := Option.map_eq_some_iff.1 hwrapped
  have huri : UriText wrapped.toList := by
    rw [← hexpand, String.toList_ofList]
    exact expand_uriChars σ parts
  have hname : UriText endpoint.toList := fun c hc => huri c (by simp [hwrapper, hc])
  rw [parse, encodeResourceUriTemplate_toList, parseFrom_plainUri (by decide)] at hparts
  obtain ⟨rest, hrest, -⟩ := Option.map_eq_some_iff.1 hparts
  exact plainUri_of_parseFrom (by decide) hname hrest

/-- Without a clash, an expression that the wrapper changes is read as nothing. -/
theorem readPart_of_touched {e : Expression} (h : σ (readName e.body) = none) :
    readPart σ (.expression e) = [] := by
  rw [readPart, h]
  rfl

theorem expand_of_untouched {e : Expression} (h : e.body.all unreserved = true) :
    e.expand σ = plainText encodeUnreserved (readOperator e.body) (σ (readName e.body)) := by
  obtain ⟨hop, hspecs⟩ := Expression.of_unreserved (List.all_eq_true.1 h)
  rw [← expand_escapedExpression, Expression.expand, hop, hspecs]
  rfl

/-- **What is read of a part** is what should be read exactly when the part is faithful. -/
theorem readPart_eq_iff {p : Part}
    (h : ∀ e, p = .expression e → e.body.all unreserved = false → σ (readName e.body) = none) :
    readPart σ p = Part.expand σ p ↔ FaithfulPart σ p := by
  cases p with
  | literal c =>
    refine ⟨fun heq => ?_, fun hc => (expand_literal hc σ).symm⟩
    rw [readPart, Part.expand] at heq
    split at heq
    · next hc =>
      simp only [Bool.or_eq_true, decide_eq_true_eq] at hc
      rw [FaithfulPart, uriChar]
      obtain hc | hc := hc
      · simp [hc]
      · simp [hc]
    · rw [FaithfulPart, uriChar, encodeChar_eq_iff.1 heq]
      rfl
  | expression e =>
    rw [Part.expand, FaithfulPart]
    cases htouched : e.body.all unreserved with
    | true =>
      obtain ⟨-, hspecs⟩ := Expression.of_unreserved (List.all_eq_true.1 htouched)
      rw [if_pos rfl, readPart, expand_of_untouched htouched, plainText_eq_iff, hspecs]
      simp
    | false =>
      have hnone := h e rfl htouched
      rw [if_neg Bool.false_ne_true, readPart_of_touched hnone]
      exact ⟨fun heq => ⟨heq.symm, hnone⟩, fun heq => heq.1.symm⟩

theorem length_readPart_le {p : Part}
    (h : ∀ e, p = .expression e → e.body.all unreserved = false → σ (readName e.body) = none) :
    (readPart σ p).length ≤ (Part.expand σ p).length := by
  cases p with
  | literal c =>
    rw [readPart, Part.expand]
    split
    · exact Nat.le_refl 1
    · exact one_le_length_encodeChar c
  | expression e =>
    cases htouched : e.body.all unreserved with
    | true =>
      rw [readPart, Part.expand, expand_of_untouched htouched]
      exact length_plainText_le _ _
    | false =>
      rw [readPart_of_touched (h e rfl htouched)]
      exact Nat.zero_le _

/-- The names that the wrapper makes up have a percent sign. -/
theorem not_clashes (h : ∀ name, '%' ∈ name → σ name = none) : ¬ Clashes σ t := by
  intro hclash
  obtain ⟨e, -, htouched, hassigned⟩ := hclash
  refine hassigned (h _ ?_)
  obtain ⟨c, hc, hescaped⟩ := List.all_eq_false.1 htouched
  rw [Bool.not_eq_true] at hescaped
  obtain ⟨s, hs⟩ := encodeChar_cons_of_not_unreserved hescaped
  refine List.mem_flatMap.2 ⟨c, ?_, by rw [hs]; exact List.mem_cons_self⟩
  split
  · next hdot =>
    obtain ⟨rest, hbody⟩ : ∃ rest, e.body = '.' :: rest := by
      cases hbody : e.body with
      | nil => simp [hbody] at hdot
      | cons d rest =>
        rw [hbody] at hdot
        exact ⟨rest, by rw [Option.some.inj hdot]⟩
    rw [hbody] at hc ⊢
    refine (List.mem_cons.1 hc).resolve_left ?_
    rintro rfl
    exact absurd hescaped (by decide)
  · exact hc

/-- **Wrapping and expansion**: what an input needs for the round trip. -/
theorem template_wrapping (h : parse original.toList = some t) :
    (Faithful σ endpoint t → ExpansionRoundTrips σ endpoint original) ∧
      (¬ Clashes σ t → ExpansionRoundTrips σ endpoint original → Faithful σ endpoint t) := by
  constructor
  · intro hfaithful
    refine (expansionRoundTrips_iff hfaithful.endpoint h).2 (List.flatMap_congr fun p hp => ?_)
    have hpart := hfaithful.parts p hp
    refine (readPart_eq_iff fun e he htouched => ?_).2 hpart
    rw [he, FaithfulPart, htouched] at hpart
    exact hpart.2
  · intro hclash hround
    have hendpoint := plainEndpoint_of_roundTrips hround
    have hnone : ∀ p ∈ t, ∀ e, p = .expression e → e.body.all unreserved = false →
        σ (readName e.body) = none := by
      intro p hp e he htouched
      by_contra hassigned
      exact hclash ⟨e, he ▸ hp, htouched, hassigned⟩
    have hparts := (flatMap_eq_flatMap_iff fun p hp => length_readPart_le (hnone p hp)).1
      ((expansionRoundTrips_iff hendpoint h).1 hround)
    exact ⟨hendpoint, fun p hp => (readPart_eq_iff (hnone p hp)).1 (hparts p hp)⟩

def noteTemplate : List Part :=
  "note://".toList.map .literal ++
    [.expression ⟨"id".toList, .simple, [⟨"id".toList, .none⟩], by decide⟩]

def seventhNote : Assignment := fun name =>
  if name = "id".toList then some (.string "7".toList) else none

theorem seventhNote_faithful : Faithful seventhNote "notes" noteTemplate where
  endpoint := by
    unfold PlainEndpoint
    decide
  parts := by
    refine List.forall_mem_append.2 ⟨fun p hp => ?_, fun p hp => ?_⟩
    · have hall : UriText "note://".toList := UriText.of_all (by decide)
      obtain ⟨c, hc, rfl⟩ := List.mem_map.1 hp
      exact hall c hc
    · have hall : "7".toList.all unreserved = true := by decide
      rw [List.mem_singleton.1 hp]
      intro v hv value hvalue
      rw [List.mem_singleton.1 hv] at hvalue
      cases hvalue
      intro w hw
      rw [List.mem_singleton.1 hw]
      exact List.all_eq_true.1 hall

theorem seventhNote_wrapping :
    ExpansionRoundTrips seventhNote "notes" "note://{id}" ∧
      Faithful seventhNote "notes" noteTemplate := by
  have hparse : parse "note://{id}".toList = some noteTemplate := rfl
  have hclash : ¬ Clashes seventhNote noteTemplate := not_clashes fun name hname => by
    unfold seventhNote
    split
    · next h =>
      rw [h] at hname
      exact absurd hname (by decide)
    · rfl
  have hround := (template_wrapping hparse).1 seventhNote_faithful
  exact ⟨hround, (template_wrapping hparse).2 hclash hround⟩

def fileTemplate : List Part :=
  "file://".toList.map .literal ++
    [.expression ⟨"+path".toList, .reserved, [⟨"path".toList, .none⟩], by decide⟩]

/-- The client asks for the value of `%2Bpath`, which nothing assigns. -/
theorem reserved_expansion_lost :
    ¬ ∀ (σ : Assignment) (endpoint original : String) (t : List Part),
      '/' ∉ endpoint.toList → parse original.toList = some t →
        ExpansionRoundTrips σ endpoint original := by
  intro hall
  have hparse : parse "file://{+path}".toList = some fileTemplate := rfl
  have hround := hall (fun name => if name = "path".toList then some (.string "a".toList) else none)
    "files" "file://{+path}" fileTemplate (by decide) hparse
  have heq := (expansionRoundTrips_iff (plainEndpoint_of_roundTrips hround) hparse).1 hround
  exact absurd heq (by decide)

end EndaraRelay
