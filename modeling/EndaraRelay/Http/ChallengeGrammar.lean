import EndaraRelay.Lib.AuthParam
import EndaraRelay.Lib.Utf8
import EndaraRelay.Http.Challenges

/-!
# Challenges by the grammar

`parse_bearer_challenge` cuts a header value at every comma, at those in quoted strings too, and takes what
stands around the first `=` of a part for a parameter. It looks for `realm` and `resource_metadata`.

**Theorem (`challenge_parsed`).** For a challenge of the grammar it gives the values of these two, as long as
they have neither a comma nor an escape, and no other quoted string has an equals sign after a comma. A
comma may let the text of one parameter pass for another one (`comma_supplies_metadata`).

**Bytes.** The scheme is taken by `&trimmed[..6]`, which panics where the sixth byte is inside a character. No
character of a text in ASCII is longer than a byte.
-/

namespace EndaraRelay.Http

open Verif Verif.AuthParam Verif.Utf8

/-! ## The parser by bytes -/

/-- `parse_bearer_challenge`; `none` where it panics. -/
def parseBearerChallengeBytes (header : String) : Option (Option BearerChallenge) :=
  let trimmed := trimChars header.toList
  if byteLength trimmed < 6 then some none
  else if isCharBoundary trimmed 6 then
    let scheme := takeBytes trimmed 6
    if scheme.map Char.toLower ≠ "bearer".toList then some none
    else
      let rest := trimmed.drop scheme.length
      if (rest.head?.map isWhitespace).getD true then
        some (some ((rest.splitOn ',').foldl .addParam ⟨none, none⟩))
      else some none
  else none

variable {s scheme w : List Char} {v : Value} {e : Element} {p : Param} {es : List Element}

theorem mem_of_mem_trimChars {c : Char} (h : c ∈ trimChars s) : c ∈ s :=
  (List.dropWhile_sublist _).mem ((List.rdropWhile_prefix _ _).mem h)

/-- **No panic in ASCII.** -/
theorem parseBearerChallengeBytes_isSome {header : String} (h : ∀ c ∈ header.toList, c.toNat < 128) :
    (parseBearerChallengeBytes header).isSome = true := by
  unfold parseBearerChallengeBytes
  dsimp only
  split
  · rfl
  · next hlen =>
    rw [if_pos (isCharBoundary_of_ascii (fun c hc => h c (mem_of_mem_trimChars hc)) (Nat.le_of_not_lt hlen))]
    split
    · rfl
    · split <;> rfl

theorem ascii_of_toLower {c : Char} (h : c.toLower.toNat < 128) : c.toNat < 128 := by
  unfold Char.toLower at h
  split at h
  · next hupper => exact Nat.lt_of_le_of_lt (UInt32.le_iff_toNat_le.1 hupper.2) (by decide)
  · exact h

/-- The scheme is the one it looks for. -/
def IsBearer (scheme : List Char) : Prop := scheme.map Char.toLower = "bearer".toList

theorem IsBearer.length (h : IsBearer scheme) : scheme.length = 6 := by
  rw [← List.length_map (f := Char.toLower), h]
  rfl

theorem IsBearer.byteLength (h : IsBearer scheme) : byteLength scheme = 6 := by
  rw [byteLength_of_ascii fun c hc => ?_, h.length]
  refine ascii_of_toLower ?_
  have hmem : c.toLower ∈ "bearer".toList := h ▸ List.mem_map_of_mem hc
  have hall : ∀ c ∈ "bearer".toList, decide (c.toNat < 128) = true := List.all_eq_true.1 rfl
  exact of_decide_eq_true (hall _ hmem)

/-- **Where it does not panic**, the parser by bytes is the one by characters; on a Bearer challenge it does
not. -/
theorem parseBearerChallengeBytes_eq {header : String}
    (h : (parseBearerChallengeBytes header).isSome = true ∨ IsBearer ((trimChars header.toList).take 6)) :
    parseBearerChallengeBytes header = some (parseBearerChallenge header) := by
  by_cases hbearer : IsBearer ((trimChars header.toList).take 6)
  · have hpre := List.take_prefix 6 (trimChars header.toList)
    have hbytes := hbearer.byteLength
    have hboundary := isCharBoundary_of_isPrefix hpre
    have htake := takeBytes_of_isPrefix hpre
    rw [hbytes] at hboundary htake
    have hlen : ¬ byteLength (trimChars header.toList) < 6 :=
      Nat.not_lt.2 (hbytes ▸ byteLength_le_of_isPrefix hpre)
    have hscheme : ¬ ((trimChars header.toList).take 6).map Char.toLower ≠ "bearer".toList :=
      not_not_intro hbearer
    unfold parseBearerChallengeBytes parseBearerChallenge
    dsimp only
    rw [if_neg hlen, if_pos hboundary, htake, hbearer.length, if_neg hscheme, if_neg hscheme]
    split <;> rfl
  · have hnone : parseBearerChallenge header = none := by
      unfold parseBearerChallenge
      exact if_pos hbearer
    have hsome := h.resolve_right hbearer
    rw [hnone]
    unfold parseBearerChallengeBytes at hsome ⊢
    dsimp only at hsome ⊢
    split
    · rfl
    · next hlen =>
      rw [if_neg hlen] at hsome
      split
      · split
        · rfl
        · next hscheme =>
          have hscheme : IsBearer (takeBytes (trimChars header.toList) 6) := not_not.1 hscheme
          have htake := List.prefix_iff_eq_take.1 (takeBytes_isPrefix (trimChars header.toList) 6)
          rw [hscheme.length] at htake
          exact absurd (htake ▸ hscheme) hbearer
      · next hboundary =>
        rw [if_neg hboundary] at hsome
        cases hsome

/-! ## Parts -/

/-- A parameter of this name is read. -/
def BearerChallenge.set (challenge : BearerChallenge) (key val : List Char) : BearerChallenge :=
  if key = "realm".toList then { challenge with realm := some val }
  else if key = "resource_metadata".toList then { challenge with resourceMetadata := some val }
  else challenge

/-- The name of a parameter it looks for. -/
def LookedFor (name : List Char) : Prop :=
  name.map Char.toLower = "realm".toList ∨ name.map Char.toLower = "resource_metadata".toList

theorem BearerChallenge.set_of_not_lookedFor {name : List Char} (h : ¬ LookedFor name)
    (challenge : BearerChallenge) (val : List Char) : challenge.set (name.map Char.toLower) val = challenge := by
  obtain ⟨hrealm, hmetadata⟩ := not_or.1 h
  unfold BearerChallenge.set
  rw [if_neg hrealm, if_neg hmetadata]

theorem addParam_of_not_mem {part : List Char} (h : '=' ∉ part) (challenge : BearerChallenge) :
    challenge.addParam part = challenge := by
  have hdrop : part.dropWhile (· ≠ '=') = [] := by
    rw [List.dropWhile_eq_nil_iff]
    intro c hc
    exact decide_eq_true fun heq => h (heq ▸ hc)
  unfold BearerChallenge.addParam splitOnceEq
  rw [hdrop]

theorem addParam_append {k v : List Char} (h : '=' ∉ k) (challenge : BearerChallenge) :
    challenge.addParam (k ++ '=' :: v) =
      challenge.set ((trimChars k).map Char.toLower) (trimQuotes (trimChars v)) := by
  have hall : ∀ c ∈ k, decide (c ≠ '=') = true := fun c hc => decide_eq_true fun heq => h (heq ▸ hc)
  have hdrop : (k ++ '=' :: v).dropWhile (· ≠ '=') = '=' :: v := by
    rw [List.dropWhile_append_of_pos hall]
    rfl
  have htake : (k ++ '=' :: v).takeWhile (· ≠ '=') = k := by
    rw [List.takeWhile_append_of_pos hall]
    simp
  unfold BearerChallenge.addParam splitOnceEq
  rw [hdrop, htake]
  rfl

/-- Parts without an equals sign supply nothing. -/
theorem foldl_addParam_of_not_mem {parts : List (List Char)} (h : ∀ part ∈ parts, '=' ∉ part)
    (challenge : BearerChallenge) : parts.foldl .addParam challenge = challenge := by
  induction parts with
  | nil => rfl
  | cons part parts ih =>
    obtain ⟨hpart, hparts⟩ := List.forall_mem_cons.1 h
    rw [List.foldl_cons, addParam_of_not_mem hpart, ih hparts]

/-! ## White space around names and values -/

theorem isWhitespace_of_isSpace {c : Char} (h : isSpace c = true) : isWhitespace c = true := by
  unfold isSpace at h
  rcases Bool.or_eq_true_iff.1 h with h | h
  · rw [beq_iff_eq.1 h]
    rfl
  · rw [beq_iff_eq.1 h]
    rfl

theorem not_isWhitespace_of_isTokenChar {c : Char} (h : isTokenChar c = true) : isWhitespace c = false := by
  unfold isTokenChar at h
  rcases Bool.or_eq_true_iff.1 h with h | h
  · rw [isAlphanum_iff] at h
    unfold isWhitespace
    rw [decide_eq_false_iff_not]
    omega
  · have hspecial : ∀ c ∈ "!#$%&'*+-.^_`|~".toList, (!isWhitespace c) = true := List.all_eq_true.1 rfl
    simpa using hspecial c (List.contains_iff_mem.1 h)

theorem trimChars_surrounded {lead s trail : List Char} (hlead : ∀ c ∈ lead, isSpace c = true)
    (htrail : ∀ c ∈ trail, isSpace c = true) : trimChars (lead ++ s ++ trail) = trimChars s := by
  rw [trimChars_append fun c hc => isWhitespace_of_isSpace (htrail c hc),
    trimChars_of_all_append fun c hc => isWhitespace_of_isSpace (hlead c hc)]

theorem trimChars_token (h : ∀ c ∈ s, isTokenChar c = true) : trimChars s = s :=
  trimChars_eq_self (fun c hc => not_isWhitespace_of_isTokenChar (h c (List.mem_of_mem_head? hc)))
    fun c hc => not_isWhitespace_of_isTokenChar (h c (List.mem_of_getLast? hc))

theorem trimChars_value (h : v.Valid) : trimChars v.render = v.render := by
  cases v with
  | token s => exact trimChars_token h.2
  | quoted s =>
    refine trimChars_eq_self (fun c hc => ?_) fun c hc => ?_
    · cases hc
      rfl
    · unfold Value.render at hc
      rw [List.getLast?_append, List.getLast?_singleton] at hc
      cases hc
      rfl

/-! ## Quotes around values -/

theorem dropWhile_quote_of_not_mem {s : List Char} (h : '"' ∉ s) : s.dropWhile (· = '"') = s := by
  cases s with
  | nil => rfl
  | cons c s =>
    refine List.dropWhile_cons_of_neg ?_
    rw [decide_eq_true_iff]
    rintro rfl
    exact h List.mem_cons_self

theorem rdropWhile_quote_of_not_mem {s : List Char} (h : '"' ∉ s) : s.rdropWhile (· = '"') = s := by
  unfold List.rdropWhile
  rw [dropWhile_quote_of_not_mem (by rwa [List.mem_reverse]), List.reverse_reverse]

theorem trimQuotes_of_not_mem {s : List Char} (h : '"' ∉ s) : trimQuotes s = s := by
  unfold trimQuotes
  rw [dropWhile_quote_of_not_mem h, rdropWhile_quote_of_not_mem h]

theorem trimQuotes_quoted {s : List Char} (h : '"' ∉ s) : trimQuotes ('"' :: s ++ ['"']) = s := by
  unfold trimQuotes
  rw [List.cons_append, List.dropWhile_cons_of_pos rfl, List.dropWhile_append, dropWhile_quote_of_not_mem h]
  cases s with
  | nil => rfl
  | cons c s => exact (List.rdropWhile_concat_pos _ _ _ rfl).trans (rdropWhile_quote_of_not_mem h)

/-- Without escapes a value is what is left of its text without the quotes. -/
theorem trimQuotes_render (h : v.Valid) (hplain : v.Plain) : trimQuotes v.render = v.text := by
  cases v with
  | token s => exact trimQuotes_of_not_mem fun hmem => token_ne (h.2 _ hmem) (d := '"') rfl rfl
  | quoted s =>
    rw [render_of_plain hplain]
    exact trimQuotes_quoted (quote_not_mem_text h hplain)

/-! ## Elements -/

/-- No comma of the element hides or makes up a parameter, and no escape changes one. -/
structure Readable (p : Param) : Prop where
  lookedFor : LookedFor p.name → ',' ∉ p.value.text ∧ p.value.Plain
  other : ¬ LookedFor p.name → '=' ∉ p.value.render.dropWhile (· ≠ ',')

/-- What the element means. -/
def BearerChallenge.supply (challenge : BearerChallenge) (e : Element) : BearerChallenge :=
  match e.param with
  | none => challenge
  | some p => challenge.set (p.name.map Char.toLower) p.value.text

theorem comma_not_mem_render {v : Value} (hplain : v.Plain) (h : ',' ∉ v.text) : ',' ∉ v.render := by
  cases v with
  | token s => exact h
  | quoted s =>
    rw [render_of_plain hplain]
    simpa using h

/-- What stands before the equals sign. -/
def Element.key (e : Element) (p : Param) : List Char := e.lead ++ (p.name ++ p.before)

theorem not_mem_key (he : e.Valid) (hp : p.Valid) {d : Char} (hspace : isSpace d = false)
    (htoken : isTokenChar d = false) : d ∉ Element.key e p := by
  intro h
  rcases List.mem_append.1 h with h | h
  · exact space_ne (he.lead d h) hspace rfl
  · rcases List.mem_append.1 h with h | h
    · exact token_ne (hp.name d h) htoken rfl
    · exact space_ne (hp.before d h) hspace rfl

theorem trimChars_key (he : e.Valid) (hp : p.Valid) : trimChars (Element.key e p) = p.name := by
  unfold Element.key
  rw [← List.append_assoc, trimChars_surrounded he.lead hp.before, trimChars_token hp.name]

/-- **An element supplies what it means**, in one part or in several. -/
theorem foldl_addParam_element (he : e.Valid) (hreadable : ∀ p ∈ e.param, Readable p)
    (challenge : BearerChallenge) :
    (e.render.splitOn ',').foldl .addParam challenge = challenge.supply e := by
  unfold Element.render BearerChallenge.supply
  cases hparam : e.param with
  | none =>
    refine foldl_addParam_of_not_mem (fun part hpart hmem => ?_) challenge
    have hc := mem_of_mem_splitOn hpart hmem
    rw [Option.map_none, Option.getD_none, List.append_nil] at hc
    rcases List.mem_append.1 hc with hc | hc
    · exact space_ne (he.lead _ hc) (d := '=') rfl rfl
    · exact space_ne (he.trail _ hc) (d := '=') rfl rfl
  | some p =>
    have hp := he.param p hparam
    have hr := hreadable p hparam
    have hrender : e.lead ++ ((some p).map Param.render).getD [] ++ e.trail =
        Element.key e p ++ '=' :: (p.after ++ p.value.render ++ e.trail) := by
      simp [Element.key, Param.render]
    have hcommaKey : ',' ∉ Element.key e p := not_mem_key he hp rfl rfl
    have hequalsKey : '=' ∉ Element.key e p := not_mem_key he hp rfl rfl
    rw [hrender]
    by_cases hcomma : ',' ∈ p.value.render
    · have hnot : ¬ LookedFor p.name := fun h =>
        comma_not_mem_render (hr.lookedFor h).2 (hr.lookedFor h).1 hcomma
      obtain ⟨a, b, hab, ha⟩ := List.eq_append_cons_of_mem hcomma
      have hb : '=' ∉ b := by
        have hother := hr.other hnot
        have hpos : ∀ c ∈ a, decide (c ≠ ',') = true := fun c hc => decide_eq_true fun heq => ha (heq ▸ hc)
        rw [hab, List.dropWhile_append_of_pos hpos] at hother
        exact fun h => hother (List.mem_cons_of_mem _ h)
      have hfirst : ',' ∉ Element.key e p ++ '=' :: (p.after ++ a) := by
        simp only [List.mem_append, List.mem_cons, not_or]
        exact ⟨hcommaKey, by decide, fun h => space_ne (hp.after _ h) (d := ',') rfl rfl, ha⟩
      have hrest : ∀ part ∈ (b ++ e.trail).splitOn ',', '=' ∉ part := by
        intro part hpart hmem
        rcases List.mem_append.1 (mem_of_mem_splitOn hpart hmem) with h | h
        · exact hb h
        · exact space_ne (he.trail _ h) (d := '=') rfl rfl
      rw [show Element.key e p ++ '=' :: (p.after ++ p.value.render ++ e.trail) =
        (Element.key e p ++ '=' :: (p.after ++ a)) ++ ',' :: (b ++ e.trail) by simp [hab]]
      rw [List.splitOn_append_cons_self_of_not_mem hfirst, List.foldl_cons, addParam_append hequalsKey,
        trimChars_key he hp, BearerChallenge.set_of_not_lookedFor hnot, foldl_addParam_of_not_mem hrest]
      exact (BearerChallenge.set_of_not_lookedFor hnot _ _).symm
    · have hall : ',' ∉ Element.key e p ++ '=' :: (p.after ++ p.value.render ++ e.trail) := by
        simp only [List.mem_append, List.mem_cons, not_or]
        exact ⟨hcommaKey, by decide, ⟨fun h => space_ne (hp.after _ h) (d := ',') rfl rfl, hcomma⟩,
          fun h => space_ne (he.trail _ h) (d := ',') rfl rfl⟩
      rw [List.splitOn_eq_singleton hall, List.foldl_cons, List.foldl_nil, addParam_append hequalsKey,
        trimChars_key he hp, trimChars_surrounded hp.after he.trail, trimChars_value hp.value]
      by_cases hlooked : LookedFor p.name
      · rw [trimQuotes_render hp.value (hr.lookedFor hlooked).2]
      · rw [BearerChallenge.set_of_not_lookedFor hlooked]
        exact (BearerChallenge.set_of_not_lookedFor hlooked _ _).symm

theorem foldl_addParam_elements (hes : ∀ e ∈ es, e.Valid)
    (hreadable : ∀ e ∈ es, ∀ p ∈ e.param, Readable p) (challenge : BearerChallenge) :
    ((es.map Element.render).flatMap (List.splitOn ',')).foldl .addParam challenge =
      es.foldl .supply challenge := by
  induction es generalizing challenge with
  | nil => rfl
  | cons e es ih =>
    obtain ⟨he, hes⟩ := List.forall_mem_cons.1 hes
    obtain ⟨hr, hrs⟩ := List.forall_mem_cons.1 hreadable
    rw [List.map_cons, List.flatMap_cons, List.foldl_append, foldl_addParam_element he hr, ih hes hrs,
      List.foldl_cons]

/-- The white space after the scheme leads the first element. -/
theorem foldl_addParam_list (hes : ∀ e ∈ es, e.Valid) (hreadable : ∀ e ∈ es, ∀ p ∈ e.param, Readable p)
    (challenge : BearerChallenge) :
    ((Challenge.list es).splitOn ',').foldl .addParam challenge = es.foldl .supply challenge := by
  cases es with
  | nil => rfl
  | cons e es =>
    obtain ⟨he, hes⟩ := List.forall_mem_cons.1 hes
    have hlist : Challenge.list (e :: es) =
        [','].intercalate (({ e with lead := ' ' :: e.lead } :: es).map Element.render) := by
      unfold Challenge.list
      cases es <;> simp [Element.render, List.intercalate]
    have hvalid : ({ e with lead := ' ' :: e.lead } : Element).Valid :=
      ⟨List.forall_mem_cons.2 ⟨rfl, he.lead⟩, he.param, he.trail⟩
    rw [hlist, splitOn_intercalate_eq ',' (by simp)]
    exact foldl_addParam_elements (List.forall_mem_cons.2 ⟨hvalid, hes⟩)
      (List.forall_mem_cons.2 (List.forall_mem_cons.1 hreadable)) challenge

/-! ## White space at the end -/

theorem addParam_append_white (hw : ∀ c ∈ w, isWhitespace c = true) (part : List Char)
    (challenge : BearerChallenge) : challenge.addParam (part ++ w) = challenge.addParam part := by
  by_cases h : '=' ∈ part
  · obtain ⟨k, v, rfl, hk⟩ := List.eq_append_cons_of_mem h
    rw [List.append_assoc, List.cons_append, addParam_append hk, addParam_append hk, trimChars_append hw]
  · rw [addParam_of_not_mem h, addParam_of_not_mem]
    intro hmem
    rcases List.mem_append.1 hmem with hmem | hmem
    · exact h hmem
    · cases hw _ hmem

theorem foldl_addParam_append_white (hw : ∀ c ∈ w, isWhitespace c = true) (s : List Char)
    (challenge : BearerChallenge) :
    ((s ++ w).splitOn ',').foldl .addParam challenge = (s.splitOn ',').foldl .addParam challenge := by
  induction hn : s.length using Nat.strong_induction_on generalizing s challenge with
  | _ n ih =>
    by_cases h : ',' ∈ s
    · obtain ⟨a, b, rfl, ha⟩ := List.eq_append_cons_of_mem h
      rw [List.append_assoc, List.cons_append, List.splitOn_append_cons_self_of_not_mem ha,
        List.splitOn_append_cons_self_of_not_mem ha, List.foldl_cons, List.foldl_cons]
      refine ih b.length ?_ b _ rfl
      rw [← hn, List.length_append, List.length_cons]
      omega
    · have hw' : ',' ∉ s ++ w := by
        intro hmem
        rcases List.mem_append.1 hmem with hmem | hmem
        · exact h hmem
        · cases hw _ hmem
      rw [List.splitOn_eq_singleton h, List.splitOn_eq_singleton hw', List.foldl_cons, List.foldl_cons,
        addParam_append_white hw]

/-! ## The whole header -/

theorem list_white_or_space (es : List Element) : ∀ c ∈ (Challenge.list es).head?, c = ' ' := by
  intro c hc
  cases es with
  | nil => cases hc
  | cons e es =>
    cases hc
    rfl

/-- What is left of the list when the header is trimmed. -/
def trimmedList (es : List Element) : List Char := (Challenge.list es).rdropWhile isWhitespace

theorem head_trimmedList (es : List Element) : ∀ c ∈ (trimmedList es).head?, c = ' ' := by
  intro c hc
  obtain ⟨w, hw⟩ := List.rdropWhile_prefix isWhitespace (Challenge.list es)
  refine list_white_or_space es c ?_
  rw [← hw, List.head?_append]
  unfold trimmedList at hc
  rw [Option.mem_def.1 hc]
  rfl

theorem trimChars_render {c : Challenge} (h : c.Valid) :
    trimChars c.render = c.scheme ++ trimmedList c.elements := by
  have hscheme : ∀ ch ∈ c.scheme, isWhitespace ch = false := fun ch hch =>
    not_isWhitespace_of_isTokenChar (h.scheme ch hch)
  have hhead : c.render.dropWhile isWhitespace = c.render := by
    refine dropWhile_of_head fun ch hch => hscheme ch ?_
    unfold Challenge.render at hch
    obtain ⟨d, s, hs⟩ := List.exists_cons_of_ne_nil h.scheme_ne
    rw [hs] at hch ⊢
    cases hch
    exact List.mem_cons_self
  unfold trimChars
  rw [hhead]
  unfold Challenge.render trimmedList
  by_cases hlist : (Challenge.list c.elements).rdropWhile isWhitespace = []
  · rw [hlist, List.append_nil, rdropWhile_append_of_all (List.rdropWhile_eq_nil_iff.1 hlist),
      List.rdropWhile_eq_self_iff]
    intro hne
    rw [hscheme _ (List.getLast_mem hne)]
    exact Bool.false_ne_true
  · exact rdropWhile_append_of_ne hlist

theorem foldl_addParam_trimmedList (hes : ∀ e ∈ es, e.Valid)
    (hreadable : ∀ e ∈ es, ∀ p ∈ e.param, Readable p) (challenge : BearerChallenge) :
    ((trimmedList es).splitOn ',').foldl .addParam challenge = es.foldl .supply challenge := by
  have hwhite : ∀ c ∈ (Challenge.list es).rtakeWhile isWhitespace, isWhitespace c = true := fun c hc =>
    List.mem_rtakeWhile_imp hc
  rw [← foldl_addParam_append_white hwhite, trimmedList, List.rdropWhile_append_rtakeWhile]
  exact foldl_addParam_list hes hreadable challenge

/-- Another scheme is not taken for `Bearer`. -/
theorem parse_other_scheme {c : Challenge} (h : c.Valid) (hscheme : ¬ IsBearer c.scheme) :
    parseBearerChallenge (String.ofList c.render) = none := by
  unfold parseBearerChallenge
  rw [String.toList_ofList, trimChars_render h]
  dsimp only
  split
  · rfl
  · next htake =>
    have htake : IsBearer ((c.scheme ++ trimmedList c.elements).take 6) := not_not.1 htake
    refine if_neg ?_
    rcases Nat.lt_trichotomy c.scheme.length 6 with hlt | heq | hgt
    · -- the space after a shorter scheme is among the six characters
      have hlen := htake.length
      have hspace : ' ' ∈ (c.scheme ++ trimmedList c.elements).take 6 := by
        have hhead := head_trimmedList c.elements
        cases htrimmed : trimmedList c.elements with
        | nil =>
          rw [htrimmed, List.append_nil, List.length_take] at hlen
          omega
        | cons d t =>
          rw [htrimmed] at hhead
          rw [hhead d rfl, List.take_append, List.take_cons (by omega)]
          exact List.mem_append_right _ List.mem_cons_self
      have hmem : (' ' : Char).toLower ∈ "bearer".toList := htake ▸ List.mem_map_of_mem hspace
      exact absurd hmem (by decide)
    · rw [← heq, List.take_left] at htake
      exact absurd htake hscheme
    · obtain ⟨d, s, hdrop⟩ := List.exists_cons_of_ne_nil
        (List.ne_nil_of_length_pos (l := c.scheme.drop 6) (by rw [List.length_drop]; omega))
      have hd : isWhitespace d = false :=
        not_isWhitespace_of_isTokenChar (h.scheme d (List.mem_of_mem_drop (hdrop ▸ List.mem_cons_self)))
      rw [List.drop_append_of_le_length (Nat.le_of_lt hgt), hdrop]
      simpa using hd

/-- The value of the last parameter of this name. -/
def lastValue (c : Challenge) (key : List Char) : Option (List Char) :=
  ((c.params.filter fun p => p.name.map Char.toLower = key).getLast?).map (·.value.text)

/-- What a Bearer challenge says of the parameters that are looked for. -/
def challengeOf (c : Challenge) : BearerChallenge where
  realm := lastValue c "realm".toList
  resourceMetadata := lastValue c "resource_metadata".toList

/-- One more element decides about its own name. -/
theorem lastValue_append (scheme : List Char) (es : List Element) (e : Element) (key : List Char) :
    lastValue ⟨scheme, es ++ [e]⟩ key =
      match e.param with
      | none => lastValue ⟨scheme, es⟩ key
      | some p => if p.name.map Char.toLower = key then some p.value.text else lastValue ⟨scheme, es⟩ key := by
  unfold lastValue Challenge.params
  rw [List.filterMap_append, List.filterMap_cons]
  cases e.param with
  | none => simp
  | some p =>
    dsimp only
    rw [List.filter_append, List.filterMap_nil]
    by_cases hkey : p.name.map Char.toLower = key
    · simp [hkey]
    · simp [hkey]

theorem foldl_supply (scheme : List Char) (es : List Element) :
    es.foldl .supply ⟨none, none⟩ = challengeOf ⟨scheme, es⟩ := by
  induction es using List.reverseRecOn with
  | nil => rfl
  | append_singleton es e ih =>
    rw [List.foldl_append, ih, List.foldl_cons, List.foldl_nil]
    unfold BearerChallenge.supply challengeOf
    rw [lastValue_append, lastValue_append]
    cases e.param with
    | none => rfl
    | some p =>
      dsimp only
      unfold BearerChallenge.set
      by_cases hrealm : p.name.map Char.toLower = "realm".toList
      · rw [if_pos hrealm, if_pos hrealm, if_neg (hrealm ▸ by decide)]
      · rw [if_neg hrealm, if_neg hrealm]
        split <;> rfl

theorem parse_bearer {c : Challenge} (h : c.Valid) (hscheme : IsBearer c.scheme)
    (hreadable : ∀ p ∈ c.params, Readable p) :
    parseBearerChallenge (String.ofList c.render) = some (challengeOf c) := by
  have hr : ∀ e ∈ c.elements, ∀ p ∈ e.param, Readable p := fun e he p hp =>
    hreadable p (List.mem_filterMap.2 ⟨e, he, hp⟩)
  have hnot : ¬ c.scheme.map Char.toLower ≠ "bearer".toList := not_not_intro hscheme
  unfold parseBearerChallenge
  rw [String.toList_ofList, trimChars_render h, ← hscheme.length]
  dsimp only
  rw [List.take_left, List.drop_left, if_neg hnot, foldl_addParam_trimmedList h.elements hr, foldl_supply c.scheme]
  refine if_pos ?_
  have hhead := head_trimmedList c.elements
  cases htrimmed : trimmedList c.elements with
  | nil => rfl
  | cons d t =>
    rw [htrimmed] at hhead
    rw [hhead d rfl]
    rfl

/-- **Challenges are parsed by the grammar**: in ASCII without a panic, a Bearer challenge in any case, as
long as no comma in a quoted string hides or makes up a parameter and what is looked for has no escapes. -/
theorem challenge_parsed :
    (∀ header : String, (∀ ch ∈ header.toList, ch.toNat < 128) →
      (parseBearerChallengeBytes header).isSome = true) ∧
    (∀ c : Challenge, c.Valid → IsBearer c.scheme → (∀ p ∈ c.params, Readable p) →
      parseBearerChallengeBytes (String.ofList c.render) = some (some (challengeOf c))) ∧
    ∀ c : Challenge, c.Valid → ¬ IsBearer c.scheme → (∀ ch ∈ c.render, ch.toNat < 128) →
      parseBearerChallengeBytes (String.ofList c.render) = some none := by
  refine ⟨fun header => parseBearerChallengeBytes_isSome, fun c h hscheme hreadable => ?_,
    fun c h hscheme hascii => ?_⟩
  · have htake : IsBearer ((trimChars (String.ofList c.render).toList).take 6) := by
      rw [String.toList_ofList, trimChars_render h, ← hscheme.length, List.take_left]
      exact hscheme
    rw [parseBearerChallengeBytes_eq (.inr htake), parse_bearer h hscheme hreadable]
  · have hsome := @parseBearerChallengeBytes_isSome (String.ofList c.render) (by rwa [String.toList_ofList])
    rw [parseBearerChallengeBytes_eq (.inl hsome), parse_other_scheme h hscheme]

/-! ## Commas in quoted strings -/

/-- A quoted string without escapes. -/
def quotedText (s : String) : Value := .quoted (s.toList.map fun c => ⟨c, false⟩)

theorem quotedText_valid {s : String}
    (h : (s.toList.all fun c => isQuotable c && c != '"' && c != '\\') = true) : (quotedText s).Valid := by
  intro q hq
  obtain ⟨c, hc, rfl⟩ := List.mem_map.1 hq
  have hc := List.all_eq_true.1 h c hc
  simp only [Bool.and_eq_true, bne_iff_ne] at hc
  exact ⟨hc.1.1, fun _ => ⟨hc.1.2, hc.2⟩⟩

/-- A parameter with a quoted value. -/
def quotedParam (name value : String) : Param := ⟨name.toList, [], [], quotedText value⟩

theorem quotedParam_valid {name value : String} (hne : name.toList ≠ []) (hname : name.toList.all isTokenChar = true)
    (hvalue : (value.toList.all fun c => isQuotable c && c != '"' && c != '\\') = true) :
    (quotedParam name value).Valid :=
  ⟨hne, List.all_eq_true.1 hname, List.forall_mem_nil _, List.forall_mem_nil _, quotedText_valid hvalue⟩

theorem quotedText_plain (s : String) : (quotedText s).Plain := by
  intro q hq
  obtain ⟨c, -, rfl⟩ := List.mem_map.1 hq
  rfl

/-- A Bearer challenge with these parameters. -/
def bearerChallenge (params : List Param) : Challenge :=
  ⟨"Bearer".toList, params.map fun p => ⟨[' '], some p, []⟩⟩

theorem bearerChallenge_valid {params : List Param} (h : ∀ p ∈ params, p.Valid) :
    (bearerChallenge params).Valid := by
  have hne : "Bearer".toList ≠ [] := by decide
  refine ⟨hne, List.all_eq_true.1 rfl, fun e he => ?_⟩
  obtain ⟨p, hp, rfl⟩ := List.mem_map.1 he
  refine ⟨List.all_eq_true.1 rfl, fun q hq => ?_, List.forall_mem_nil _⟩
  cases hq
  exact h p hp

theorem params_bearerChallenge (params : List Param) : (bearerChallenge params).params = params := by
  unfold bearerChallenge Challenge.params
  rw [List.filterMap_map]
  exact List.filterMap_some

/-- A comma in a description that nobody looks for does no harm. -/
def describedParams : List Param :=
  [quotedParam "realm" "a=b", quotedParam "error_description" "gone, for good",
    quotedParam "resource_metadata" "https://b/"]

theorem described_parsed :
    parseBearerChallengeBytes (String.ofList (bearerChallenge describedParams).render) =
      some (some (challengeOf (bearerChallenge describedParams))) := by
  refine challenge_parsed.2.1 _ (bearerChallenge_valid ?_) rfl ?_
  · refine List.forall_mem_cons.2 ⟨quotedParam_valid (by decide) rfl rfl, List.forall_mem_cons.2 ⟨?_, ?_⟩⟩
    · exact quotedParam_valid (by decide) rfl rfl
    · exact List.forall_mem_singleton.2 (quotedParam_valid (by decide) rfl rfl)
  · rw [params_bearerChallenge]
    refine List.forall_mem_cons.2 ⟨⟨fun _ => ⟨by decide, quotedText_plain _⟩, fun h => ?_⟩,
      List.forall_mem_cons.2 ⟨⟨fun h => ?_, fun _ => by decide⟩, List.forall_mem_singleton.2 ⟨fun _ => ?_, fun h => ?_⟩⟩⟩
    · exact absurd (.inl rfl) h
    · exact absurd h (not_or.2 ⟨by decide, by decide⟩)
    · exact ⟨by decide, quotedText_plain _⟩
    · exact absurd (.inr rfl) h

/-- The realm is well formed, and no other parameter is there. -/
theorem comma_supplies_metadata :
    ¬ ∀ c : Challenge, c.Valid → IsBearer c.scheme →
      parseBearerChallengeBytes (String.ofList c.render) = some (some (challengeOf c)) := by
  intro h
  have hvalid : (bearerChallenge [quotedParam "realm" "a, resource_metadata=https://b/"]).Valid :=
    bearerChallenge_valid (List.forall_mem_singleton.2 (quotedParam_valid (by decide) rfl rfl))
  have hmetadata := congrArg (fun r => (r.bind id).bind BearerChallenge.resourceMetadata) (h _ hvalid rfl)
  exact absurd hmetadata (by decide)

end EndaraRelay.Http
