import EndaraRelay.Lib.UriTemplate.Escaping

/-!
# The characters of a URI template

- `expand_uriChars`: an expansion has only characters of a URI.
- `uriText_of_parseBody`: so has the text of an expression, which therefore holds no brace.
- `parseFrom_plainUri`, `plainUri_of_parseFrom`: a text of such characters is read as literals exactly
  when each of its percent signs begins a triplet; it is then its own expansion.
-/

namespace Verif.UriTemplate

/-! ## The characters of an expansion -/

def uriChar (c : Char) : Bool := unreserved c || reserved c || c = '%'

/-- A text of characters that may stand in a URI. -/
def UriText (s : List Char) : Prop := ∀ c ∈ s, uriChar c = true

theorem UriText.nil : UriText [] := fun _ h => absurd h List.not_mem_nil

variable {body s : List Char} {op : Operator} {v : VarSpec} {specs : List VarSpec} {e : Expression}
  {c : Char}

theorem UriText.of_all (h : s.all uriChar = true) : UriText s :=
  List.all_eq_true.1 h

theorem UriText.cons {c : Char} {s : List Char} (hc : uriChar c = true) (hs : UriText s) :
    UriText (c :: s) := List.forall_mem_cons.2 ⟨hc, hs⟩

theorem UriText.append {s t : List Char} (hs : UriText s) (ht : UriText t) : UriText (s ++ t) :=
  List.forall_mem_append.2 ⟨hs, ht⟩

theorem UriText.intercalate {sep : List Char} {texts : List (List Char)} (hsep : UriText sep)
    (h : ∀ t ∈ texts, UriText t) : UriText (sep.intercalate texts) := by
  induction texts with
  | nil => exact UriText.nil
  | cons t texts ih =>
    have ht := h t List.mem_cons_self
    cases texts with
    | nil => rwa [List.intercalate_singleton]
    | cons u texts =>
      rw [List.intercalate_cons_cons]
      exact (ht.append hsep).append (ih fun v hv => h v (List.mem_cons_of_mem _ hv))

theorem uriText_encodeChar (c : Char) : UriText (Percent.encodeChar escapes c) := by
  intro d hd
  obtain h | h := mem_encodeChar hd
  · simp [uriChar, h]
  · simp [uriChar, h]

theorem uriText_encodeUnreserved (s : List Char) : UriText (encodeUnreserved s) := by
  intro d hd
  obtain ⟨c, -, hd⟩ := List.mem_flatMap.1 hd
  exact uriText_encodeChar c d hd

theorem uriText_encodeReserved (s : List Char) : UriText (encodeReserved s) := by
  induction s with
  | nil => exact UriText.nil
  | cons c s ih =>
    rw [encodeReserved]
    refine UriText.append ?_ ih
    split
    · next h =>
      refine UriText.cons ?_ UriText.nil
      simp only [Bool.or_eq_true, Bool.and_eq_true, decide_eq_true_eq] at h
      obtain h | ⟨h, -⟩ := h
      · simp [uriChar, h]
      · simp [uriChar, h]
    · exact uriText_encodeChar c

namespace Operator

theorem uriText_encode (op : Operator) (s : List Char) : UriText (op.encode s) := by
  cases op <;> first
    | exact uriText_encodeUnreserved s
    | exact uriText_encodeReserved s

theorem uriText_first (op : Operator) : UriText op.first :=
  UriText.of_all (by cases op <;> decide)

theorem uriText_separator (op : Operator) : UriText op.separator :=
  UriText.of_all (by cases op <;> decide)

theorem uriText_ifEmpty (op : Operator) : UriText op.ifEmpty :=
  UriText.of_all (by cases op <;> decide)

end Operator

theorem uriText_of_finishesName {mayEnd : Bool} (h : finishesName mayEnd s = true) : UriText s := by
  induction s generalizing mayEnd with
  | nil => exact UriText.nil
  | cons c s ih =>
    rw [finishesName] at h
    split at h
    · next hdot =>
      rw [Bool.and_eq_true] at h
      exact UriText.cons (by rw [hdot]; decide) (ih h.2)
    · simp only [Bool.and_eq_true, Bool.or_eq_true, decide_eq_true_eq] at h
      refine UriText.cons ?_ (ih h.2)
      obtain hvar | hpercent := h.1
      · simp [uriChar, unreserved_of_varChar hvar]
      · simp [uriChar, hpercent.1]

theorem uriText_withName {name value : List Char} (hname : UriText name) (hvalue : UriText value) :
    UriText (withName op name value) := by
  unfold withName
  refine hname.append ?_
  split
  · exact op.uriText_ifEmpty
  · exact UriText.cons (by decide) hvalue

theorem uriText_expandValue {value : Value} {text : List Char} (hname : UriText v.name)
    (h : v.expandValue op value = some text) : UriText text := by
  have hwith : ∀ t, UriText t → UriText (if op.named then withName op v.name t else t) := by
    intro t ht
    split
    · exact uriText_withName hname ht
    · exact ht
  have hcomma : UriText [','] := UriText.cons (by decide) UriText.nil
  unfold VarSpec.expandValue at h
  split at h
  · cases h
    exact hwith _ (op.uriText_encode _)
  · cases h
  · cases h
  · split at h
    · cases h
      refine UriText.intercalate op.uriText_separator fun t ht => ?_
      obtain ⟨i, -, rfl⟩ := List.mem_map.1 ht
      exact hwith _ (op.uriText_encode i)
    · cases h
      refine hwith _ (UriText.intercalate hcomma fun t ht => ?_)
      obtain ⟨i, -, rfl⟩ := List.mem_map.1 ht
      exact op.uriText_encode i
  · split at h
    · cases h
      refine UriText.intercalate op.uriText_separator fun t ht => ?_
      obtain ⟨p, -, rfl⟩ := List.mem_map.1 ht
      split
      · exact uriText_withName (uriText_encodeReserved _) (op.uriText_encode _)
      · exact (op.uriText_encode _).append (UriText.cons (by decide) (op.uriText_encode _))
    · cases h
      refine hwith _ (UriText.intercalate hcomma fun t ht => ?_)
      obtain ⟨p, -, ht⟩ := List.mem_flatMap.1 ht
      simp only [List.mem_cons, List.not_mem_nil, or_false] at ht
      obtain rfl | rfl := ht
      · exact op.uriText_encode _
      · exact op.uriText_encode _

theorem isName_of_parseVarList (h : parseVarList s = some specs) :
    ∀ v ∈ specs, isName v.name = true := by
  unfold parseVarList at h
  generalize s.splitOn ',' = texts at h
  induction texts generalizing specs with
  | nil =>
    cases h
    exact fun v hv => absurd hv List.not_mem_nil
  | cons t texts ih =>
    rw [List.mapM_cons] at h
    obtain ⟨v, hv, h⟩ := Option.bind_eq_some_iff.1 h
    obtain ⟨rest, hrest, h⟩ := Option.bind_eq_some_iff.1 h
    cases h
    exact List.forall_mem_cons.2 ⟨(parseVarSpec_eq hv).1, ih hrest⟩

theorem isName_of_parseBody (h : parseBody body = some (op, specs)) :
    ∀ v ∈ specs, isName v.name = true := by
  cases body with
  | nil => cases h
  | cons c s =>
    rw [parseBody] at h
    split at h
    · obtain ⟨specs', hspecs, heq⟩ := Option.map_eq_some_iff.1 h
      cases heq
      exact isName_of_parseVarList hspecs
    · obtain ⟨specs', hspecs, heq⟩ := Option.map_eq_some_iff.1 h
      cases heq
      exact isName_of_parseVarList hspecs

theorem Expression.uriText_expand (σ : Assignment) (e : Expression) : UriText (e.expand σ) := by
  unfold Expression.expand expandVars
  split
  · exact UriText.nil
  · refine e.operator.uriText_first.append
      (UriText.intercalate e.operator.uriText_separator fun t ht => ?_)
    obtain ⟨v, hv, ht⟩ := List.mem_filterMap.1 ht
    obtain ⟨value, -, ht⟩ := Option.bind_eq_some_iff.1 ht
    exact uriText_expandValue (uriText_of_finishesName (isName_of_parseBody e.parsed v hv)) ht

/-- **An expansion has only characters of a URI.** -/
theorem expand_uriChars (σ : Assignment) (t : List Part) : UriText (expand σ t) := by
  intro c hc
  obtain ⟨part, -, hc⟩ := List.mem_flatMap.1 hc
  cases part with
  | literal d =>
    rw [Part.expand] at hc
    split at hc
    · next h =>
      rw [List.mem_singleton.1 hc]
      simp only [Bool.or_eq_true, decide_eq_true_eq] at h
      obtain h | h := h
      · simp [uriChar, h]
      · simp [uriChar, h]
    · exact uriText_encodeChar d c hc
  | expression e => exact e.uriText_expand σ c hc

/-! ## The text of an expression -/

theorem uriText_of_parseVarSpec (h : parseVarSpec s = some v) : UriText s := by
  obtain ⟨hname, hcases⟩ := parseVarSpec_eq h
  have hname := uriText_of_finishesName hname
  obtain ⟨hs, -⟩ | hs | ⟨digits, hs, hdigits⟩ := hcases
  · rwa [hs]
  · rw [hs]
    exact hname.append (UriText.cons (by decide) UriText.nil)
  · rw [hs]
    refine hname.append (UriText.cons (by decide) fun d hd => ?_)
    simp [uriChar, unreserved, isAlphanum_of_isDigit (hdigits d hd)]

theorem uriText_of_parseVarList (h : parseVarList s = some specs) : UriText s := by
  have hsplit : [','].intercalate (s.splitOn ',') = s := List.intercalate_splitOn ','
  rw [← hsplit]
  unfold parseVarList at h
  generalize s.splitOn ',' = texts at h
  refine UriText.intercalate (UriText.cons (by decide) UriText.nil) ?_
  induction texts generalizing specs with
  | nil => exact fun t ht => absurd ht List.not_mem_nil
  | cons t texts ih =>
    rw [List.mapM_cons] at h
    obtain ⟨v, hv, h⟩ := Option.bind_eq_some_iff.1 h
    obtain ⟨rest, hrest, -⟩ := Option.bind_eq_some_iff.1 h
    exact List.forall_mem_cons.2 ⟨uriText_of_parseVarSpec hv, ih hrest⟩

theorem uriText_of_parseBody (h : parseBody body = some (op, specs)) : UriText body := by
  cases body with
  | nil => exact UriText.nil
  | cons c s =>
    rw [parseBody] at h
    split at h
    · next op' hop =>
      obtain ⟨specs', hspecs, -⟩ := Option.map_eq_some_iff.1 h
      refine UriText.cons ?_ (uriText_of_parseVarList hspecs)
      by_contra hc
      have hne : ∀ d, uriChar d = true → c ≠ d := by
        rintro d hd rfl
        exact hc hd
      simp [Operator.ofChar, hne '+' (by decide), hne '#' (by decide), hne '.' (by decide),
        hne '/' (by decide), hne ';' (by decide), hne '?' (by decide), hne '&' (by decide)] at hop
    · obtain ⟨specs', hspecs, -⟩ := Option.map_eq_some_iff.1 h
      exact uriText_of_parseVarList hspecs

theorem Expression.parse_eq (h : parseBody body = some (op, specs)) :
    Expression.parse body = some ⟨body, op, specs, h⟩ := by
  unfold Expression.parse
  split
  · next op' specs' h' =>
    cases h.symm.trans h'
    rfl
  · next h' => cases h.symm.trans h'

theorem Expression.body_of_parse (h : Expression.parse body = some e) : e.body = body := by
  unfold Expression.parse at h
  split at h
  · cases h
    rfl
  · cases h

/-- An expression whose text is unreserved reads as one variable without modifier. -/
theorem Expression.of_unreserved (h : ∀ c ∈ e.body, unreserved c = true) :
    e.operator = readOperator e.body ∧ e.varSpecs = [⟨readName e.body, .none⟩] := by
  have hparsed := parseBody_encodeUnreserved e.parsed
  rw [← eq_encodeUnreserved_iff.2 h, e.parsed] at hparsed
  have hread := Option.some.inj hparsed
  exact ⟨congrArg Prod.fst hread, congrArg Prod.snd hread⟩

/-! ## Text without expressions -/

/-- A text that is a template and its own expansion. -/
def plainUri : List Char → Bool
  | [] => true
  | c :: s => (unreserved c || reserved c || (c = '%' && startsHexPair s)) && plainUri s

theorem startsHexPair_append (h : startsHexPair s = true) (r : List Char) :
    startsHexPair (s ++ r) = true := by
  match s, h with
  | _ :: _ :: _, h => exact h

theorem startsHexPair_of_append (hc : isHex c = false) {r : List Char}
    (h : startsHexPair (s ++ c :: r) = true) : startsHexPair s = true := by
  match s, r with
  | [], [] => cases h
  | [], d :: r => simp [startsHexPair, hc] at h
  | [x], r => simp [startsHexPair, hc] at h
  | x :: y :: s, _ => exact h

theorem parseFrom_literal {c : Char} {s : List Char}
    (hc : unreserved c = true ∨ reserved c = true ∨ c = '%' ∧ startsHexPair s = true) :
    parseFrom none (c :: s) = (parseFrom none s).map fun t => .literal c :: t := by
  have hbrace : c ≠ '{' := by
    rintro rfl
    revert hc
    simp [unreserved, reserved]
  have hliteral : (literalChar c || (decide (c = '%') && startsHexPair s)) = true := by
    obtain h | h | h := hc
    · simp [literalChar, h]
    · simp [literalChar, h]
    · simp [h.1, h.2]
  rw [parseFrom, if_neg hbrace, if_pos hliteral]

theorem parseFrom_plainUri (h : plainUri s = true) (r : List Char) :
    parseFrom none (s ++ r) = (parseFrom none r).map fun t => s.map Part.literal ++ t := by
  induction s with
  | nil => simp
  | cons c s ih =>
    simp only [plainUri, Bool.and_eq_true, Bool.or_eq_true, decide_eq_true_eq] at h
    have hc : unreserved c = true ∨ reserved c = true ∨ c = '%' ∧ startsHexPair (s ++ r) = true := by
      obtain (h | h) | h := h.1
      · exact .inl h
      · exact .inr (.inl h)
      · exact .inr (.inr ⟨h.1, startsHexPair_append h.2 r⟩)
    rw [List.cons_append, parseFrom_literal hc, ih h.2, Option.map_map]
    rfl

theorem expand_literal (h : uriChar c = true) (σ : Assignment) : Part.expand σ (.literal c) = [c] := by
  simp only [uriChar, Bool.or_eq_true, decide_eq_true_eq] at h
  rw [Part.expand]
  split
  · rfl
  · next hnot =>
    simp only [Bool.or_eq_true, decide_eq_true_eq, not_or] at hnot
    obtain (h | h) | h := h
    · exact encodeChar_of_unreserved h
    · exact absurd h hnot.1
    · exact absurd h hnot.2

theorem expand_map_literal (h : UriText s) (σ : Assignment) : expand σ (s.map Part.literal) = s := by
  induction s with
  | nil => rfl
  | cons c s ih =>
    obtain ⟨hc, hs⟩ := List.forall_mem_cons.1 h
    rw [expand, List.map_cons, List.flatMap_cons, expand_literal hc, ← expand, ih hs]
    rfl

theorem uriText_of_plainUri (h : plainUri s = true) : UriText s := by
  induction s with
  | nil => exact UriText.nil
  | cons c s ih =>
    simp only [plainUri, Bool.and_eq_true, Bool.or_eq_true, decide_eq_true_eq] at h
    refine UriText.cons ?_ (ih h.2)
    obtain (h | h) | h := h.1
    · simp [uriChar, h]
    · simp [uriChar, h]
    · simp [uriChar, h.1]

/-- What a template begins with, up to a character that is not hexadecimal, is plain when it has only
characters of a URI. -/
theorem plainUri_of_parseFrom {s r : List Char} {t : List Part} (hc : isHex c = false) (hs : UriText s)
    (h : parseFrom none (s ++ c :: r) = some t) : plainUri s = true := by
  induction s generalizing t with
  | nil => rfl
  | cons d s ih =>
    obtain ⟨hd, hs⟩ := List.forall_mem_cons.1 hs
    have hbrace : d ≠ '{' := by
      rintro rfl
      exact absurd hd (by decide)
    rw [List.cons_append, parseFrom, if_neg hbrace] at h
    split at h
    · next hliteral =>
      obtain ⟨t', ht', -⟩ := Option.map_eq_some_iff.1 h
      simp only [uriChar, Bool.or_eq_true, decide_eq_true_eq] at hd
      simp only [Bool.or_eq_true, Bool.and_eq_true, decide_eq_true_eq] at hliteral
      rw [plainUri, ih hs ht', Bool.and_true]
      obtain (hd | hd) | rfl := hd
      · simp [hd]
      · simp [hd]
      · have hpair := hliteral.resolve_left (by decide)
        simp [startsHexPair_of_append hc hpair.2]
    · cases h

end Verif.UriTemplate
