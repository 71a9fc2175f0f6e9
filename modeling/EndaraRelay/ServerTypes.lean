import Mathlib.Data.List.Basic
import Mathlib.Data.List.Chain
import EndaraRelay.ConfigRequests

/-!
# Server types

`server_type_resolution.rs` on top of `sanitize_server_name`: the override if it can be sanitized, or else
the sanitized name of the upstream server with one suffix cut off.

**Canonical names** (`CanonicalServerType`) are what sanitizing leaves alone; it always gives one
(`canonical_of_sanitize`), so it is idempotent.

**Theorem (`effective_canonical_iff`).** The effective server type is canonical, unless it is cut from a
name in which a dash stands before the suffix: a dash before `_mcp` survives sanitizing, and cutting does
not trim again.
-/

namespace EndaraRelay

/-! ## The effective server type -/

/-- The suffixes that are cut off, longer ones first. -/
def stripSuffixes : List String := ["-mcp-server", "_mcp_server", "-mcp", "_mcp"]

/-- Cut one suffix off, unless nothing would be left. -/
def stripMcpServerSuffix (name : String) : String :=
  match stripSuffixes.findSome? fun suffix => (name.toList.dropSuffix? suffix.toList).filter (· ≠ []) with
  | some stripped => String.ofList stripped
  | none => name

def effectiveServerType (overrideField upstreamSanitized : Option String) : Option String :=
  match overrideField.map sanitizeServerName with
  | some (.ok sanitized) => some sanitized
  | _ => upstreamSanitized.map stripMcpServerSuffix

/-! ## Canonical names -/

/-- What sanitizing leaves alone, as characters. -/
structure CanonicalChars (chars : List Char) : Prop where
  ne_nil : chars ≠ []
  length : chars.length ≤ 64
  allowed : ∀ c ∈ chars, isPrefixChar c
  single : chars.IsChain fun a b => ¬ (a = '-' ∧ b = '-')
  head : ∀ c ∈ chars.head?, c ≠ '-'
  last : ∀ c ∈ chars.getLast?, c ≠ '-'

theorem dashed_chars (lastWasDash : Bool) (cs : List Char) : ∀ c ∈ dashed lastWasDash cs, isPrefixChar c := by
  induction cs generalizing lastWasDash with
  | nil => simp [dashed]
  | cons d cs ih =>
    rw [dashed]
    split
    next hkept => exact List.forall_mem_cons.2 ⟨by simp only [isPrefixChar, hkept, Bool.true_or], ih false⟩
    · split
      · exact ih true
      · exact List.forall_mem_cons.2 ⟨rfl, ih true⟩

theorem head_dashed (cs : List Char) : ∀ c ∈ (dashed true cs).head?, c ≠ '-' := by
  induction cs with
  | nil => simp [dashed]
  | cons d cs ih =>
    rw [dashed]
    split
    next hkept =>
      rintro c hc rfl
      cases hc
      exact absurd hkept (by decide)
    · rwa [if_pos rfl]

theorem dashed_single (lastWasDash : Bool) (cs : List Char) :
    (dashed lastWasDash cs).IsChain fun a b => ¬ (a = '-' ∧ b = '-') := by
  induction cs generalizing lastWasDash with
  | nil => exact .nil
  | cons d cs ih =>
    rw [dashed]
    split
    next hkept =>
      refine List.isChain_cons.2 ⟨fun c _ h => ?_, ih false⟩
      rw [h.1] at hkept
      exact absurd hkept (by decide)
    · split
      · exact ih true
      · exact List.isChain_cons.2 ⟨fun c hc h => head_dashed cs c hc h.2, ih true⟩

/-- The characters a name is sanitized to, whatever comes of them. -/
def sanitizedChars (raw : String) : List Char :=
  ((dashed false ((trim raw).toList.flatMap toLowercase)).dropWhile (· = '-')).rdropWhile (· = '-')

variable {name raw : String} {c : Char}

theorem sanitizeServerName_eq_ok :
    sanitizeServerName raw = .ok name ↔ trim raw ≠ "" ∧ sanitizedChars raw ≠ [] ∧
      (sanitizedChars raw).length ≤ 64 ∧ String.ofList (sanitizedChars raw) = name := by
  show (if trim raw = "" then Except.error ServerNameError.empty
    else if sanitizedChars raw = [] then .error (.unsanitizable raw)
    else if 64 < (sanitizedChars raw).length then .error (.tooLong (sanitizedChars raw).length)
    else .ok (String.ofList (sanitizedChars raw))) = .ok name ↔ _
  by_cases htrim : trim raw = ""
  · simp [htrim]
  by_cases hnil : sanitizedChars raw = []
  · simp [htrim, hnil]
  by_cases hlong : 64 < (sanitizedChars raw).length
  · simp [htrim, hnil, hlong]
  · simp [htrim, hnil, hlong, Nat.not_lt.1 hlong]

theorem canonical_of_sanitize (h : sanitizeServerName raw = .ok name) : CanonicalChars name.toList := by
  obtain ⟨-, hne, hlength, rfl⟩ := sanitizeServerName_eq_ok.1 h
  rw [String.toList_ofList]
  generalize hout : dashed false ((trim raw).toList.flatMap toLowercase) = out at *
  have hsub : sanitizedChars raw <:+: out := by
    rw [sanitizedChars, hout]
    exact (List.rdropWhile_prefix _ _).isInfix.trans (List.dropWhile_suffix _).isInfix
  refine ⟨hne, hlength, fun c hc => ?_, ?_, fun c hc => ?_, fun c hc => ?_⟩
  · exact dashed_chars _ _ c (hout ▸ hsub.subset hc)
  · obtain ⟨before, after, hsplit⟩ := hsub
    have hchain : (before ++ sanitizedChars raw ++ after).IsChain fun c d => ¬ (c = '-' ∧ d = '-') := by
      rw [hsplit, ← hout]
      exact dashed_single _ _
    exact hchain.left_of_append.right_of_append
  · obtain ⟨dashes, hprefix⟩ : sanitizedChars raw <+: out.dropWhile (· = '-') := by
      rw [sanitizedChars, hout]
      exact List.rdropWhile_prefix _ _
    have hhead := List.head?_dropWhile_not (fun c => decide (c = '-')) out
    rw [← hprefix, List.head?_append, Option.mem_def.1 hc] at hhead
    exact of_decide_eq_false hhead
  · rintro rfl
    have hlast : sanitizedChars raw = (out.dropWhile (· = '-')).rdropWhile (· = '-') := by rw [sanitizedChars, hout]
    rw [hlast] at hc hne
    rw [List.getLast?_eq_some_getLast hne] at hc
    exact List.rdropWhile_last_not _ _ hne (decide_eq_true (Option.some.inj hc))

theorem prefixChar_cases (h : isPrefixChar c) :
    (97 ≤ c.toNat ∧ c.toNat ≤ 122) ∨ (48 ≤ c.toNat ∧ c.toNat ≤ 57) ∨ c = '_' ∨ c = '-' := by
  simp only [isPrefixChar, isAsciiLowercase, isAsciiDigit, Bool.or_eq_true, Bool.and_eq_true,
    decide_eq_true_eq] at h
  obtain ((hlower | hdigit) | hscore) | hdash := h
  · exact .inl hlower
  · exact .inr (.inl hdigit)
  · exact .inr (.inr (.inl hscore))
  · exact .inr (.inr (.inr hdash))

theorem toLowercase_of_prefixChar (h : isPrefixChar c) : toLowercase c = [c] := by
  have hupper : ¬ ('A' ≤ c ∧ c ≤ 'Z') := by
    intro hupper
    have hupper : 65 ≤ c.toNat ∧ c.toNat ≤ 90 := hupper
    obtain hc | hc | rfl | rfl := prefixChar_cases h
    · omega
    · omega
    · exact absurd hupper (by decide)
    · exact absurd hupper (by decide)
  have hascii : c.toNat < 128 := by
    obtain hc | hc | rfl | rfl := prefixChar_cases h
    · omega
    · omega
    · decide
    · decide
  rw [toLowercase, if_neg hupper, if_neg (by omega), if_neg (by omega)]

theorem not_isWhitespace_of_prefixChar (h : isPrefixChar c) : isWhitespace c = false := by
  obtain hc | hc | rfl | rfl := prefixChar_cases h
  · unfold isWhitespace
    rw [decide_eq_false_iff_not]
    omega
  · unfold isWhitespace
    rw [decide_eq_false_iff_not]
    omega
  · decide
  · decide

theorem flatMap_toLowercase {chars : List Char} (h : ∀ c ∈ chars, isPrefixChar c) :
    chars.flatMap toLowercase = chars := by
  rw [List.flatMap_congr fun c hc => toLowercase_of_prefixChar (h c hc), List.flatMap_singleton']

theorem dashed_eq_self {lastWasDash : Bool} {chars : List Char} (h : ∀ c ∈ chars, isPrefixChar c)
    (hsingle : chars.IsChain fun a b => ¬ (a = '-' ∧ b = '-'))
    (hlast : lastWasDash = true → ∀ c ∈ chars.head?, c ≠ '-') : dashed lastWasDash chars = chars := by
  induction chars generalizing lastWasDash with
  | nil => rfl
  | cons c chars ih =>
    obtain ⟨hc, hchars⟩ := List.forall_mem_cons.1 h
    obtain ⟨hnext, htail⟩ := List.isChain_cons.1 hsingle
    rw [dashed]
    split
    · rw [ih hchars htail (by simp)]
    next hkept =>
      have hdash : c = '-' := by
        rw [isPrefixChar, Bool.or_eq_true] at hc
        exact of_decide_eq_true (hc.resolve_left hkept)
      subst hdash
      have hrest : dashed true chars = chars := ih hchars htail fun _ d hd hdash => hnext d hd ⟨rfl, hdash⟩
      rw [if_neg fun hlast' => hlast hlast' '-' rfl rfl, hrest]

/-- Sanitizing leaves a canonical name alone. -/
theorem sanitize_of_canonical (h : CanonicalChars name.toList) :
    sanitizeServerName name = .ok name := by
  have htrim : trim name = name := by
    have hchars : trimChars name.toList = name.toList :=
      trimChars_eq_self (fun c hc => not_isWhitespace_of_prefixChar (h.allowed c (List.mem_of_mem_head? hc)))
        fun c hc => not_isWhitespace_of_prefixChar (h.allowed c (List.mem_of_getLast? hc))
    exact (congrArg String.ofList hchars).trans String.ofList_toList
  have hsanitized : sanitizedChars name = name.toList := by
    have hdrop : name.toList.dropWhile (· = '-') = name.toList :=
      List.dropWhile_eq_self_iff.2 fun hl => by
        have hhead := h.head _ (List.head?_eq_some_head (List.ne_nil_of_length_pos hl))
        simpa [List.head_eq_getElem] using hhead
    rw [sanitizedChars, htrim, flatMap_toLowercase h.allowed, dashed_eq_self h.allowed h.single (by simp), hdrop,
      List.rdropWhile_eq_self_iff]
    intro hne
    simpa using h.last _ (List.getLast?_eq_some_getLast hne)
  refine sanitizeServerName_eq_ok.2 ⟨?_, ?_, ?_, ?_⟩
  · rw [htrim]
    rintro rfl
    exact h.ne_nil rfl
  · rw [hsanitized]
    exact h.ne_nil
  · rw [hsanitized]
    exact h.length
  · rw [hsanitized, String.ofList_toList]

theorem sanitize_idempotent (h : sanitizeServerName raw = .ok name) :
    sanitizeServerName name = .ok name := sanitize_of_canonical (canonical_of_sanitize h)

/-- Not empty, at most 64 characters of `[a-z0-9_-]`, no dash at either end, and left alone by sanitizing. -/
structure CanonicalServerType (name : String) : Prop where
  ne_empty : name ≠ ""
  length : name.length ≤ 64
  allowed : ∀ c ∈ name.toList, isPrefixChar c
  head : name.toList.head? ≠ some '-'
  last : name.toList.getLast? ≠ some '-'
  fixed : sanitizeServerName name = .ok name

theorem canonicalServerType_iff : CanonicalServerType name ↔ CanonicalChars name.toList := by
  refine ⟨fun h => canonical_of_sanitize h.fixed, fun h => ⟨?_, h.length, h.allowed, ?_, ?_, sanitize_of_canonical h⟩⟩
  · rintro rfl
    exact h.ne_nil rfl
  · exact fun hhead => h.head _ hhead rfl
  · exact fun hlast => h.last _ hlast rfl

/-! ## Cutting a suffix off -/

/-- What is left of a canonical name is canonical when it does not end in a dash. -/
theorem CanonicalChars.cut {stripped suffix : List Char} (h : CanonicalChars (stripped ++ suffix))
    (hne : stripped ≠ []) (hlast : ∀ c ∈ stripped.getLast?, c ≠ '-') : CanonicalChars stripped where
  ne_nil := hne
  length := by
    have hlength := h.length
    rw [List.length_append] at hlength
    omega
  allowed c hc := h.allowed c (List.mem_append_left _ hc)
  single := h.single.left_of_append
  head c hc := h.head c (by rw [List.head?_append, Option.mem_def.1 hc]; rfl)
  last := hlast

theorem strip_cases (name : String) :
    stripMcpServerSuffix name = name ∨
      ∃ suffix ∈ stripSuffixes, ∃ stripped ≠ [], name.toList = stripped ++ suffix.toList ∧
        stripMcpServerSuffix name = String.ofList stripped := by
  unfold stripMcpServerSuffix
  split
  next stripped hfind =>
    obtain ⟨suffix, hsuffix, hcut⟩ := List.exists_of_findSome?_eq_some hfind
    obtain ⟨hcut, hne⟩ := Option.filter_eq_some_iff.1 hcut
    obtain ⟨suffix', happend, hbeq⟩ := List.dropSuffix?_eq_some_iff.1 hcut
    rw [beq_iff_eq.1 hbeq] at happend
    exact .inr ⟨suffix, hsuffix, stripped, of_decide_eq_true hne, happend, rfl⟩
  next => exact .inl rfl

/-- A suffix that ends in something else than the name is not cut off. -/
theorem dropSuffix_eq_none {name suffix : List Char} (back last : List Char) (hback : back <:+ name)
    (hlast : last <:+ suffix) (hlength : back.length = last.length) (hne : back ≠ last) :
    name.dropSuffix? suffix = none := by
  obtain ⟨front, rfl⟩ := hback
  obtain ⟨first, rfl⟩ := hlast
  refine Option.eq_none_iff_forall_ne_some.2 fun stripped hstripped => ?_
  obtain ⟨suffix, happend, hbeq⟩ := List.dropSuffix?_eq_some_iff.1 hstripped
  rw [beq_iff_eq.1 hbeq, ← List.append_assoc] at happend
  exact hne (List.append_inj_right' happend hlength)

theorem dropSuffix_append (stripped suffix : List Char) :
    (stripped ++ suffix).dropSuffix? suffix = some stripped :=
  List.dropSuffix?_eq_some_iff.2 ⟨suffix, rfl, beq_self_eq_true suffix⟩

/-- A dash stands before the suffix that is cut off. -/
def DashedSuffix (name : String) : Prop :=
  "-_mcp".toList <:+ name.toList ∨ "-_mcp_server".toList <:+ name.toList

/-- The first suffix that is there is cut off. -/
theorem strip_eq {name suffix : String} {tried others : List String} {stripped : List Char}
    (hsplit : stripSuffixes = tried ++ suffix :: others)
    (htried : ∀ s ∈ tried, name.toList.dropSuffix? s.toList = none)
    (hcut : name.toList.dropSuffix? suffix.toList = some stripped) (hne : stripped ≠ []) :
    stripMcpServerSuffix name = String.ofList stripped := by
  have hnone : tried.findSome? (fun s => (name.toList.dropSuffix? s.toList).filter (· ≠ [])) = none := by
    refine List.findSome?_eq_none_iff.2 fun s hs => ?_
    rw [htried s hs, Option.filter_none]
  have hsome : (name.toList.dropSuffix? suffix.toList).filter (· ≠ []) = some stripped := by
    rw [hcut, Option.filter_some, if_pos (decide_eq_true hne)]
  rw [stripMcpServerSuffix, hsplit, List.findSome?_append, hnone, Option.none_or, List.findSome?_cons, hsome]

theorem strip_of_dashed (h : DashedSuffix name) :
    ∃ front, stripMcpServerSuffix name = String.ofList (front ++ ['-']) := by
  obtain ⟨front, hfront⟩ | ⟨front, hfront⟩ := h
  · have hname : name.toList = (front ++ ['-']) ++ "_mcp".toList := by
      rw [← hfront, List.append_assoc]
      rfl
    have hback : "_mcp".toList <:+ name.toList := ⟨_, hname.symm⟩
    have htried : ∀ s ∈ ["-mcp-server", "_mcp_server", "-mcp"], name.toList.dropSuffix? s.toList = none := by
      rw [List.forall_mem_cons, List.forall_mem_cons, List.forall_mem_singleton]
      exact ⟨dropSuffix_eq_none _ "rver".toList hback (by decide) rfl (by decide),
        dropSuffix_eq_none _ "rver".toList hback (by decide) rfl (by decide),
        dropSuffix_eq_none _ "-mcp".toList hback (by decide) rfl (by decide)⟩
    exact ⟨front, strip_eq rfl htried (hname ▸ dropSuffix_append _ _) (by simp)⟩
  · have hname : name.toList = (front ++ ['-']) ++ "_mcp_server".toList := by
      rw [← hfront, List.append_assoc]
      rfl
    have hback : "_mcp_server".toList <:+ name.toList := ⟨_, hname.symm⟩
    have htried : ∀ s ∈ ["-mcp-server"], name.toList.dropSuffix? s.toList = none := by
      rw [List.forall_mem_singleton]
      exact dropSuffix_eq_none _ _ hback List.suffix_rfl (by decide) (by decide)
    exact ⟨front, strip_eq rfl htried (hname ▸ dropSuffix_append _ _) (by simp)⟩

/-- A suffix after a dash does not begin with one in a canonical name. -/
theorem CanonicalChars.dashed {name suffix : String} {front : List Char} (h : CanonicalChars name.toList)
    (hsuffix : suffix ∈ stripSuffixes) (hname : name.toList = (front ++ ['-']) ++ suffix.toList) :
    DashedSuffix name := by
  have hdouble : suffix.toList.head? ≠ some '-' := by
    intro hhead
    have hsingle := h.single
    rw [hname] at hsingle
    exact (List.isChain_append.1 hsingle).2.2 '-' List.getLast?_concat '-' hhead ⟨rfl, rfl⟩
  simp only [stripSuffixes, List.mem_cons, List.not_mem_nil, or_false] at hsuffix
  obtain rfl | rfl | rfl | rfl := hsuffix
  · exact absurd rfl hdouble
  · exact .inr ⟨front, by rw [hname, List.append_assoc]; rfl⟩
  · exact absurd rfl hdouble
  · exact .inl ⟨front, by rw [hname, List.append_assoc]; rfl⟩

theorem canonical_strip_iff (h : CanonicalChars name.toList) :
    CanonicalServerType (stripMcpServerSuffix name) ↔ ¬ DashedSuffix name := by
  rw [canonicalServerType_iff]
  constructor
  · intro hcanonical hdashed
    obtain ⟨front, hfront⟩ := strip_of_dashed hdashed
    rw [hfront, String.toList_ofList] at hcanonical
    exact hcanonical.last '-' (List.getLast?_concat) rfl
  · intro hdashed
    obtain hself | ⟨suffix, hsuffix, stripped, hne, happend, hcut⟩ := strip_cases name
    · rwa [hself]
    · rw [hcut, String.toList_ofList]
      refine CanonicalChars.cut (happend ▸ h) hne fun c hc hdash => hdashed ?_
      subst hdash
      obtain ⟨front, rfl⟩ := List.getLast?_eq_some_iff.1 hc
      exact h.dashed hsuffix happend

/-- **The effective server type is canonical** unless it is cut from a name with a dash before the suffix. -/
theorem effective_canonical_iff (overrideField upstreamSanitized : Option String)
    (hupstream : ∀ name ∈ upstreamSanitized, ∃ raw, sanitizeServerName raw = .ok name) :
    (∀ raw name, sanitizeServerName raw = .ok name → sanitizeServerName name = .ok name) ∧
    ((∀ name ∈ effectiveServerType overrideField upstreamSanitized, CanonicalServerType name) ↔
      (∃ o ∈ overrideField, ∃ name, sanitizeServerName o = .ok name) ∨
        ∀ name ∈ upstreamSanitized, ¬ DashedSuffix name) := by
  refine ⟨fun raw name => sanitize_idempotent, ?_⟩
  by_cases husable : ∃ o ∈ overrideField, ∃ name, sanitizeServerName o = .ok name
  · obtain ⟨o, rfl, name, hname⟩ := id husable
    refine iff_of_true (fun name' hname' => ?_) (.inl husable)
    rw [effectiveServerType, Option.map_some, hname] at hname'
    cases hname'
    exact canonicalServerType_iff.2 (canonical_of_sanitize hname)
  · have heffective : effectiveServerType overrideField upstreamSanitized =
        upstreamSanitized.map stripMcpServerSuffix := by
      unfold effectiveServerType
      split
      next sanitized hsanitized =>
        obtain ⟨o, ho, hok⟩ := Option.map_eq_some_iff.1 hsanitized
        exact absurd ⟨o, ho, sanitized, hok⟩ husable
      next => rfl
    rw [heffective, or_iff_right husable, Option.forall_mem_map]
    refine forall₂_congr fun name hname => ?_
    obtain ⟨raw, hraw⟩ := hupstream name hname
    exact canonical_strip_iff (canonical_of_sanitize hraw)

/-- `linear-mcp-server` is cut to `linear`. -/
theorem effective_canonical_linear :
    sanitizeServerName "Linear MCP Server" = .ok "linear-mcp-server" ∧
    ∀ name ∈ effectiveServerType none (some "linear-mcp-server"), CanonicalServerType name := by
  have hraw : sanitizeServerName "Linear MCP Server" = .ok "linear-mcp-server" := by decide
  refine ⟨hraw, (effective_canonical_iff none (some "linear-mcp-server") ?_).2.2 (.inr ?_)⟩
  · intro name hname
    cases hname
    exact ⟨_, hraw⟩
  · intro name hname
    cases hname
    unfold DashedSuffix
    decide

/-- `a-_mcp` is a sanitized name, and cut to `a-`. -/
theorem effective_ends_in_dash :
    sanitizeServerName "a-_mcp" = .ok "a-_mcp" ∧ effectiveServerType none (some "a-_mcp") = some "a-" ∧
      ¬ CanonicalServerType "a-" := by
  refine ⟨by decide, by decide, fun h => h.last (by decide)⟩

end EndaraRelay
