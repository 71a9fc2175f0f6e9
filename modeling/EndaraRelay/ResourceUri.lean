import EndaraRelay.Lib.Percent

/-!
# Resource URIs

The wrapper `mcp-relay://{endpoint}/{percent-encoded original}` of `resource_uri.rs`, by which a
URI of an upstream carries the endpoint it came from.

- `encodeResourceUri`, `decodeResourceUri`, and the `maybe` forms that pass a URI through
  unchanged when a single endpoint is active.
- `wrapping_invertible`: wrapping is inverted by decoding, any number of times.
- `decode_encode_iff`: decoding gives back the endpoint and the original exactly when the endpoint
  name is non-empty and has no `/`. The original may be any string.

The decoder cuts the body at its first `/`, so the endpoint half of the statement is about lists of
characters (`splitAtSlash`), and the payload half is the round trip of percent-encoding.
-/

namespace EndaraRelay

open Verif

/-- Wrapper scheme used to namespace resource URIs across endpoints. -/
def wrapperPrefix : String := "mcp-relay://"

/-- Every byte but the ASCII letters and digits, `-`, `.`, `_` and `~`. -/
def encodeSet (b : UInt8) : Bool :=
  let n := b.toNat
  !((0x41 ≤ n ∧ n ≤ 0x5A) ∨ (0x61 ≤ n ∧ n ≤ 0x7A) ∨ (0x30 ≤ n ∧ n ≤ 0x39) ∨
    n = 0x2D ∨ n = 0x2E ∨ n = 0x5F ∨ n = 0x7E)

/-- Like `encodeSet`, with the braces of a URI template left as they are. -/
def encodeSetTemplate (b : UInt8) : Bool := encodeSet b && b ≠ 0x7B && b ≠ 0x7D

theorem encodeSet_percentSign : encodeSet Percent.percentSign = true := by decide

theorem encodeSet_of_not_ascii (b : UInt8) (hb : 128 ≤ b.toNat) : encodeSet b = true := by
  simp only [encodeSet, Bool.not_eq_true', decide_eq_false_iff_not]
  omega

/-- Error type for resource-URI unwrapping. -/
inductive ResourceUriError where
  | invalidFormat (msg : String)
deriving DecidableEq, Repr

/-- The message a `ResourceUriError` is shown as. -/
def ResourceUriError.display : ResourceUriError → String
  | .invalidFormat msg => "invalid wrapped resource URI: " ++ msg

def encodeResourceUri (endpoint original : String) : String :=
  wrapperPrefix ++ endpoint ++ "/" ++ Percent.encodeString encodeSet original

/-- The template form: braces stay literal. -/
def encodeResourceUriTemplate (endpoint original : String) : String :=
  wrapperPrefix ++ endpoint ++ "/" ++ Percent.encodeString encodeSetTemplate original

/-- `strip_prefix`, on the characters of the two strings. -/
def stripPrefix : List Char → List Char → Option (List Char)
  | [], s => some s
  | _ :: _, [] => none
  | p :: ps, c :: s => if p = c then stripPrefix ps s else none

/-- The characters before the first `/` and those after it, when there is one. -/
def splitAtSlash : List Char → Option (List Char × List Char)
  | [] => none
  | c :: s => if c = '/' then some ([], s) else (splitAtSlash s).map fun p => (c :: p.1, p.2)

/-- Decode a wrapped URI into its endpoint and the original URI. -/
def decodeResourceUri (wrapped : String) : Except ResourceUriError (String × String) :=
  match stripPrefix wrapperPrefix.toList wrapped.toList with
  | none => .error (.invalidFormat
      ("missing '" ++ wrapperPrefix ++ "' scheme prefix in '" ++ wrapped ++ "'"))
  | some body =>
    match splitAtSlash body with
    | none => .error (.invalidFormat
        ("missing '/' separator after endpoint in '" ++ wrapped ++ "'"))
    | some (endpoint, encodedOriginal) =>
      if endpoint = [] then
        .error (.invalidFormat ("empty endpoint segment in '" ++ wrapped ++ "'"))
      else
        match Percent.decodeString (String.ofList encodedOriginal) with
        | none => .error (.invalidFormat ("invalid percent-encoding in '" ++ wrapped ++ "'"))
        | some original => .ok (String.ofList endpoint, original)

/-- Wrap, unless a single endpoint is active. -/
def maybeEncodeResourceUri (endpoint original : String) (skipWrap : Bool) : String :=
  if skipWrap then original else encodeResourceUri endpoint original

def maybeEncodeResourceUriTemplate (endpoint original : String) (skipWrap : Bool) : String :=
  if skipWrap then original else encodeResourceUriTemplate endpoint original

/-- Unwrap, unless a single endpoint is active: then the URI is its own original and names no
endpoint. -/
def maybeDecodeResourceUri (wrapped : String) (skipWrap : Bool) :
    Except ResourceUriError (Option String × String) :=
  if skipWrap then .ok (none, wrapped)
  else (decodeResourceUri wrapped).map fun p => (some p.1, p.2)

/-! ## The round trip -/

theorem stripPrefix_append (p s : List Char) : stripPrefix p (p ++ s) = some s := by
  induction p with
  | nil => rfl
  | cons c p ih => simp [stripPrefix, ih]

/-- What stands before the first `/` has no `/`. -/
theorem slash_notMem_of_splitAtSlash {s a b : List Char} (h : splitAtSlash s = some (a, b)) :
    '/' ∉ a := by
  induction s generalizing a with
  | nil => simp [splitAtSlash] at h
  | cons c s ih =>
    by_cases hc : c = '/'
    · obtain ⟨rfl, rfl⟩ : [] = a ∧ s = b := by simpa [splitAtSlash, hc] using h
      exact List.not_mem_nil
    · simp only [splitAtSlash, hc, if_false, Option.map_eq_some_iff, Prod.exists,
        Prod.mk.injEq] at h
      obtain ⟨a', b', hs, rfl, rfl⟩ := h
      have hne : ¬ '/' = c := fun h' => hc h'.symm
      simp [hne, ih hs]

theorem splitAtSlash_append {a : List Char} (ha : '/' ∉ a) (b : List Char) :
    splitAtSlash (a ++ '/' :: b) = some (a, b) := by
  induction a with
  | nil => simp [splitAtSlash]
  | cons c a ih =>
    obtain ⟨hc, ha⟩ : ¬ '/' = c ∧ '/' ∉ a := by simpa using ha
    have hc' : ¬ c = '/' := fun h => hc h.symm
    simp [splitAtSlash, hc', ih ha]

theorem encodeResourceUri_toList (endpoint original : String) :
    (encodeResourceUri endpoint original).toList =
      wrapperPrefix.toList ++
        (endpoint.toList ++ '/' :: (Percent.encodeString encodeSet original).toList) := by
  simp [encodeResourceUri]

theorem decodeString_encodeSet (original : String) :
    Percent.decodeString (Percent.encodeString encodeSet original) = some original :=
  Percent.decodeString_encodeString encodeSet_percentSign encodeSet_of_not_ascii original

theorem append_of_stripPrefix {p s body : List Char} (h : stripPrefix p s = some body) :
    s = p ++ body := by
  induction p generalizing s with
  | nil => 
    cases h
    rfl
  | cons c p ih =>
    cases s with
    | nil => cases h
    | cons d s =>
      rw [stripPrefix] at h
      split at h
      · next hc => rw [hc, List.cons_append, ← ih h]
      · cases h

theorem append_of_splitAtSlash {s a b : List Char} (h : splitAtSlash s = some (a, b)) :
    s = a ++ '/' :: b := by
  induction s generalizing a with
  | nil => cases h
  | cons c s ih =>
    rw [splitAtSlash] at h
    split at h
    · next hc =>
      cases h
      rw [hc, List.nil_append]
    · obtain ⟨⟨a', b'⟩, hs, heq⟩ := Option.map_eq_some_iff.1 h
      cases heq
      rw [List.cons_append, ← ih hs]

/-- **What the decoder accepts**: a wrapper with a non-empty endpoint name without `/`, and text that
percent-decoding accepts. -/
theorem decodeResourceUri_eq_ok {wrapped endpoint original : String}
    (h : decodeResourceUri wrapped = .ok (endpoint, original)) :
    endpoint ≠ "" ∧ '/' ∉ endpoint.toList ∧
      ∃ encoded, wrapped.toList = wrapperPrefix.toList ++ (endpoint.toList ++ '/' :: encoded) ∧
        Percent.decodeString (String.ofList encoded) = some original := by
  unfold decodeResourceUri at h
  split at h
  · cases h
  · next body hbody =>
    split at h
    · cases h
    · next name encoded hs =>
      split at h
      · cases h
      · next hne =>
        split at h
        · cases h
        · next hdecode =>
          cases h
          refine ⟨fun h' => hne ?_, ?_, encoded, ?_, hdecode⟩
          · simpa using congrArg String.toList h'
          · simpa using slash_notMem_of_splitAtSlash hs
          · rw [append_of_stripPrefix hbody, append_of_splitAtSlash hs, String.toList_ofList]

/-- An endpoint name the decoder reads back is non-empty and has no `/`. -/
theorem decodeResourceUri_endpoint {wrapped endpoint original : String}
    (h : decodeResourceUri wrapped = .ok (endpoint, original)) :
    endpoint ≠ "" ∧ '/' ∉ endpoint.toList := by
  obtain ⟨hne, hslash, -⟩ := decodeResourceUri_eq_ok h
  exact ⟨hne, hslash⟩

/-- What follows a well-formed wrapper is percent-decoded. -/
theorem decodeResourceUri_wrapped {endpoint : List Char} (hne : endpoint ≠ []) (hslash : '/' ∉ endpoint)
    {s t : List Char} (h : Percent.decodeString (String.ofList s) = some (String.ofList t)) :
    decodeResourceUri (String.ofList (wrapperPrefix.toList ++ (endpoint ++ '/' :: s))) =
      .ok (String.ofList endpoint, String.ofList t) := by
  simp only [decodeResourceUri, String.toList_ofList, stripPrefix_append,
    splitAtSlash_append hslash, hne, if_false, h]

/-- **Wrapping reverses** exactly for a non-empty endpoint name without `/`. -/
theorem decode_encode_iff (endpoint original : String) :
    decodeResourceUri (encodeResourceUri endpoint original) = .ok (endpoint, original) ↔
      endpoint ≠ "" ∧ '/' ∉ endpoint.toList := by
  refine ⟨decodeResourceUri_endpoint, fun ⟨hne, hslash⟩ => ?_⟩
  have hne' : endpoint.toList ≠ [] := fun h => hne (by simpa using h)
  have hdecode := decodeResourceUri_wrapped hne' hslash (t := original.toList)
    ((congrArg _ String.ofList_toList).trans
      ((decodeString_encodeSet original).trans (congrArg _ String.ofList_toList.symm)))
  rwa [← encodeResourceUri_toList, String.ofList_toList, String.ofList_toList,
    String.ofList_toList] at hdecode

/-! ## Nested wrappers -/

/-- An endpoint name that the decoder can tell from what follows it. -/
def WrappableName (name : String) : Prop := name ≠ "" ∧ '/' ∉ name.toList

/-- Wrapped by one endpoint after the other; the first name is the outermost. -/
def wrapTimes (names : List String) (original : String) : String :=
  names.foldr encodeResourceUri original

/-- Unwrapped so many times, with the names found on the way. -/
def unwrapTimes : Nat → String → Except ResourceUriError (List String × String)
  | 0, uri => .ok ([], uri)
  | n + 1, uri =>
    match decodeResourceUri uri with
    | .error e => .error e
    | .ok (name, inner) => (unwrapTimes n inner).map fun p => (name :: p.1, p.2)

theorem decode_encode {name : String} (h : WrappableName name) (original : String) :
    decodeResourceUri (encodeResourceUri name original) = .ok (name, original) :=
  (decode_encode_iff name original).2 h

theorem unwrapTimes_wrapTimes {names : List String} (h : ∀ name ∈ names, WrappableName name)
    (original : String) : unwrapTimes names.length (wrapTimes names original) = .ok (names, original) := by
  induction names with
  | nil => rfl
  | cons name names ih =>
    obtain ⟨hname, hnames⟩ := List.forall_mem_cons.1 h
    have hdecode : decodeResourceUri (wrapTimes (name :: names) original) = .ok (name, wrapTimes names original) :=
      decode_encode hname _
    rw [List.length_cons, unwrapTimes, hdecode]
    simp only [ih hnames]
    rfl

theorem encode_injective {name name' s s' : String} (h : WrappableName name) (h' : WrappableName name')
    (heq : encodeResourceUri name s = encodeResourceUri name' s') : name = name' ∧ s = s' := by
  have hdecode := decode_encode h s
  rw [heq, decode_encode h'] at hdecode
  cases hdecode
  exact ⟨rfl, rfl⟩

/-- **Wrapping is invertible**: decoding gives back name and original, also through wrappers in wrappers,
and no two pairs are wrapped alike. -/
theorem wrapping_invertible :
    (∀ name original, WrappableName name →
      decodeResourceUri (encodeResourceUri name original) = .ok (name, original)) ∧
    (∀ names original, (∀ name ∈ names, WrappableName name) →
      unwrapTimes names.length (wrapTimes names original) = .ok (names, original)) ∧
    ∀ name name' s s', WrappableName name → WrappableName name' →
      encodeResourceUri name s = encodeResourceUri name' s' → name = name' ∧ s = s' :=
  ⟨fun _ original h => decode_encode h original, fun _ original h => unwrapTimes_wrapTimes h original,
    fun _ _ _ _ => encode_injective⟩

theorem twice_wrapped :
    unwrapTimes 2 (wrapTimes ["team a", "files"] "ui://app/100%?x") = .ok (["team a", "files"], "ui://app/100%?x") :=
  wrapping_invertible.2.1 ["team a", "files"] "ui://app/100%?x"
    (List.forall_mem_cons.2 ⟨⟨by decide, by decide⟩, List.forall_mem_singleton.2 ⟨by decide, by decide⟩⟩)

/-! ## Lengths -/

section Lengths

open Percent

theorem wrapperPrefix_length_pos : 0 < (utf8Bytes wrapperPrefix).length := by decide

/-- A wrapped URI is longer than its original. -/
theorem encodeResourceUri_ne (endpoint original : String) :
    encodeResourceUri endpoint original ≠ original := by
  intro h
  have hlen := congrArg (fun s => (utf8Bytes s).length) h
  have hlonger := length_le_encodeString encodeSet_of_not_ascii original
  have hprefix := wrapperPrefix_length_pos
  simp only [encodeResourceUri, utf8Bytes_append, List.length_append] at hlen
  omega

/-- What is decoded is shorter than what it is decoded from. -/
theorem decodeResourceUri_ne {uri endpoint original : String}
    (h : decodeResourceUri uri = .ok (endpoint, original)) : original ≠ uri := by
  obtain ⟨-, -, encoded, huri, hdecode⟩ := decodeResourceUri_eq_ok h
  have huri : uri = wrapperPrefix ++ endpoint ++ "/" ++ String.ofList encoded := by
    rw [← String.toList_inj, huri]
    simp
  intro heq
  have hlen := congrArg (fun s => (utf8Bytes s).length) huri
  have hshorter := length_decodeString_le hdecode
  have hprefix := wrapperPrefix_length_pos
  simp only [utf8Bytes_append, List.length_append] at hlen
  rw [heq] at hshorter
  omega

end Lengths

end EndaraRelay
