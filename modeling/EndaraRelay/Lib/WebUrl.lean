import EndaraRelay.Lib.UrlText
import EndaraRelay.Lib.WebHost

/-!
# Web URLs

The URL parser for the special schemes: a cleaned text is cut at its fragment and its query (`UrlText`), the rest
is a scheme, an authority between slashes of either kind, and a path. In the path the segments `.` and `..` are
taken out, also where their dots are escaped.

* `parse_https`: an `https` URL of an authority without separators and a path.
* `readPath_two`: a path of two segments keeps both, unless the first is a dot segment.
* `encoded_dots`: percent-encoding neither makes nor unmakes a dot segment.
-/

namespace Verif.WebUrl

open Percent FormUrlencoded UrlText WebHost

structure ParsedUrl where
  scheme : List Char
  username : List Char
  password : List Char
  host : Host
  /-- `none` is the port of the scheme. -/
  port : Option Nat
  path : List (List Char)
  query : Option (List Char)
  fragment : Option (List Char)
deriving DecidableEq

/-! ## Percent-encode sets -/

/-- The controls, and what is not ASCII. -/
def controlSet (b : UInt8) : Bool := b.toNat ≤ 0x1F || 0x7F ≤ b.toNat

def fragmentSet (b : UInt8) : Bool := controlSet b || [0x20, 0x22, 0x3C, 0x3E, 0x60].contains b

def querySet (b : UInt8) : Bool := controlSet b || [0x20, 0x22, 0x23, 0x3C, 0x3E].contains b

def specialQuerySet (b : UInt8) : Bool := querySet b || b = 0x27

def pathSet (b : UInt8) : Bool := querySet b || [0x3F, 0x5E, 0x60, 0x7B, 0x7D].contains b

def userinfoSet (b : UInt8) : Bool :=
  pathSet b || [0x2F, 0x3A, 0x3B, 0x3D, 0x40, 0x5B, 0x5C, 0x5D, 0x7C].contains b

def encoded (escape : UInt8 → Bool) (t : List Char) : List Char := t.flatMap (encodeChar escape)

/-! ## The path -/

/-- The spellings of a dot segment. -/
def singleDots : List (List Char) := [".", "%2e", "%2E"].map String.toList

def doubleDots : List (List Char) :=
  ["..", ".%2e", ".%2E", "%2e.", "%2E.", "%2e%2e", "%2e%2E", "%2E%2e", "%2E%2E"].map String.toList

def isSingleDot (segment : List Char) : Bool := singleDots.contains segment

def isDoubleDot (segment : List Char) : Bool := doubleDots.contains segment

/-- A dot segment at the end leaves an empty one. -/
def emptyIfLast (rest : List (List Char)) : List (List Char) := if rest = [] then [[]] else []

/-- Put segments behind those that are there. -/
def readSegments (path : List (List Char)) : List (List Char) → List (List Char)
  | [] => path
  | segment :: rest =>
    let text := encoded pathSet segment
    if isDoubleDot text then readSegments (path.dropLast ++ emptyIfLast rest) rest
    else if isSingleDot text then readSegments (path ++ emptyIfLast rest) rest
    else readSegments (path ++ [text]) rest

def isSlash (c : Char) : Bool := c = '/' || c = '\\'

/-- The path of a text that is empty or begins with a slash. -/
def readPath (t : List Char) : List (List Char) := readSegments [] ((t.drop 1).splitOnP isSlash)

/-! ## The authority -/

/-- The host and the text of the port, cut at a colon that no bracket is open before. -/
def splitPort : Bool → List Char → List Char × Option (List Char)
  | _, [] => ([], none)
  | inside, c :: rest =>
    if c = ':' ∧ inside = false then ([], some rest)
    else
      let cut := splitPort (c = '[' || (inside && c ≠ ']')) rest
      (c :: cut.1, cut.2)

/-- The special schemes but `file`, with their ports. -/
def specialSchemes : List (String × Nat) := [("ftp", 21), ("http", 80), ("https", 443), ("ws", 80), ("wss", 443)]

/-- `none` is a port that cannot be read. -/
def readPort (standard : Nat) : Option (List Char) → Option (Option Nat)
  | none => some none
  | some digits =>
    let port := digits.foldl (fun n c => n * 10 + (c.toNat - 0x30)) 0
    if digits = [] then some none
    else if digits.all Char.isDigit ∧ port ≤ 0xFFFF then some (if port = standard then none else some port)
    else none

/-! ## The parser -/

/-- The part of a text behind a character. -/
def behind (d : Char) (t : List Char) : Option (List Char) :=
  if d ∈ t then some ((t.dropWhile (· ≠ d)).drop 1) else none

/-- The URL parser without a base, for the special schemes but `file`. -/
def parse (rules : HostRules) (input : List Char) : Option ParsedUrl := do
  let text := clean input
  let scheme := ((head text).takeWhile (· ≠ ':')).map Char.toLower
  let (_, standard) ← specialSchemes.find? fun s => s.1.toList = scheme
  let rest ← behind ':' (head text)
  let location := rest.dropWhile isSlash
  let authority := location.takeWhile fun c => !isSlash c
  let userinfo := (authority.rdropWhile (· ≠ '@')).dropLast
  let (hostText, portText) := splitPort false (authority.rtakeWhile (· ≠ '@'))
  if hostText = [] then none
  else
    let host ← parseHost rules hostText
    let port ← readPort standard portText
    some {
      scheme := scheme
      username := encoded userinfoSet (userinfo.takeWhile (· ≠ ':'))
      password := encoded userinfoSet ((userinfo.dropWhile (· ≠ ':')).drop 1)
      host := host
      port := port
      path := readPath (location.dropWhile fun c => !isSlash c)
      query := (behind '?' (front text)).map (encoded specialQuerySet)
      fragment := (behind '#' text).map (encoded fragmentSet) }

/-! ## Dot segments -/

/-- A character stays as it is, or it becomes triplets. -/
theorem encodeChar_cases {escape : UInt8 → Bool} (hascii : ∀ b : UInt8, 128 ≤ b.toNat → escape b = true)
    (c : Char) :
    encodeChar escape c = [c] ∨ ∃ b bs, escape b = true ∧ encodeChar escape c = triplet b ++ bs := by
  cases hkeeps : keeps escape c with
  | true => exact .inl (encodeChar_of_keeps hkeeps)
  | false =>
    refine .inr ?_
    cases hbytes : String.utf8EncodeChar c with
    | nil =>
      have hsize := c.utf8Size_pos
      rw [← String.length_utf8EncodeChar, hbytes] at hsize
      exact absurd hsize (Nat.lt_irrefl 0)
    | cons b bs =>
      have hb : b ∈ String.utf8EncodeChar c := by
        rw [hbytes]
        exact List.mem_cons_self
      refine ⟨b, bs.flatMap triplet, escape_of_not_keeps hascii hkeeps hb, ?_⟩
      rw [encodeChar_of_not_keeps hascii hkeeps, hbytes, List.flatMap_cons]

theorem pathSet_of_not_ascii (b : UInt8) (h : 128 ≤ b.toNat) : pathSet b = true := by
  have hcontrol : controlSet b = true := by
    unfold controlSet
    rw [Bool.or_eq_true, decide_eq_true_eq, decide_eq_true_eq]
    exact .inr (by omega)
  unfold pathSet querySet
  rw [hcontrol]
  rfl

/-- Every escape in the text is one of a dot. -/
def dotsOnly : List Char → Bool
  | [] => true
  | c :: rest => (c ≠ '%' || [['2', 'e'], ['2', 'E']].contains (rest.take 2)) && dotsOnly rest

theorem eq_dot_of_triplet {b : UInt8} (h : [['2', 'e'], ['2', 'E']].contains ((triplet b).drop 1) = true) :
    b = 0x2E := by
  have hhigh : ∀ n < 16, Char.ofNat (hexDigit n).toNat = '2' → n = 2 := by decide
  have hlow : ∀ n < 16, Char.ofNat (hexDigit n).toNat = 'e' ∨ Char.ofNat (hexDigit n).toNat = 'E' → n = 14 := by
    decide
  have hlt : b.toNat < 256 := UInt8.toNat_lt b
  simp only [triplet, List.drop_succ_cons, List.drop_zero, List.contains_iff_mem, List.mem_cons, List.cons.injEq,
    and_true, List.not_mem_nil, or_false] at h
  have hfirst : b.toNat / 16 = 2 := hhigh _ (by omega) (h.elim And.left And.left)
  have hsecond : b.toNat % 16 = 14 := hlow _ (by omega) (h.imp And.right And.right)
  have hnat : b.toNat = 0x2E := by omega
  rw [← UInt8.ofNat_toNat (x := b), hnat]
  rfl

/-- Encoding does not make the escape of a dot. -/
theorem eq_of_encoded {s t : List Char} (hdots : dotsOnly t = true) (h : encoded pathSet s = t) : s = t := by
  induction s generalizing t with
  | nil => exact h
  | cons c s ih =>
    unfold encoded at h
    rw [List.flatMap_cons] at h
    rcases encodeChar_cases pathSet_of_not_ascii c with hchar | ⟨b, bs, hb, hchar⟩
    · rw [hchar, List.singleton_append] at h
      subst h
      rw [dotsOnly, Bool.and_eq_true] at hdots
      exact congrArg (c :: ·) (ih hdots.2 rfl)
    · rw [hchar] at h
      subst h
      have hdot : b = 0x2E := by
        refine eq_dot_of_triplet ?_
        rw [triplet, List.cons_append, List.cons_append, dotsOnly, Bool.and_eq_true, Bool.or_eq_true] at hdots
        exact hdots.1.resolve_left (by decide)
      rw [hdot] at hb
      exact absurd hb (by decide)

theorem encoded_mem_iff {texts : List (List Char)} (h : ∀ t ∈ texts, dotsOnly t = true ∧ encoded pathSet t = t)
    (s : List Char) : encoded pathSet s ∈ texts ↔ s ∈ texts := by
  constructor
  · intro hmem
    have heq := eq_of_encoded (h _ hmem).1 rfl
    rwa [← heq] at hmem
  · intro hmem
    rw [(h s hmem).2]
    exact hmem

/-- Percent-encoding neither makes nor unmakes a dot segment. -/
theorem encoded_dots (s : List Char) :
    isSingleDot (encoded pathSet s) = isSingleDot s ∧ isDoubleDot (encoded pathSet s) = isDoubleDot s := by
  have hsingle : ∀ t ∈ singleDots, dotsOnly t = true ∧ encoded pathSet t = t := by decide
  have hdouble : ∀ t ∈ doubleDots, dotsOnly t = true ∧ encoded pathSet t = t := by decide
  unfold isSingleDot isDoubleDot
  refine ⟨Bool.eq_iff_iff.mpr ?_, Bool.eq_iff_iff.mpr ?_⟩
  · rw [List.contains_iff_mem, List.contains_iff_mem]
    exact encoded_mem_iff hsingle s
  · rw [List.contains_iff_mem, List.contains_iff_mem]
    exact encoded_mem_iff hdouble s

/-! ## Texts without separators -/

/-- The characters at which an authority or a path is cut. -/
def separators : List Char := ['/', ':', '?', '#', '@', '\\']

/-- A host without a port, or a segment. -/
structure Bare (a : List Char) : Prop where
  ne_nil : a ≠ []
  noSeparator : ∀ c ∈ a, c ∉ separators

instance (a : List Char) : Decidable (Bare a) :=
  haveI : Decidable (∀ c ∈ a, c ∉ separators) := List.decidableBAll _ a
  decidable_of_iff (a ≠ [] ∧ ∀ c ∈ a, c ∉ separators) ⟨fun h => ⟨h.1, h.2⟩, fun h => ⟨h.1, h.2⟩⟩

namespace Bare

variable {a : List Char} (ha : Bare a)

include ha

theorem not_mem {d : Char} (hd : d ∈ separators) : d ∉ a := fun h => ha.noSeparator d h hd

theorem isSlash_eq {c : Char} (hc : c ∈ a) : isSlash c = false := by
  unfold isSlash
  rw [Bool.or_eq_false_iff, decide_eq_false_iff_not, decide_eq_false_iff_not]
  exact ⟨fun h => ha.not_mem (by decide) (h ▸ hc), fun h => ha.not_mem (by decide) (h ▸ hc)⟩

theorem location_eq (p : List Char) : ("//".toList ++ (a ++ p)).dropWhile isSlash = a ++ p := by
  cases a with
  | nil => exact absurd rfl ha.ne_nil
  | cons c a =>
    have hc : ¬ isSlash c = true := Bool.eq_false_iff.mp (ha.isSlash_eq List.mem_cons_self)
    change (c :: (a ++ p)).dropWhile isSlash = _
    exact List.dropWhile_cons_of_neg hc

theorem cut_path {p : List Char} (hp : p = [] ∨ ∃ q, p = '/' :: q) :
    (a ++ p).takeWhile (fun c => !isSlash c) = a ∧ (a ++ p).dropWhile (fun c => !isSlash c) = p := by
  have hall : ∀ c ∈ a, (!isSlash c) = true := by
    intro c hc
    rw [ha.isSlash_eq hc]
    rfl
  rw [List.takeWhile_append_of_pos hall, List.dropWhile_append_of_pos hall]
  rcases hp with rfl | ⟨q, rfl⟩
  · exact ⟨List.append_nil a, rfl⟩
  · exact ⟨List.append_nil a, rfl⟩

/-- There is no userinfo in it. -/
theorem cut_userinfo : a.rtakeWhile (· ≠ '@') = a ∧ a.rdropWhile (· ≠ '@') = [] := by
  have hall : ∀ c ∈ a, decide (c ≠ '@') = true :=
    fun c hc => decide_eq_true fun h => ha.not_mem (by decide) (h ▸ hc)
  exact ⟨List.rtakeWhile_eq_self_iff.mpr hall, List.rdropWhile_eq_nil_iff.mpr hall⟩

end Bare

/-! ## Reading a path -/

def isDotSegment (s : List Char) : Bool := isSingleDot s || isDoubleDot s

/-- A last segment that stands for itself. -/
structure Fixed (segment : List Char) : Prop where
  bare : Bare segment
  noDots : isDotSegment segment = false
  encoded_eq : encoded pathSet segment = segment

theorem readSegments_last {path : List (List Char)} {last : List Char} (h : Fixed last) :
    readSegments path [last] = path ++ [last] := by
  have hdots := h.noDots
  rw [isDotSegment, Bool.or_eq_false_iff] at hdots
  unfold readSegments
  dsimp only
  rw [h.encoded_eq, hdots.1, hdots.2]
  rfl

/-- **Two segments are kept**, unless the first is a dot segment. -/
theorem readPath_two {s last : List Char} (hs : Bare s) (hlast : Fixed last) :
    readPath ('/' :: (s ++ '/' :: last)) = if isDotSegment s then [last] else [encoded pathSet s, last] := by
  have hsplit : (s ++ '/' :: last).splitOnP isSlash = [s, last] := by
    rw [List.splitOnP_append_cons s last (by decide), List.splitOnP_eq_singleton fun c hc => hs.isSlash_eq hc,
      List.splitOnP_eq_singleton fun c hc => hlast.bare.isSlash_eq hc]
    rfl
  unfold readPath
  rw [List.drop_one, List.tail_cons, hsplit]
  unfold readSegments
  dsimp only
  rw [(encoded_dots s).1, (encoded_dots s).2, isDotSegment]
  cases isDoubleDot s with
  | true =>
    rw [Bool.or_true]
    exact readSegments_last hlast
  | false =>
    cases isSingleDot s with
    | true => exact readSegments_last hlast
    | false => exact readSegments_last hlast

/-! ## An authority and a path -/

theorem Bare.append {a b : List Char} (ha : Bare a) (hb : Bare b) : Bare (a ++ '.' :: b) := by
  refine ⟨List.append_ne_nil_of_right_ne_nil a (List.cons_ne_nil _ b), fun c hc => ?_⟩
  rcases List.mem_append.mp hc with hc | hc
  · exact ha.noSeparator c hc
  · rcases List.mem_cons.mp hc with rfl | hc
    · decide
    · exact hb.noSeparator c hc

theorem bare_of_plainDomain {d : List Char} (h : PlainDomain d) : Bare d := by
  refine ⟨h.ne_nil, fun c hc hseparator => ?_⟩
  have hnot : lower c = false ∧ c ≠ '.' := by
    simp only [separators, List.mem_cons, List.not_mem_nil, or_false] at hseparator
    rcases hseparator with rfl | rfl | rfl | rfl | rfl | rfl <;> decide
  rcases h.lower_or_dot c hc with hlower | hdot
  · rw [hnot.1] at hlower
    cases hlower
  · exact hnot.2 hdot

theorem splitPort_of_not_mem {a : List Char} (h : ':' ∉ a) (inside : Bool) : splitPort inside a = (a, none) := by
  induction a generalizing inside with
  | nil => rfl
  | cons c a ih =>
    rw [List.mem_cons, not_or] at h
    unfold splitPort
    rw [if_neg fun hc => h.1 hc.1.symm]
    dsimp only
    rw [ih h.2]

/-- **A clean `https` URL** of a bare authority and a path. -/
theorem parse_https {rules : HostRules} {input a p : List Char} (ha : Bare a)
    (hp : p = [] ∨ ∃ q, p = '/' :: q) (hpath : ∀ c ∈ p, c ≠ '?' ∧ c ≠ '#')
    (hclean : clean input = "https://".toList ++ (a ++ p)) :
    parse rules input = (parseHost rules a).map fun host =>
      { scheme := "https".toList, username := [], password := [], host := host, port := none, path := readPath p,
        query := none, fragment := none } := by
  have hquestion : '?' ∉ "https://".toList ++ (a ++ p) := by
    rw [List.mem_append, List.mem_append, not_or, not_or]
    exact ⟨by decide, ha.not_mem (by decide), fun h => (hpath _ h).1 rfl⟩
  have hhash : '#' ∉ "https://".toList ++ (a ++ p) := by
    rw [List.mem_append, List.mem_append, not_or, not_or]
    exact ⟨by decide, ha.not_mem (by decide), fun h => (hpath _ h).2 rfl⟩
  have hfront : front ("https://".toList ++ (a ++ p)) = "https://".toList ++ (a ++ p) := takeWhile_of_not_mem hhash
  have hnoQuery : behind '?' ("https://".toList ++ (a ++ p)) = none := if_neg hquestion
  have hnoFragment : behind '#' ("https://".toList ++ (a ++ p)) = none := if_neg hhash
  have htext : "https://".toList ++ (a ++ p) = "https".toList ++ ':' :: ("//".toList ++ (a ++ p)) := rfl
  have hscheme : ("https://".toList ++ (a ++ p)).takeWhile (· ≠ ':') = "https".toList := rfl
  have hrest : behind ':' ("https://".toList ++ (a ++ p)) = some ("//".toList ++ (a ++ p)) := by
    rw [htext]
    exact if_pos (List.mem_append_right _ List.mem_cons_self)
  have hfind : (specialSchemes.find? fun s => s.1.toList = "https".toList.map Char.toLower) =
      some ("https", 443) := by decide
  unfold parse
  dsimp only
  rw [hclean, (cut_plain hhash hquestion).1, hscheme, hrest, hfront, hnoQuery, hnoFragment, hfind]
  dsimp only [Option.bind_eq_bind, Option.bind_some]
  rw [ha.location_eq, (ha.cut_path hp).1, (ha.cut_path hp).2, ha.cut_userinfo.1, ha.cut_userinfo.2,
    splitPort_of_not_mem (ha.not_mem (by decide))]
  dsimp only
  rw [if_neg ha.ne_nil]
  cases parseHost rules a with
  | none => rfl
  | some host => rfl

end Verif.WebUrl
