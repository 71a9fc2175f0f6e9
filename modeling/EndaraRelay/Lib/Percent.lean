import Mathlib.Data.List.Basic
import Mathlib.Data.Option.Basic

/-!
# Percent-encoding of strings

Percent-encoding writes a byte either as itself or as `%XX`. The encode set says which bytes are
escaped; decoding does not need to know it.

* `encode`, `decode` work on bytes. `decode_encode`: decoding reverses encoding whenever the set
  escapes the percent sign itself.
* `encodeString`, `decodeString` go through the UTF-8 form of a string. Decoding can fail, because
  the bytes it recovers need not be valid UTF-8. `decodeString_encodeString`: it does not fail on
  an encoding whose set escapes every non-ASCII byte.
* Decoding does not lengthen and encoding does not shorten (`length_decodeString_le`,
  `length_le_encodeString`).
* `encodeChar` is the encoding of one character; `toList_encodeString` puts the encoding of a string
  together from it.
* `ReadsAs` says what a text is decoded to wherever it stands; it composes.
-/

namespace Verif.Percent

/-- The byte of the percent sign. -/
def percentSign : UInt8 := 0x25

/-- The byte of a hexadecimal digit, in upper case. -/
def hexDigit (n : Nat) : UInt8 := UInt8.ofNat (if n < 10 then 0x30 + n else 0x37 + n)

/-- The value of a hexadecimal digit, in either case. -/
def hexValue (b : UInt8) : Option Nat :=
  let n := b.toNat
  if 0x30 ≤ n ∧ n ≤ 0x39 then some (n - 0x30)
  else if 0x41 ≤ n ∧ n ≤ 0x46 then some (n - 0x37)
  else if 0x61 ≤ n ∧ n ≤ 0x66 then some (n - 0x57)
  else none

theorem hexValue_hexDigit {n : Nat} (hn : n < 16) : hexValue (hexDigit n) = some n := by
  revert n
  decide

theorem hexDigit_lt_128 {n : Nat} (hn : n < 16) : (hexDigit n).toNat < 128 := by
  revert n
  decide

/-- One byte: itself, or `%XX` when the set escapes it. -/
def encodeByte (escape : UInt8 → Bool) (b : UInt8) : List UInt8 :=
  if escape b then [percentSign, hexDigit (b.toNat / 16), hexDigit (b.toNat % 16)] else [b]

def encode (escape : UInt8 → Bool) (bs : List UInt8) : List UInt8 :=
  bs.flatMap (encodeByte escape)

/-- Read `%XX` as the byte it stands for. A percent sign that two hexadecimal digits do not follow
stands for itself. -/
def decode : List UInt8 → List UInt8
  | [] => []
  | [b] => [b]
  | [b, c] => [b, c]
  | b :: h :: l :: rest =>
    if b = percentSign then
      match hexValue h, hexValue l with
      | some x, some y => UInt8.ofNat (x * 16 + y) :: decode rest
      | _, _ => b :: decode (h :: l :: rest)
    else b :: decode (h :: l :: rest)

variable {b : UInt8} {escape : UInt8 → Bool} {bs : List UInt8} {c : Char}

theorem decode_cons_of_ne (hb : b ≠ percentSign) (rest : List UInt8) :
    decode (b :: rest) = b :: decode rest := by
  match rest with
  | [] => rfl
  | [_] => rfl
  | _ :: _ :: _ => rw [decode, if_neg hb]

theorem decode_escape (b : UInt8) (rest : List UInt8) :
    decode (percentSign :: hexDigit (b.toNat / 16) :: hexDigit (b.toNat % 16) :: rest)
      = b :: decode rest := by
  have hb : b.toNat < 256 := UInt8.toNat_lt b
  have hsum : b.toNat / 16 * 16 + b.toNat % 16 = b.toNat := by omega
  rw [decode, if_pos rfl, hexValue_hexDigit (by omega), hexValue_hexDigit (by omega)]
  simp only [hsum, UInt8.ofNat_toNat]

theorem decode_encodeByte (hesc : escape percentSign = true) (b : UInt8) (rest : List UInt8) :
    decode (encodeByte escape b ++ rest) = b :: decode rest := by
  unfold encodeByte
  split
  · exact decode_escape b rest
  · next h =>
    refine decode_cons_of_ne ?_ rest
    rintro rfl
    exact h hesc

theorem decode_encode_append (hesc : escape percentSign = true) (bs rest : List UInt8) :
    decode (encode escape bs ++ rest) = bs ++ decode rest := by
  induction bs with
  | nil => rfl
  | cons b bs ih =>
    rw [encode, List.flatMap_cons, List.append_assoc, decode_encodeByte hesc, ← encode, ih,
      List.cons_append]

/-- **Round trip on bytes.** -/
theorem decode_encode (hesc : escape percentSign = true) (bs : List UInt8) :
    decode (encode escape bs) = bs := by
  have h := decode_encode_append hesc bs []
  rwa [List.append_nil, decode, List.append_nil] at h

theorem decode_cons_of_hexValue_none {c : UInt8} (hc : hexValue c = none) (b : UInt8) (rest : List UInt8) :
    decode (b :: c :: rest) = b :: decode (c :: rest) := by
  cases rest with
  | nil => rfl
  | cons d rest =>
    rw [decode]
    split_ifs with hb
    · rw [hc]
    · rfl

/-- No escape reaches over a byte that is no hexadecimal digit. -/
theorem decode_append_cons {c : UInt8} (hc : hexValue c = none) (bs rest : List UInt8) :
    decode (bs ++ c :: rest) = decode bs ++ decode (c :: rest) := by
  fun_induction decode bs with
  | case1 => rfl
  | case2 b => exact decode_cons_of_hexValue_none hc b rest
  | case3 b b' =>
    have hnext := decode_cons_of_hexValue_none hc b' rest
    change decode (b :: b' :: c :: rest) = [b, b'] ++ decode (c :: rest)
    rw [decode]
    split_ifs with hb
    · rw [hc]
      cases hexValue b' with
      | none => exact congrArg (b :: ·) hnext
      | some x => exact congrArg (b :: ·) hnext
    · exact congrArg (b :: ·) hnext
  | case4 h l tail x y hh hl ih =>
    rw [List.cons_append, List.cons_append, List.cons_append, decode, if_pos rfl, hh, hl]
    exact congrArg (_ :: ·) ih
  | case5 h l tail hnone ih =>
    rw [List.cons_append, List.cons_append, List.cons_append, decode, if_pos rfl]
    split
    · next x y hh hl => exact absurd hl (hnone x y hh)
    · exact congrArg (_ :: ·) ih
  | case6 b h l tail hb ih =>
    rw [List.cons_append, List.cons_append, List.cons_append, decode, if_neg hb]
    exact congrArg (b :: ·) ih

/-- An encoding whose set escapes every non-ASCII byte is ASCII. -/
theorem encode_ascii (hascii : ∀ b : UInt8, 128 ≤ b.toNat → escape b = true) (hb : b ∈ encode escape bs) :
    b.toNat < 128 := by
  obtain ⟨c, -, hc⟩ := List.mem_flatMap.1 hb
  have hlt : c.toNat < 256 := UInt8.toNat_lt c
  unfold encodeByte at hc
  split at hc
  · simp only [List.mem_cons, List.not_mem_nil, or_false] at hc
    obtain rfl | rfl | rfl := hc
    · decide
    · exact hexDigit_lt_128 (by omega)
    · exact hexDigit_lt_128 (by omega)
  · next h =>
    obtain rfl : b = c := by simpa using hc
    by_contra hge
    exact h (hascii b (by omega))

/-! ## Strings -/

/-- The UTF-8 form of a string. -/
def utf8Bytes (s : String) : List UInt8 := s.toByteArray.data.toList

/-- The string of a list of ASCII bytes. -/
def asciiString (bs : List UInt8) : String := String.ofList (bs.map fun b => Char.ofNat b.toNat)

theorem utf8Bytes_ofList_cons (c : Char) (l : List Char) :
    utf8Bytes (String.ofList (c :: l)) = String.utf8EncodeChar c ++ utf8Bytes (String.ofList l) := by
  simp [utf8Bytes, List.utf8Encode]

theorem utf8EncodeChar_ascii (hb : b.toNat < 128) :
    String.utf8EncodeChar (Char.ofNat b.toNat) = [b] := by
  have h : ∀ n : Nat, n < 128 → String.utf8EncodeChar (Char.ofNat n) = [UInt8.ofNat n] := by decide
  rw [h _ hb, UInt8.ofNat_toNat]

theorem utf8Bytes_asciiString (h : ∀ b ∈ bs, b.toNat < 128) : utf8Bytes (asciiString bs) = bs := by
  induction bs with
  | nil => rfl
  | cons b bs ih =>
    rw [asciiString, List.map_cons, utf8Bytes_ofList_cons,
      utf8EncodeChar_ascii (h b List.mem_cons_self), ← asciiString,
      ih fun c hc => h c (List.mem_cons_of_mem _ hc)]
    rfl

/-- Percent-encode the UTF-8 form of a string. -/
def encodeString (escape : UInt8 → Bool) (s : String) : String :=
  asciiString (encode escape (utf8Bytes s))

/-- Percent-decode a string; `none` when the bytes are not valid UTF-8. -/
def decodeString (s : String) : Option String :=
  String.fromUTF8? ⟨(decode (utf8Bytes s)).toArray⟩

theorem fromUTF8?_utf8Bytes (s : String) : String.fromUTF8? ⟨(utf8Bytes s).toArray⟩ = some s := by
  have h : (⟨(utf8Bytes s).toArray⟩ : ByteArray) = s.toByteArray := rfl
  rw [h, String.fromUTF8?, dif_pos s.isValidUTF8]
  rfl

/-- **Round trip on strings.** -/
theorem decodeString_encodeString (hesc : escape percentSign = true)
    (hascii : ∀ b : UInt8, 128 ≤ b.toNat → escape b = true) (s : String) :
    decodeString (encodeString escape s) = some s := by
  rw [decodeString, encodeString, utf8Bytes_asciiString fun b hb => encode_ascii hascii hb,
    decode_encode hesc, fromUTF8?_utf8Bytes]

/-! ## Lengths -/

theorem length_decode_le (bs : List UInt8) : (decode bs).length ≤ bs.length := by
  fun_induction decode bs with
  | case1 => exact Nat.le_refl _
  | case2 => exact Nat.le_refl _
  | case3 => exact Nat.le_refl _
  | case4 h l rest x y hh hl ih =>
    simp only [List.length_cons]
    omega
  | case5 h l rest _ ih =>
    simp only [List.length_cons] at ih ⊢
    omega
  | case6 b h l rest _ ih =>
    simp only [List.length_cons] at ih ⊢
    omega

theorem length_le_encode (escape : UInt8 → Bool) (bs : List UInt8) :
    bs.length ≤ (encode escape bs).length := by
  induction bs with
  | nil => exact Nat.le_refl _
  | cons b bs ih =>
    have hbyte : 1 ≤ (encodeByte escape b).length := by
      unfold encodeByte
      split
      · simp
      · exact Nat.le_refl _
    rw [encode, List.flatMap_cons, ← encode, List.length_append, List.length_cons]
    omega

theorem utf8Bytes_append (s t : String) : utf8Bytes (s ++ t) = utf8Bytes s ++ utf8Bytes t := by
  simp [utf8Bytes]

theorem length_decodeString_le {s t : String} (h : decodeString s = some t) :
    (utf8Bytes t).length ≤ (utf8Bytes s).length := by
  unfold decodeString String.fromUTF8? at h
  split at h
  · cases h
    exact length_decode_le _
  · cases h

theorem length_le_encodeString (hascii : ∀ b : UInt8, 128 ≤ b.toNat → escape b = true) (s : String) :
    (utf8Bytes s).length ≤ (utf8Bytes (encodeString escape s)).length := by
  rw [encodeString, utf8Bytes_asciiString fun b hb => encode_ascii hascii hb]
  exact length_le_encode escape _

/-! ## Characters -/

/-- An escaped byte. -/
def triplet (b : UInt8) : List Char :=
  ['%', Char.ofNat (hexDigit (b.toNat / 16)).toNat, Char.ofNat (hexDigit (b.toNat % 16)).toNat]

/-- What one character becomes. -/
def encodeChar (escape : UInt8 → Bool) (c : Char) : List Char :=
  (encode escape (String.utf8EncodeChar c)).map fun b => Char.ofNat b.toNat

theorem toList_encodeString (escape : UInt8 → Bool) (s : List Char) :
    (encodeString escape (String.ofList s)).toList = s.flatMap (encodeChar escape) := by
  induction s with
  | nil => rfl
  | cons c s ih =>
    simp only [encodeString, asciiString, String.toList_ofList] at ih ⊢
    rw [utf8Bytes_ofList_cons, encode, List.flatMap_append, List.map_append, ← encode, ← encode, ih,
      List.flatMap_cons, encodeChar]

theorem utf8EncodeChar_of_ascii (hc : c.toNat < 128) :
    String.utf8EncodeChar c = [UInt8.ofNat c.toNat] := by
  unfold String.utf8EncodeChar
  exact if_pos (Nat.le_of_lt_succ hc)

theorem le_of_mem_utf8EncodeChar (hc : 128 ≤ c.toNat) (hb : b ∈ String.utf8EncodeChar c) :
    128 ≤ b.toNat := by
  have hnot : ¬ c.val.toNat ≤ 0x7f := Nat.not_le.2 hc
  simp only [String.utf8EncodeChar, if_neg hnot] at hb
  split at hb
  · simp only [List.mem_cons, List.not_mem_nil, or_false] at hb
    obtain rfl | rfl := hb
    · simp only [UInt8.toNat_ofNat']
      omega
    · simp only [UInt8.toNat_ofNat']
      omega
  · split at hb
    · simp only [List.mem_cons, List.not_mem_nil, or_false] at hb
      obtain rfl | rfl | rfl := hb
      all_goals
        simp only [UInt8.toNat_ofNat']
        omega
    · simp only [List.mem_cons, List.not_mem_nil, or_false] at hb
      obtain rfl | rfl | rfl | rfl := hb
      all_goals
        simp only [UInt8.toNat_ofNat']
        omega

/-- A character is left as it is when it is ASCII and its byte is not escaped. -/
def keeps (escape : UInt8 → Bool) (c : Char) : Bool :=
  c.toNat < 128 && !escape (UInt8.ofNat c.toNat)

theorem encodeChar_of_keeps (h : keeps escape c = true) : encodeChar escape c = [c] := by
  simp only [keeps, Bool.and_eq_true, decide_eq_true_eq, Bool.not_eq_true'] at h
  have hbyte : (UInt8.ofNat c.toNat).toNat = c.toNat := by
    simp only [UInt8.toNat_ofNat']
    omega
  simp [encodeChar, utf8EncodeChar_of_ascii h.1, encode, encodeByte, h.2, hbyte]

/-- Each byte of any other character is escaped. -/
theorem escape_of_not_keeps (hascii : ∀ b : UInt8, 128 ≤ b.toNat → escape b = true)
    (h : keeps escape c = false) (hb : b ∈ String.utf8EncodeChar c) : escape b = true := by
  by_cases hc : c.toNat < 128
  · simp only [keeps, Bool.and_eq_false_iff, decide_eq_false_iff_not, Bool.not_eq_false'] at h
    rw [utf8EncodeChar_of_ascii hc, List.mem_singleton] at hb
    rw [hb]
    exact h.resolve_left fun hnot => hnot hc
  · exact hascii b (le_of_mem_utf8EncodeChar (Nat.le_of_not_lt hc) hb)

/-- Any other character becomes one triplet for each byte. -/
theorem encodeChar_of_not_keeps (hascii : ∀ b : UInt8, 128 ≤ b.toNat → escape b = true)
    (h : keeps escape c = false) : encodeChar escape c = (String.utf8EncodeChar c).flatMap triplet := by
  unfold encodeChar encode
  rw [List.map_flatMap]
  refine List.flatMap_congr fun b hb => ?_
  simp [encodeByte, escape_of_not_keeps hascii h hb, triplet, percentSign]

/-! ## Decoding a text in pieces -/

/-- Decoding turns `s` into `t`, whatever follows. -/
def ReadsAs (s t : List Char) : Prop :=
  ∀ rest, decode (utf8Bytes (String.ofList s) ++ rest) =
    utf8Bytes (String.ofList t) ++ decode rest

theorem ReadsAs.nil : ReadsAs [] [] := fun _ => rfl

theorem ReadsAs.append {s t s' t' : List Char} (h : ReadsAs s t) (h' : ReadsAs s' t') :
    ReadsAs (s ++ s') (t ++ t') := by
  intro rest
  rw [String.ofList_append, String.ofList_append, utf8Bytes_append, utf8Bytes_append,
    List.append_assoc, h, h', List.append_assoc]

/-- An ASCII character that is not the percent sign is decoded to itself. -/
theorem ReadsAs.char {c : Char} (hc : c.toNat < 128) (hne : c ≠ '%') : ReadsAs [c] [c] := by
  intro rest
  have hbyte : utf8Bytes (String.ofList [c]) = [UInt8.ofNat c.toNat] := by
    rw [utf8Bytes_ofList_cons, utf8EncodeChar_of_ascii hc]
    rfl
  rw [hbyte]
  refine decode_cons_of_ne (fun heq => hne ?_) rest
  have hval : c.toNat % 256 = 0x25 := congrArg UInt8.toNat heq
  rw [← Char.ofNat_toNat c, show c.toNat = 0x25 by omega]

theorem ReadsAs.encode (hesc : escape percentSign = true)
    (hascii : ∀ b : UInt8, 128 ≤ b.toNat → escape b = true) (s : List Char) :
    ReadsAs (s.flatMap (encodeChar escape)) s := by
  intro rest
  rw [← toList_encodeString, String.ofList_toList, encodeString,
    utf8Bytes_asciiString fun b hb => encode_ascii hascii hb]
  exact decode_encode_append hesc _ rest

theorem decodeString_of_readsAs {s t : List Char} (h : ReadsAs s t) :
    decodeString (String.ofList s) = some (String.ofList t) := by
  have hall := h []
  rw [List.append_nil, decode, List.append_nil] at hall
  rw [decodeString, hall, fromUTF8?_utf8Bytes]

end Verif.Percent
