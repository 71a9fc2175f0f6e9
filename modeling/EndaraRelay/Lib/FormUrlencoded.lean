import Mathlib.Data.List.TakeWhile
import EndaraRelay.Lib.Percent
import EndaraRelay.Lib.Utf8.Lossy

/-!
# Form-urlencoded parameters

The query of a URL as a list of parameters: the fields between the ampersands, each cut at its first equals
sign, with `+` for a space and escaped bytes.

* `component_serialize`: a value that is written is read back.
* `component_append`: a text is read in two parts at any ASCII character that is no part of an escape.
* `parse_append`, `parse_pair`: what is put behind an ampersand is read by itself.
-/

namespace Verif.FormUrlencoded

open Percent

/-! ## Writing -/

/-- The bytes that are written as themselves. -/
def unchanged (b : UInt8) : Bool :=
  let n := b.toNat
  (0x30 ≤ n ∧ n ≤ 0x39) ∨ (0x41 ≤ n ∧ n ≤ 0x5A) ∨ (0x61 ≤ n ∧ n ≤ 0x7A) ∨
    n = 0x2A ∨ n = 0x2D ∨ n = 0x2E ∨ n = 0x5F

def serializeByte (b : UInt8) : List Char :=
  if b = 0x20 then ['+'] else if unchanged b then [Char.ofNat b.toNat] else triplet b

/-- The serializer of a name or a value. -/
def serialize (s : List Char) : List Char := (Utf8.encode s).flatMap serializeByte

/-! ## Reading -/

def plusToSpace (b : UInt8) : UInt8 := if b = 0x2B then 0x20 else b

/-- What a name or a value is read as. -/
def component (t : List Char) : List Char :=
  Utf8.decodeLossy none (decode ((Utf8.encode t).map plusToSpace))

/-- A field, cut at its first equals sign. -/
def pair (field : List Char) : List Char × List Char :=
  (component (field.takeWhile (· ≠ '=')), component ((field.dropWhile (· ≠ '=')).drop 1))

/-- The parameters of a query; empty fields are left out. -/
def parse (query : List Char) : List (List Char × List Char) :=
  ((query.splitOn '&').filter (· ≠ [])).map pair

/-! ## Reading in parts -/

/-- The ASCII characters that stand for themselves. -/
structure Plain (c : Char) : Prop where
  ascii : c.toNat < 0x80
  ne_percent : c ≠ '%'
  ne_plus : c ≠ '+'

/-- The byte of an ASCII character. -/
def byteOf (c : Char) : UInt8 := UInt8.ofNat c.toNat

variable {c : Char} {b : UInt8} {params : List (List Char × List Char)}

theorem toNat_byteOf (hc : c.toNat < 0x80) : (byteOf c).toNat = c.toNat := by
  unfold byteOf
  simp only [UInt8.toNat_ofNat']
  omega

theorem byteOf_ne {c d : Char} (hc : c.toNat < 0x80) (hd : d.toNat < 0x80) (h : c ≠ d) :
    byteOf c ≠ byteOf d := by
  intro heq
  have hnat : c.toNat = d.toNat := by rw [← toNat_byteOf hc, ← toNat_byteOf hd, heq]
  exact h (by rw [← Char.ofNat_toNat c, ← Char.ofNat_toNat d, hnat])

theorem encode_cons_ascii (hc : c.toNat < 0x80) (t : List Char) :
    Utf8.encode (c :: t) = byteOf c :: Utf8.encode t := by
  unfold Utf8.encode
  rw [List.flatMap_cons, utf8EncodeChar_of_ascii hc]
  rfl

theorem encode_append (t u : List Char) : Utf8.encode (t ++ u) = Utf8.encode t ++ Utf8.encode u :=
  List.flatMap_append

theorem plusToSpace_byteOf (hc : Plain c) : plusToSpace (byteOf c) = byteOf c :=
  if_neg (byteOf_ne hc.ascii (show ('+' : Char).toNat < 0x80 by decide) hc.ne_plus)

/-- Bytes are read in two parts at a character that is no part of an escape. -/
theorem decodeLossy_decode_append (hc : Plain c) (hhex : hexValue (byteOf c) = none)
    (bs rest : List UInt8) :
    Utf8.decodeLossy none (decode (bs ++ byteOf c :: rest)) =
      Utf8.decodeLossy none (decode bs) ++ c :: Utf8.decodeLossy none (decode rest) := by
  have hpercent : byteOf c ≠ percentSign :=
    byteOf_ne hc.ascii (show ('%' : Char).toNat < 0x80 by decide) hc.ne_percent
  have hbyte : (byteOf c).toNat < 0x80 := by
    rw [toNat_byteOf hc.ascii]
    exact hc.ascii
  rw [decode_append_cons hhex, decode_cons_of_ne hpercent, Utf8.decodeLossy_append_ascii hbyte _ _ none nofun,
    toNat_byteOf hc.ascii, Char.ofNat_toNat]

/-- A character that no escape is open before. -/
theorem decodeLossy_decode_cons (hc : Plain c) (rest : List UInt8) :
    Utf8.decodeLossy none (decode (byteOf c :: rest)) = c :: Utf8.decodeLossy none (decode rest) := by
  have hpercent : byteOf c ≠ percentSign :=
    byteOf_ne hc.ascii (show ('%' : Char).toNat < 0x80 by decide) hc.ne_percent
  have hbyte : (byteOf c).toNat < 0x80 := by
    rw [toNat_byteOf hc.ascii]
    exact hc.ascii
  have h := Utf8.decodeLossy_append_ascii hbyte [] (decode rest) none nofun
  rw [List.nil_append, toNat_byteOf hc.ascii, Char.ofNat_toNat] at h
  rw [decode_cons_of_ne hpercent, h]
  rfl

theorem component_cons (hc : Plain c) (t : List Char) : component (c :: t) = c :: component t := by
  unfold component
  rw [encode_cons_ascii hc.ascii, List.map_cons, plusToSpace_byteOf hc, decodeLossy_decode_cons hc]

/-- A text is read in two parts before a character that is no part of an escape. -/
theorem component_append (hc : Plain c) (hhex : hexValue (byteOf c) = none) (t u : List Char) :
    component (t ++ c :: u) = component t ++ c :: component u := by
  unfold component
  rw [encode_append, encode_cons_ascii hc.ascii, List.map_append, List.map_cons, plusToSpace_byteOf hc,
    decodeLossy_decode_append hc hhex]

/-- A text of such characters is itself. -/
theorem component_plain {t : List Char} (h : ∀ c ∈ t, Plain c) : component t = t := by
  induction t with
  | nil => rfl
  | cons c t ih =>
    rw [component_cons (h c List.mem_cons_self), ih fun d hd => h d (List.mem_cons_of_mem c hd)]

/-! ## What is written is read back -/

theorem unchanged_lt (h : unchanged b = true) : b.toNat < 0x80 := by
  unfold unchanged at h
  simp only [decide_eq_true_eq] at h
  omega

theorem toNat_charOfByte (h : b.toNat < 0x80) : (Char.ofNat b.toNat).toNat = b.toNat := by
  have hall : ∀ n : Nat, n < 0x80 → (Char.ofNat n).toNat = n := by decide
  exact hall _ h

theorem byteOf_charOfByte (h : b.toNat < 0x80) : byteOf (Char.ofNat b.toNat) = b := by
  unfold byteOf
  rw [toNat_charOfByte h, UInt8.ofNat_toNat]

/-- A character that separates nothing. -/
structure Safe (c : Char) : Prop where
  ascii : c.toNat < 0x80
  graphic : 0x20 < c.toNat
  ne_amp : c ≠ '&'
  ne_eq : c ≠ '='
  ne_hash : c ≠ '#'
  ne_question : c ≠ '?'

instance (c : Char) : Decidable (Safe c) :=
  decidable_of_iff (c.toNat < 0x80 ∧ 0x20 < c.toNat ∧ c ≠ '&' ∧ c ≠ '=' ∧ c ≠ '#' ∧ c ≠ '?')
    ⟨fun ⟨h1, h2, h3, h4, h5, h6⟩ => ⟨h1, h2, h3, h4, h5, h6⟩, fun h => ⟨h.1, h.2, h.3, h.4, h.5, h.6⟩⟩

theorem safe_hexDigit {n : Nat} (hn : n < 16) : Safe (Char.ofNat (hexDigit n).toNat) := by
  revert n
  decide

theorem safe_of_unchanged (h : unchanged b = true) : Safe (Char.ofNat b.toNat) := by
  have hlt := unchanged_lt h
  have hnat := toNat_charOfByte hlt
  have hne : ∀ d : Char, b.toNat ≠ d.toNat → Char.ofNat b.toNat ≠ d := by
    rintro d hd rfl
    exact hd hnat.symm
  unfold unchanged at h
  simp only [decide_eq_true_eq] at h
  refine ⟨by omega, by omega, hne _ ?_, hne _ ?_, hne _ ?_, hne _ ?_⟩
  all_goals
    simp only [Char.reduceToNat]
    omega

/-- The characters of what is written. -/
theorem safe_of_mem_serialize {s : List Char} (h : c ∈ serialize s) : Safe c := by
  obtain ⟨b, -, hb⟩ := List.mem_flatMap.mp h
  have hlt : b.toNat < 256 := UInt8.toNat_lt b
  unfold serializeByte at hb
  split_ifs at hb with hspace hplain
  · rw [List.mem_singleton.mp hb]
    decide
  · rw [List.mem_singleton.mp hb]
    exact safe_of_unchanged hplain
  · simp only [triplet, List.mem_cons, List.not_mem_nil, or_false] at hb
    obtain rfl | rfl | rfl := hb
    · decide
    · exact safe_hexDigit (by omega)
    · exact safe_hexDigit (by omega)

theorem hexDigit_ne_plus {n : Nat} (hn : n < 16) : plusToSpace (hexDigit n) = hexDigit n := by
  revert n
  decide

theorem encode_triplet (b : UInt8) :
    Utf8.encode (triplet b) = [percentSign, hexDigit (b.toNat / 16), hexDigit (b.toNat % 16)] := by
  have hb : b.toNat < 256 := UInt8.toNat_lt b
  have hhigh : (hexDigit (b.toNat / 16)).toNat < 0x80 := hexDigit_lt_128 (by omega)
  have hlow : (hexDigit (b.toNat % 16)).toNat < 0x80 := hexDigit_lt_128 (by omega)
  unfold triplet
  rw [encode_cons_ascii (by decide), encode_cons_ascii (by rwa [toNat_charOfByte hhigh]),
    encode_cons_ascii (by rwa [toNat_charOfByte hlow]), byteOf_charOfByte hhigh, byteOf_charOfByte hlow]
  rfl

theorem decode_serializeByte (b : UInt8) (rest : List UInt8) :
    decode ((Utf8.encode (serializeByte b)).map plusToSpace ++ rest) = b :: decode rest := by
  have hb : b.toNat < 256 := UInt8.toNat_lt b
  unfold serializeByte
  split_ifs with hspace hplain
  · subst hspace
    exact decode_cons_of_ne (by decide) rest
  · have hlt := unchanged_lt hplain
    have hpercent : b ≠ percentSign := by
      rintro rfl
      exact absurd hplain (by decide)
    have hplus : b ≠ 0x2B := by
      rintro rfl
      exact absurd hplain (by decide)
    rw [encode_cons_ascii (by rwa [toNat_charOfByte hlt]), byteOf_charOfByte hlt, List.map_cons, plusToSpace,
      if_neg hplus]
    exact decode_cons_of_ne hpercent rest
  · rw [encode_triplet, List.map_cons, List.map_cons, List.map_cons, hexDigit_ne_plus (by omega),
      hexDigit_ne_plus (by omega)]
    exact decode_escape b rest

theorem component_serialize (s : List Char) : component (serialize s) = s := by
  have hbytes : ∀ bs : List UInt8,
      decode ((Utf8.encode (bs.flatMap serializeByte)).map plusToSpace) = bs := by
    intro bs
    induction bs with
    | nil => rfl
    | cons b bs ih =>
      rw [List.flatMap_cons, encode_append, List.map_append, decode_serializeByte, ih]
  unfold component serialize
  rw [hbytes]
  exact Utf8.decodeLossy_encode s

/-! ## Parameters -/

theorem parse_append (a b : List Char) : parse (a ++ '&' :: b) = parse a ++ parse b := by
  unfold parse
  rw [List.splitOn_append_cons_self, List.filter_append, List.map_append]

theorem parse_single {field : List Char} (hamp : '&' ∉ field) (hne : field ≠ []) : parse field = [pair field] := by
  unfold parse
  rw [List.splitOn_eq_singleton hamp, List.filter_cons_of_pos (by simpa using hne)]
  rfl

/-- A name and a value as they are written. -/
def field (name value : List Char) : List Char := name ++ '=' :: serialize value

/-- Parameters behind another one. -/
def moreFields (params : List (List Char × List Char)) : List Char := params.flatMap fun p => '&' :: field p.1 p.2

/-- A name that is written as itself. -/
def Name (name : List Char) : Prop := ∀ c ∈ name, Safe c ∧ c ≠ '%' ∧ c ≠ '+'

instance (name : List Char) : Decidable (Name name) := List.decidableBAll _ name

theorem moreFields_append (a b : List (List Char × List Char)) : moreFields (a ++ b) = moreFields a ++ moreFields b :=
  List.flatMap_append

theorem pair_append {name : List Char} (hname : '=' ∉ name) (value : List Char) :
    pair (name ++ '=' :: value) = (component name, component value) := by
  have hall : ∀ c ∈ name, (c ≠ '=' : Bool) = true := fun c hc =>
    decide_eq_true fun heq => hname (heq ▸ hc)
  unfold pair
  rw [List.takeWhile_append_of_pos hall, List.dropWhile_append_of_pos hall,
    List.takeWhile_cons_of_neg (by simp), List.dropWhile_cons_of_neg (by simp), List.append_nil,
    List.drop_succ_cons, List.drop_zero]

theorem pair_of_not_mem {name : List Char} (hname : '=' ∉ name) : pair name = (component name, []) := by
  have hall : ∀ c ∈ name, (c ≠ '=' : Bool) = true := fun c hc =>
    decide_eq_true fun heq => hname (heq ▸ hc)
  unfold pair
  rw [List.takeWhile_eq_self_iff.mpr hall, List.dropWhile_eq_nil_iff.mpr hall]
  rfl

theorem mem_field {name value : List Char} (hname : Name name) (h : c ∈ field name value) :
    Safe c ∨ c = '=' := by
  rcases List.mem_append.mp h with h | h
  · exact .inl (hname c h).1
  · rcases List.mem_cons.mp h with h | h
    · exact .inr h
    · exact .inl (safe_of_mem_serialize h)

theorem mem_moreFields (hnames : ∀ p ∈ params, Name p.1) (h : c ∈ moreFields params) :
    Safe c ∨ c = '=' ∨ c = '&' := by
  obtain ⟨p, hp, hc⟩ := List.mem_flatMap.mp h
  rcases List.mem_cons.mp hc with hc | hc
  · exact .inr (.inr hc)
  · exact (mem_field (hnames p hp) hc).imp_right .inl

/-- What is written as one parameter is read as that parameter. -/
theorem parse_field {name : List Char} (hname : Name name) (value : List Char) :
    parse (field name value) = [(name, value)] := by
  have heq : '=' ∉ name := fun h => (hname _ h).1.ne_eq rfl
  have hplain : ∀ c ∈ name, Plain c := fun c hc =>
    ⟨(hname c hc).1.ascii, (hname c hc).2.1, (hname c hc).2.2⟩
  have hamp : '&' ∉ field name value := by
    intro h
    rcases mem_field hname h with h | h
    · exact h.ne_amp rfl
    · exact absurd h (by decide)
  rw [parse_single hamp (by simp [field]), field, pair_append heq, component_plain hplain, component_serialize]

/-- **What is put behind a query is read behind its parameters.** -/
theorem parse_moreFields (hnames : ∀ p ∈ params, Name p.1) (query : List Char) :
    parse (query ++ moreFields params) = parse query ++ params := by
  induction params generalizing query with
  | nil =>
    change parse (query ++ []) = _
    rw [List.append_nil, List.append_nil]
  | cons p params ih =>
    obtain ⟨hp, hparams⟩ := List.forall_mem_cons.mp hnames
    have hsplit : query ++ moreFields (p :: params) = (query ++ '&' :: field p.1 p.2) ++ moreFields params := by
      rw [List.append_assoc]
      rfl
    rw [hsplit, ih hparams, parse_append, parse_field hp, List.append_assoc]
    rfl

/-! ## Text behind the last field -/

/-- The last field of a query takes up what follows it. -/
theorem exists_last_field (query : List Char) :
    ∃ params last, '&' ∉ last ∧ ∀ x, parse (query ++ x) = params ++ parse (last ++ x) := by
  by_cases h : '&' ∈ query
  · obtain ⟨last, before, hquery, hlast⟩ := List.eq_append_cons_of_mem (List.mem_reverse.mpr h)
    refine ⟨parse before.reverse, last.reverse, fun hmem => hlast (List.mem_reverse.mp hmem), fun x => ?_⟩
    have hsplit : query = before.reverse ++ '&' :: last.reverse := by
      rw [← List.reverse_reverse query, hquery]
      simp
    rw [hsplit, List.append_assoc, List.cons_append, parse_append]
  · exact ⟨[], query, h, fun x => rfl⟩

section Extended

variable {c : Char} (hc : Plain c) (hhex : hexValue (byteOf c) = none)

include hc hhex

/-- A field with an equals sign goes on in its value. -/
theorem pair_append_value {last : List Char} (h : '=' ∈ last) (x : List Char) :
    (pair (last ++ c :: x)).2 = (pair last).2 ++ c :: component x := by
  obtain ⟨name, value, rfl, hname⟩ := List.eq_append_cons_of_mem h
  rw [List.append_assoc, List.cons_append, pair_append hname, pair_append hname, component_append hc hhex]

/-- A field without one goes on in its name. -/
theorem pair_append_name (hne : c ≠ '=') {last : List Char} (h : '=' ∉ last) (x : List Char) :
    (pair (last ++ c :: x)).1 = (pair last).1 ++ c :: component (x.takeWhile (· ≠ '=')) := by
  have hall : ∀ d ∈ last, (d ≠ '=' : Bool) = true := fun d hd => decide_eq_true fun heq => h (heq ▸ hd)
  rw [pair_of_not_mem h]
  unfold pair
  rw [List.takeWhile_append_of_pos hall, List.takeWhile_cons_of_pos (by simpa using hne), component_append hc hhex]

/-- A query that goes on is read differently. -/
theorem parse_append_ne (hne : c ≠ '=') {x : List Char} (hamp : '&' ∉ c :: x) (query : List Char) :
    parse (query ++ c :: x) ≠ parse query := by
  intro heq
  obtain ⟨params, last, hlast, hparse⟩ := exists_last_field query
  have hboth : '&' ∉ last ++ c :: x := fun h => (List.mem_append.mp h).elim hlast hamp
  have hbefore := hparse []
  rw [List.append_nil, List.append_nil] at hbefore
  rw [hparse, hbefore, List.append_cancel_left_eq, parse_single hboth (by simp)] at heq
  by_cases hempty : last = []
  · rw [hempty] at heq
    cases heq
  · rw [parse_single hlast hempty, List.singleton_inj] at heq
    by_cases hmem : '=' ∈ last
    · have hvalue := congrArg (fun p => p.2.length) heq
      simp only [pair_append_value hc hhex hmem x, List.length_append, List.length_cons] at hvalue
      omega
    · have hname := congrArg (fun p => p.1.length) heq
      simp only [pair_append_name hc hhex hne hmem x, List.length_append, List.length_cons] at hname
      omega

end Extended

end Verif.FormUrlencoded
