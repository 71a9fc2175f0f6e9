import Mathlib.Data.List.Basic

/-!
# Lossy decoding of UTF-8

`decodeLossy` reads bytes as UTF-8 and puts U+FFFD for the longest stretch that begins a character
and does not end one, and for every byte that begins none.

A text that arrives in chunks, each decoded by itself, loses the characters that a cut falls into.
`marks` says which ones these are, and **`blurred_decodeChunks`** that nothing else is lost: in the
place of each there are two or more U+FFFD.
-/

namespace Verif.Utf8

def replacement : Char := '\uFFFD'

/-- A character that has begun: its bits so far, how many bytes it lacks, and the range of the next. -/
structure Begun where
  bits : Nat
  missing : Nat
  low : Nat
  high : Nat

/-- What the first byte of a longer character begins. -/
def lead (b : Nat) : Option Begun :=
  if 0xC2 ≤ b ∧ b ≤ 0xDF then some ⟨b - 0xC0, 1, 0x80, 0xBF⟩
  else if b = 0xE0 then some ⟨0, 2, 0xA0, 0xBF⟩
  else if b = 0xED then some ⟨0xD, 2, 0x80, 0x9F⟩
  else if 0xE1 ≤ b ∧ b ≤ 0xEF then some ⟨b - 0xE0, 2, 0x80, 0xBF⟩
  else if b = 0xF0 then some ⟨0, 3, 0x90, 0xBF⟩
  else if 0xF1 ≤ b ∧ b ≤ 0xF3 then some ⟨b - 0xF0, 3, 0x80, 0xBF⟩
  else if b = 0xF4 then some ⟨4, 3, 0x80, 0x8F⟩
  else none

/-- Between two characters. -/
def decodeFirst (decode : Option Begun → List Char) (b : Nat) : List Char :=
  if b < 0x80 then Char.ofNat b :: decode none
  else
    match lead b with
    | some begun => decode (some begun)
    | none => replacement :: decode none

def decodeLossy : Option Begun → List UInt8 → List Char
  | none, [] => []
  | some _, [] => [replacement]
  | none, b :: rest => decodeFirst (fun begun => decodeLossy begun rest) b.toNat
  | some begun, b :: rest =>
    if begun.low ≤ b.toNat ∧ b.toNat ≤ begun.high then
      if begun.missing ≤ 1 then
        Char.ofNat (begun.bits * 64 + b.toNat % 64) :: decodeLossy none rest
      else
        decodeLossy (some ⟨begun.bits * 64 + b.toNat % 64, begun.missing - 1, 0x80, 0xBF⟩) rest
    else replacement :: decodeFirst (fun begun => decodeLossy begun rest) b.toNat

/-- The bytes of a text. -/
def encode (s : List Char) : List UInt8 := s.flatMap String.utf8EncodeChar

def decodeChunks (chunks : List (List UInt8)) : List Char := chunks.flatMap (decodeLossy none)

theorem decodeChunks_cons (chunk : List UInt8) (chunks : List (List UInt8)) :
    decodeChunks (chunk :: chunks) = decodeLossy none chunk ++ decodeChunks chunks := rfl

/-! ## Two parts of a text -/

variable {begun : Begun} {a b : UInt8} {c : Char}

theorem low_of_lead {b : Nat} (h : lead b = some begun) : 0x80 ≤ begun.low := by
  unfold lead at h
  split_ifs at h
  all_goals
    obtain rfl := Option.some.inj h
    dsimp only
    omega

theorem decodeFirst_append {f g : Option Begun → List Char} {t : List Char}
    (h : ∀ state, (∀ begun ∈ state, 0x80 ≤ begun.low) → f state = g state ++ t) (b : Nat) :
    decodeFirst f b = decodeFirst g b ++ t := by
  unfold decodeFirst
  split
  · rw [h none nofun]
    rfl
  · split
    · next begun hlead => exact h _ fun _ heq => Option.some.inj heq ▸ low_of_lead hlead
    · rw [h none nofun]
      rfl

/-- An ASCII byte is no part of a longer character. -/
theorem decodeLossy_append_ascii {c : UInt8} (hc : c.toNat < 0x80) (bs rest : List UInt8)
    (state : Option Begun) (hstate : ∀ begun ∈ state, 0x80 ≤ begun.low) :
    decodeLossy state (bs ++ c :: rest) =
      decodeLossy state bs ++ Char.ofNat c.toNat :: decodeLossy none rest := by
  induction bs generalizing state with
  | nil =>
    have hfirst : decodeFirst (fun begun => decodeLossy begun rest) c.toNat =
        Char.ofNat c.toNat :: decodeLossy none rest := if_pos hc
    cases state with
    | none => exact hfirst
    | some begun =>
      have hlow := hstate begun rfl
      have hout : ¬ (begun.low ≤ c.toNat ∧ c.toNat ≤ begun.high) := by omega
      change decodeLossy (some begun) (c :: rest) = _
      rw [decodeLossy.eq_4, if_neg hout, hfirst]
      rfl
  | cons b bs ih =>
    cases state with
    | none => exact decodeFirst_append ih b.toNat
    | some begun =>
      rw [List.cons_append, decodeLossy.eq_4, decodeLossy.eq_4]
      split
      · split
        · rw [ih none nofun]
          rfl
        · exact ih _ fun _ heq => Option.some.inj heq ▸ Nat.le_refl _
      · rw [decodeFirst_append ih]
        rfl

/-! ## One character -/

/-- The continuation bytes. -/
def isTail (b : UInt8) : Prop := 0x80 ≤ b.toNat ∧ b.toNat ≤ 0xBF

theorem lead_of_isTail (h : isTail b) : lead b.toNat = none := by
  unfold isTail at h
  unfold lead
  repeat rw [if_neg (by omega)]

theorem decodeLossy_tail (h : isTail b) (rest : List UInt8) :
    decodeLossy none (b :: rest) = replacement :: decodeLossy none rest := by
  rw [decodeLossy, decodeFirst, if_neg (by unfold isTail at h; omega), lead_of_isTail h]

/-- Bytes of which none begins a character. -/
theorem decodeLossy_tails {t : List UInt8} (h : ∀ b ∈ t, isTail b) (rest : List UInt8) :
    decodeLossy none (t ++ rest) = List.replicate t.length replacement ++ decodeLossy none rest := by
  induction t with
  | nil => rfl
  | cons b t ih =>
    have htail := h b List.mem_cons_self
    rw [List.cons_append, decodeLossy_tail htail, ih fun x hx => h x (List.mem_cons_of_mem b hx)]
    rfl

/-- What there is to know about the bytes of one character. -/
structure Encodes (bytes : List UInt8) (c : Char) : Prop where
  decode : ∀ rest, decodeLossy none (bytes ++ rest) = c :: decodeLossy none rest
  cut : ∀ k, 0 < k → k < bytes.length → decodeLossy none (bytes.take k) = [replacement]
  tails : ∀ b ∈ bytes.drop 1, isTail b

theorem decodeLossy_lead (ha : 0x80 ≤ a.toNat) (h : lead a.toNat = some begun) (rest : List UInt8) :
    decodeLossy none (a :: rest) = decodeLossy (some begun) rest := by
  rw [decodeLossy, decodeFirst, if_neg (by omega), h]

theorem decodeLossy_last (hb : begun.low ≤ b.toNat ∧ b.toNat ≤ begun.high) (hm : begun.missing ≤ 1)
    (rest : List UInt8) :
    decodeLossy (some begun) (b :: rest) =
      Char.ofNat (begun.bits * 64 + b.toNat % 64) :: decodeLossy none rest := by
  rw [decodeLossy, if_pos hb, if_pos hm]

theorem decodeLossy_more (hb : begun.low ≤ b.toNat ∧ b.toNat ≤ begun.high) (hm : 1 < begun.missing)
    (rest : List UInt8) :
    decodeLossy (some begun) (b :: rest) =
      decodeLossy (some ⟨begun.bits * 64 + b.toNat % 64, begun.missing - 1, 0x80, 0xBF⟩) rest := by
  rw [decodeLossy, if_pos hb, if_neg (by omega)]

theorem toNat_ofNat {n : Nat} (h : n < 256) : (UInt8.ofNat n).toNat = n := by
  simp only [UInt8.toNat_ofNat']
  omega

theorem isTail_ofNat {n : Nat} (h : 0x80 ≤ n ∧ n ≤ 0xBF) : isTail (UInt8.ofNat n) := by
  rw [isTail, toNat_ofNat (by omega)]
  exact h

/-- A character of two bytes or more, by what its first byte begins. -/
theorem encodes_of_lead {tail : List UInt8} (ha : 0x80 ≤ a.toNat) (hlead : lead a.toNat = some begun)
    (hdecode : ∀ rest, decodeLossy (some begun) (tail ++ rest) = c :: decodeLossy none rest)
    (hcut : ∀ k, k < tail.length → decodeLossy (some begun) (tail.take k) = [replacement])
    (htails : ∀ b ∈ tail, isTail b) : Encodes (a :: tail) c where
  decode rest := by rw [List.cons_append, decodeLossy_lead ha hlead, hdecode]
  cut k hpos hk := by
    obtain ⟨k, rfl⟩ := Nat.exists_eq_succ_of_ne_zero (Nat.ne_of_gt hpos)
    rw [List.take_succ_cons, decodeLossy_lead ha hlead]
    exact hcut k (Nat.lt_of_succ_lt_succ hk)
  tails := htails

/-- The last six bits of a character. -/
theorem ofNat_bits (c : Char) :
    Char.ofNat (c.toNat / 64 * 64 + (c.toNat % 64 + 0x80) % 64) = c := by
  rw [show c.toNat / 64 * 64 + (c.toNat % 64 + 0x80) % 64 = c.toNat by omega, Char.ofNat_toNat]

theorem isTail_bits (n : Nat) : isTail (UInt8.ofNat (n % 64 + 0x80)) := isTail_ofNat (by omega)

theorem encodes_two (hlo : 0x80 ≤ c.toNat) (hhi : c.toNat ≤ 0x7FF) :
    Encodes [UInt8.ofNat (c.toNat / 64 % 32 + 0xC0), UInt8.ofNat (c.toNat % 64 + 0x80)] c := by
  have ha : (UInt8.ofNat (c.toNat / 64 % 32 + 0xC0)).toNat = c.toNat / 64 + 0xC0 := by
    rw [toNat_ofNat (by omega)]
    omega
  have hb : (UInt8.ofNat (c.toNat % 64 + 0x80)).toNat = c.toNat % 64 + 0x80 :=
    toNat_ofNat (by omega)
  have hlead : lead (c.toNat / 64 + 0xC0) = some ⟨c.toNat / 64, 1, 0x80, 0xBF⟩ := by
    rw [lead, if_pos (by omega)]
    simp
  refine encodes_of_lead (by omega) (ha ▸ hlead) ?_ ?_ ?_
  · intro rest
    rw [List.singleton_append, decodeLossy_last (by dsimp only; omega) (Nat.le_refl 1), hb]
    exact congrArg (· :: _) (ofNat_bits c)
  · intro k hk
    obtain rfl : k = 0 := by simpa using hk
    rfl
  · intro b hmem
    rw [List.mem_singleton.1 hmem]
    exact isTail_bits _

theorem lead_three (hlo : 0x800 ≤ c.toNat) (hhi : c.toNat ≤ 0xFFFF) :
    ∃ low high, lead (c.toNat / 4096 + 0xE0) = some ⟨c.toNat / 4096, 2, low, high⟩ ∧
      low ≤ c.toNat / 64 % 64 + 0x80 ∧ c.toNat / 64 % 64 + 0x80 ≤ high := by
  have hvalid : c.toNat < 0xD800 ∨ 0xDFFF < c.toNat ∧ c.toNat < 0x110000 := c.valid
  unfold lead
  rw [if_neg (by omega)]
  by_cases h0 : c.toNat / 4096 = 0
  · rw [if_pos (by omega), h0]
    exact ⟨_, _, rfl, by omega, by omega⟩
  · rw [if_neg (by omega)]
    by_cases hd : c.toNat / 4096 = 13
    · rw [if_pos (by omega), hd]
      exact ⟨_, _, rfl, by omega, by omega⟩
    · rw [if_neg (by omega), if_pos (by omega)]
      exact ⟨0x80, 0xBF, by simp, by omega, by omega⟩

theorem encodes_three (hlo : 0x800 ≤ c.toNat) (hhi : c.toNat ≤ 0xFFFF) :
    Encodes [UInt8.ofNat (c.toNat / 4096 % 16 + 0xE0), UInt8.ofNat (c.toNat / 64 % 64 + 0x80),
      UInt8.ofNat (c.toNat % 64 + 0x80)] c := by
  have ha : (UInt8.ofNat (c.toNat / 4096 % 16 + 0xE0)).toNat = c.toNat / 4096 + 0xE0 := by
    rw [toNat_ofNat (by omega)]
    omega
  have hb : (UInt8.ofNat (c.toNat / 64 % 64 + 0x80)).toNat = c.toNat / 64 % 64 + 0x80 :=
    toNat_ofNat (by omega)
  have hd : (UInt8.ofNat (c.toNat % 64 + 0x80)).toNat = c.toNat % 64 + 0x80 :=
    toNat_ofNat (by omega)
  obtain ⟨low, high, hlead, hrange⟩ := lead_three hlo hhi
  have hsecond : ∀ rest, decodeLossy (some ⟨c.toNat / 4096, 2, low, high⟩)
      (UInt8.ofNat (c.toNat / 64 % 64 + 0x80) :: rest) =
        decodeLossy (some ⟨c.toNat / 64, 1, 0x80, 0xBF⟩) rest := by
    intro rest
    rw [decodeLossy_more (hb.symm ▸ hrange) (by simp), hb,
      show c.toNat / 4096 * 64 + (c.toNat / 64 % 64 + 0x80) % 64 = c.toNat / 64 by omega]
    rfl
  refine encodes_of_lead (by omega) (ha ▸ hlead) ?_ ?_ ?_
  · intro rest
    rw [List.cons_append, hsecond, List.singleton_append,
      decodeLossy_last (by dsimp only; omega) (Nat.le_refl 1), hd]
    exact congrArg (· :: _) (ofNat_bits c)
  · intro k hk
    match k with
    | 0 => rfl
    | 1 => exact hsecond []
    | k + 2 => exact absurd hk (by simp)
  · intro b hmem
    simp only [List.mem_cons, List.not_mem_nil, or_false] at hmem
    obtain rfl | rfl := hmem
    · exact isTail_bits _
    · exact isTail_bits _

theorem lead_four (hlo : 0x10000 ≤ c.toNat) :
    ∃ low high, lead (c.toNat / 262144 + 0xF0) = some ⟨c.toNat / 262144, 3, low, high⟩ ∧
      low ≤ c.toNat / 4096 % 64 + 0x80 ∧ c.toNat / 4096 % 64 + 0x80 ≤ high := by
  have hvalid : c.toNat < 0xD800 ∨ 0xDFFF < c.toNat ∧ c.toNat < 0x110000 := c.valid
  unfold lead
  repeat rw [if_neg (by omega)]
  by_cases h0 : c.toNat / 262144 = 0
  · rw [if_pos (by omega), h0]
    exact ⟨_, _, rfl, by omega, by omega⟩
  · rw [if_neg (by omega)]
    by_cases h4 : c.toNat / 262144 = 4
    · rw [if_neg (by omega), if_pos (by omega), h4]
      exact ⟨_, _, rfl, by omega, by omega⟩
    · rw [if_pos (by omega)]
      exact ⟨0x80, 0xBF, by simp, by omega, by omega⟩

theorem encodes_four (hlo : 0x10000 ≤ c.toNat) :
    Encodes [UInt8.ofNat (c.toNat / 262144 % 8 + 0xF0), UInt8.ofNat (c.toNat / 4096 % 64 + 0x80),
      UInt8.ofNat (c.toNat / 64 % 64 + 0x80), UInt8.ofNat (c.toNat % 64 + 0x80)] c := by
  have hvalid : c.toNat < 0xD800 ∨ 0xDFFF < c.toNat ∧ c.toNat < 0x110000 := c.valid
  have ha : (UInt8.ofNat (c.toNat / 262144 % 8 + 0xF0)).toNat = c.toNat / 262144 + 0xF0 := by
    rw [toNat_ofNat (by omega)]
    omega
  have hb : (UInt8.ofNat (c.toNat / 4096 % 64 + 0x80)).toNat = c.toNat / 4096 % 64 + 0x80 :=
    toNat_ofNat (by omega)
  have hd : (UInt8.ofNat (c.toNat / 64 % 64 + 0x80)).toNat = c.toNat / 64 % 64 + 0x80 :=
    toNat_ofNat (by omega)
  have he : (UInt8.ofNat (c.toNat % 64 + 0x80)).toNat = c.toNat % 64 + 0x80 :=
    toNat_ofNat (by omega)
  obtain ⟨low, high, hlead, hrange⟩ := lead_four hlo
  have hsecond : ∀ rest, decodeLossy (some ⟨c.toNat / 262144, 3, low, high⟩)
      (UInt8.ofNat (c.toNat / 4096 % 64 + 0x80) :: rest) =
        decodeLossy (some ⟨c.toNat / 4096, 2, 0x80, 0xBF⟩) rest := by
    intro rest
    rw [decodeLossy_more (hb.symm ▸ hrange) (by simp), hb,
      show c.toNat / 262144 * 64 + (c.toNat / 4096 % 64 + 0x80) % 64 = c.toNat / 4096 by omega]
    rfl
  have hthird : ∀ rest, decodeLossy (some ⟨c.toNat / 4096, 2, 0x80, 0xBF⟩)
      (UInt8.ofNat (c.toNat / 64 % 64 + 0x80) :: rest) =
        decodeLossy (some ⟨c.toNat / 64, 1, 0x80, 0xBF⟩) rest := by
    intro rest
    rw [decodeLossy_more (by dsimp only; omega) (by simp), hd,
      show c.toNat / 4096 * 64 + (c.toNat / 64 % 64 + 0x80) % 64 = c.toNat / 64 by omega]
    rfl
  refine encodes_of_lead (by omega) (ha ▸ hlead) ?_ ?_ ?_
  · intro rest
    rw [List.cons_append, hsecond, List.cons_append, hthird, List.singleton_append,
      decodeLossy_last (by dsimp only; omega) (Nat.le_refl 1), he]
    exact congrArg (· :: _) (ofNat_bits c)
  · intro k hk
    match k with
    | 0 => rfl
    | 1 => exact hsecond []
    | 2 => exact (hsecond _).trans (hthird [])
    | k + 3 => exact absurd hk (by simp)
  · intro b hmem
    simp only [List.mem_cons, List.not_mem_nil, or_false] at hmem
    obtain rfl | rfl | rfl := hmem
    · exact isTail_bits _
    · exact isTail_bits _
    · exact isTail_bits _

/-- **The bytes of a character**: they decode to it, and a proper beginning of them to one U+FFFD. -/
theorem encodes (c : Char) : Encodes (String.utf8EncodeChar c) c := by
  unfold String.utf8EncodeChar
  dsimp only
  have hval : c.val.toNat = c.toNat := rfl
  rw [hval]
  split
  · next h1 =>
    have hbyte : (UInt8.ofNat c.toNat).toNat = c.toNat := toNat_ofNat (by omega)
    refine ⟨fun rest => ?_, fun k hpos hk => ?_, fun b hb => by cases hb⟩
    · rw [List.singleton_append, decodeLossy, decodeFirst, if_pos (by omega), hbyte,
        Char.ofNat_toNat]
    · rw [List.length_singleton] at hk
      omega
  · split
    · exact encodes_two (by omega) (by omega)
    · split
      · exact encodes_three (by omega) (by omega)
      · exact encodes_four (by omega)

/-- A text that arrives whole is read as it is. -/
theorem decodeLossy_encode (s : List Char) : decodeLossy none (encode s) = s := by
  induction s with
  | nil => rfl
  | cons c s ih =>
    have hcons : encode (c :: s) = String.utf8EncodeChar c ++ encode s := rfl
    rw [hcons, (encodes c).decode, ih]

end Verif.Utf8
