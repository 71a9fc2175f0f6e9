import EndaraRelay.Lib.Base64
import Mathlib.Data.List.TakeWhile

/-!
# Standard base64 with padding

The alphabet `A-Z a-z 0-9 + /`, filled up to groups of four with `=`. Texts are byte strings. An encoding
is canonical: `decodeStandard` accepts the encodings and no other text.

`length_estimate`: three quarters of the length, less the `=` among the last two bytes, is the number
of bytes encoded.
-/

namespace Verif.Base64

/-- From the URL-safe alphabet to a byte of the standard one. -/
def standardByte (c : Char) : UInt8 :=
  if c = '-' then 0x2B else if c = '_' then 0x2F else UInt8.ofNat c.toNat

def urlDigit (b : UInt8) : Char :=
  if b = 0x2B then '-' else if b = 0x2F then '_' else Char.ofNat b.toNat

/-- The number of `=` after the encoding of `n` bytes. -/
def paddingOf (n : Nat) : Nat := (3 - n % 3) % 3

/-- `STANDARD`. -/
def encodeStandard (bs : List UInt8) : List UInt8 :=
  (encode bs).map standardByte ++ List.replicate (paddingOf bs.length) 0x3D

/-- A text is decoded when it is the encoding of what it decodes to. -/
def decodeStandard (text : List UInt8) : Option (List UInt8) :=
  let bs := decode ((text.takeWhile fun b => b ≠ 0x3D).map urlDigit)
  if encodeStandard bs = text then some bs else none

theorem urlDigit_standardByte {n : Nat} (hn : n < 64) : urlDigit (standardByte (digit n)) = digit n := by
  revert n
  decide

theorem standardByte_ne {n : Nat} (hn : n < 64) : standardByte (digit n) ≠ 0x3D := by
  revert n
  decide

/-- What holds of every digit holds of every character of an encoding. -/
theorem forall_mem_encode {P : Char → Prop} (h : ∀ n < 64, P (digit n)) (bs : List UInt8) :
    ∀ c ∈ encode bs, P c := by
  induction bs using encode.induct with
  | case1 => simp [encode]
  | case2 a =>
    have ha := a.toNat_lt
    simp only [encode, List.forall_mem_cons]
    exact ⟨h _ (by omega), h _ (by omega), List.forall_mem_nil _⟩
  | case3 a b =>
    have ha := a.toNat_lt
    have hb := b.toNat_lt
    simp only [encode, List.forall_mem_cons]
    exact ⟨h _ (by omega), h _ (by omega), h _ (by omega), List.forall_mem_nil _⟩
  | case4 a b c rest ih =>
    have ha := a.toNat_lt
    have hb := b.toNat_lt
    have hc := c.toNat_lt
    simp only [encode, List.forall_mem_cons]
    exact ⟨h _ (by omega), h _ (by omega), h _ (by omega), h _ (by omega), ih⟩

theorem padding_notMem (bs : List UInt8) : (0x3D : UInt8) ∉ (encode bs).map standardByte := by
  intro hmem
  obtain ⟨c, hc, heq⟩ := List.mem_map.1 hmem
  exact forall_mem_encode (P := fun c => standardByte c ≠ 0x3D) (fun _ => standardByte_ne) bs c hc heq

theorem decodeStandard_encodeStandard (bs : List UInt8) :
    decodeStandard (encodeStandard bs) = some bs := by
  have hdigits : (encodeStandard bs).takeWhile (fun b => b ≠ 0x3D) = (encode bs).map standardByte := by
    have hall : ∀ b ∈ (encode bs).map standardByte, decide (b ≠ 0x3D) = true := by
      intro b hb
      rw [decide_eq_true_eq]
      rintro rfl
      exact padding_notMem bs hb
    rw [encodeStandard, List.takeWhile_append_of_pos hall, List.takeWhile_replicate]
    simp
  have hurl : ((encode bs).map standardByte).map urlDigit = encode bs := by
    rw [List.map_map]
    exact (List.map_congr_left (forall_mem_encode (fun _ hn => urlDigit_standardByte hn) bs)).trans
      (List.map_id _)
  rw [decodeStandard, hdigits, hurl, decode_encode]
  exact if_pos rfl

/-- The decoder is canonical. -/
theorem decodeStandard_eq_some {text bs : List UInt8} :
    decodeStandard text = some bs ↔ text = encodeStandard bs := by
  constructor
  · intro h
    unfold decodeStandard at h
    dsimp only at h
    split at h
    · next heq =>
      cases h
      exact heq.symm
    · cases h
  · rintro rfl
    exact decodeStandard_encodeStandard bs

theorem length_encode (bs : List UInt8) : (encode bs).length = (4 * bs.length + 2) / 3 := by
  induction bs using encode.induct with
  | case1 => rfl
  | case2 a => simp [encode]
  | case3 a b => simp [encode]
  | case4 a b c rest ih =>
    simp only [encode, List.length_cons, ih]
    omega

theorem paddingOf_le (n : Nat) : paddingOf n ≤ 2 := by
  unfold paddingOf
  omega

/-- The `=` among the last two bytes. -/
theorem countP_padding (bs : List UInt8) :
    ((encodeStandard bs).reverse.take 2).countP (· == 0x3D) = paddingOf bs.length := by
  have hnone : ∀ k, (((encode bs).map standardByte).reverse.take k).countP (· == 0x3D) = 0 := by
    intro k
    rw [List.countP_eq_zero]
    intro b hb heq
    rw [beq_iff_eq] at heq
    rw [heq] at hb
    exact padding_notMem bs (List.mem_reverse.1 (List.mem_of_mem_take hb))
  have hle := paddingOf_le bs.length
  rw [encodeStandard, List.reverse_append, List.reverse_replicate, List.take_append,
    List.length_replicate, List.countP_append, hnone, List.take_replicate, List.countP_replicate]
  simp
  omega

theorem length_estimate (bs : List UInt8) :
    (encodeStandard bs).length * 3 / 4 -
      ((encodeStandard bs).reverse.take 2).countP (· == 0x3D) = bs.length := by
  rw [countP_padding, encodeStandard, List.length_append, List.length_map, length_encode,
    List.length_replicate]
  obtain h | h | h : bs.length % 3 = 0 ∨ bs.length % 3 = 1 ∨ bs.length % 3 = 2 := by omega
  · have hpadding : paddingOf bs.length = 0 := by rw [paddingOf, h]
    rw [hpadding]
    omega
  · have hpadding : paddingOf bs.length = 2 := by rw [paddingOf, h]
    rw [hpadding]
    omega
  · have hpadding : paddingOf bs.length = 1 := by rw [paddingOf, h]
    rw [hpadding]
    omega

end Verif.Base64
