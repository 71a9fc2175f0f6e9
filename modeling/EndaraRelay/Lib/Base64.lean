import Mathlib.Data.List.Basic

/-!
# URL-safe base64 without padding

Three bytes become four characters of the alphabet `A-Z a-z 0-9 - _`; one or two bytes at the end
become two or three. `decode` reverses `encode`, so that `encode` is injective.
-/

namespace Verif.Base64

/-- The character of a six-bit value. -/
def digit (n : Nat) : Char :=
  if n < 26 then Char.ofNat (0x41 + n)
  else if n < 52 then Char.ofNat (0x47 + n)
  else if n < 62 then Char.ofNat (n - 4)
  else if n = 62 then '-' else '_'

/-- The six-bit value of a character. -/
def value (c : Char) : Nat :=
  if 'A' ≤ c ∧ c ≤ 'Z' then c.toNat - 0x41
  else if 'a' ≤ c ∧ c ≤ 'z' then c.toNat - 0x47
  else if '0' ≤ c ∧ c ≤ '9' then c.toNat + 4
  else if c = '-' then 62 else 63

theorem value_digit {n : Nat} (hn : n < 64) : value (digit n) = n := by
  revert n
  decide

theorem digit_ne_slash {n : Nat} (hn : n < 64) : digit n ≠ '/' := by
  revert n
  decide

/-- `URL_SAFE_NO_PAD`. -/
def encode : List UInt8 → List Char
  | [] => []
  | [a] => [digit (a.toNat / 4), digit (a.toNat % 4 * 16)]
  | [a, b] =>
    [digit (a.toNat / 4), digit (a.toNat % 4 * 16 + b.toNat / 16), digit (b.toNat % 16 * 4)]
  | a :: b :: c :: rest =>
    digit (a.toNat / 4) :: digit (a.toNat % 4 * 16 + b.toNat / 16) ::
      digit (b.toNat % 16 * 4 + c.toNat / 64) :: digit (c.toNat % 64) :: encode rest

def decode : List Char → List UInt8
  | [x, y] => [UInt8.ofNat (value x * 4 + value y / 16)]
  | [x, y, z] =>
    [UInt8.ofNat (value x * 4 + value y / 16), UInt8.ofNat (value y % 16 * 16 + value z / 4)]
  | x :: y :: z :: w :: rest =>
    UInt8.ofNat (value x * 4 + value y / 16) ::
      UInt8.ofNat (value y % 16 * 16 + value z / 4) ::
        UInt8.ofNat (value z % 4 * 64 + value w) :: decode rest
  | _ => []

/-- The high six bits of the first byte, and the low two on top of the next four. -/
theorem first_byte (a : UInt8) {k : Nat} (hk : k < 16) :
    UInt8.ofNat (value (digit (a.toNat / 4)) * 4 + value (digit (a.toNat % 4 * 16 + k)) / 16) =
      a := by
  have ha := a.toNat_lt
  rw [value_digit (by omega), value_digit (by omega)]
  have hsum : a.toNat / 4 * 4 + (a.toNat % 4 * 16 + k) / 16 = a.toNat := by omega
  rw [hsum, UInt8.ofNat_toNat]

theorem second_byte (b : UInt8) {j k : Nat} (hj : j < 4) (hk : k < 4) :
    UInt8.ofNat (value (digit (j * 16 + b.toNat / 16)) % 16 * 16 +
      value (digit (b.toNat % 16 * 4 + k)) / 4) = b := by
  have hb := b.toNat_lt
  rw [value_digit (by omega), value_digit (by omega)]
  have hsum : (j * 16 + b.toNat / 16) % 16 * 16 + (b.toNat % 16 * 4 + k) / 4 = b.toNat := by omega
  rw [hsum, UInt8.ofNat_toNat]

theorem third_byte (c : UInt8) {j : Nat} (hj : j < 16) :
    UInt8.ofNat (value (digit (j * 4 + c.toNat / 64)) % 4 * 64 + value (digit (c.toNat % 64))) =
      c := by
  have hc := c.toNat_lt
  rw [value_digit (by omega), value_digit (by omega)]
  have hsum : (j * 4 + c.toNat / 64) % 4 * 64 + c.toNat % 64 = c.toNat := by omega
  rw [hsum, UInt8.ofNat_toNat]

theorem decode_encode (bs : List UInt8) : decode (encode bs) = bs := by
  induction bs using encode.induct with
  | case1 => rfl
  | case2 a =>
    have ha := first_byte a (k := 0) (by omega)
    simpa [encode, decode] using ha
  | case3 a b =>
    have hb := b.toNat_lt
    have ha := first_byte a (k := b.toNat / 16) (by omega)
    have hb' := second_byte b (j := a.toNat % 4) (k := 0) (by omega) (by omega)
    simp only [encode, decode]
    rw [ha]
    simpa using hb'
  | case4 a b c rest ih =>
    have hb := b.toNat_lt
    have hc := c.toNat_lt
    simp only [encode, decode]
    rw [first_byte a (by omega), second_byte b (by omega) (by omega), third_byte c (by omega), ih]

theorem encode_injective : Function.Injective encode :=
  Function.LeftInverse.injective decode_encode

theorem slash_notMem_encode (bs : List UInt8) : '/' ∉ encode bs := by
  have hne {n : Nat} (hn : n < 64) : '/' ≠ digit n := (digit_ne_slash hn).symm
  induction bs using encode.induct with
  | case1 => simp [encode]
  | case2 a =>
    have ha := a.toNat_lt
    simp only [encode, List.mem_cons, List.not_mem_nil, or_false, not_or]
    exact ⟨hne (by omega), hne (by omega)⟩
  | case3 a b =>
    have ha := a.toNat_lt
    have hb := b.toNat_lt
    simp only [encode, List.mem_cons, List.not_mem_nil, or_false, not_or]
    exact ⟨hne (by omega), hne (by omega), hne (by omega)⟩
  | case4 a b c rest ih =>
    have ha := a.toNat_lt
    have hb := b.toNat_lt
    have hc := c.toNat_lt
    simp only [encode, List.mem_cons, not_or]
    exact ⟨hne (by omega), hne (by omega), hne (by omega), hne (by omega), ih⟩

end Verif.Base64
