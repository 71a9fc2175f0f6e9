import Mathlib.Data.List.Basic

/-!
# ECMAScript tokens

The part of the lexical grammar that plain scripts are written in: white space, ASCII identifier names,
most punctuators, and string literals with every escape sequence of sloppy mode. What begins otherwise
(numbers, templates, comments, regular expressions, other identifiers) is left to a parameter.

**String literals** (`scanString`). The value of a literal is a list of UTF-16 code units. An escape
sequence denotes fewer units than it is written in (`length_escape`), so the text between two quotes
denotes itself just when each of its characters does (`scanString_iff`): no quote, no backslash, no line
feed and no carriage return.
-/

namespace Verif.Ecma

/-! ## Code units -/

/-- The UTF-16 code units of a code point. -/
def codeUnits (n : ℕ) : List ℕ :=
  if n < 0x10000 then [n] else [0xD800 + (n - 0x10000) / 0x400, 0xDC00 + (n - 0x10000) % 0x400]

def units (text : List Char) : List ℕ := text.flatMap fun c => codeUnits c.toNat

@[simp] theorem units_nil : units [] = [] := rfl

@[simp] theorem units_cons (c : Char) (text : List Char) :
    units (c :: text) = codeUnits c.toNat ++ units text := rfl

@[simp] theorem units_append (a b : List Char) : units (a ++ b) = units a ++ units b := List.flatMap_append

theorem length_codeUnits_pos (n : ℕ) : 0 < (codeUnits n).length := by
  unfold codeUnits
  split
  · exact Nat.one_pos
  · exact Nat.two_pos

theorem length_codeUnits_le (n : ℕ) : (codeUnits n).length ≤ 2 := by
  unfold codeUnits
  split
  · exact Nat.le_succ 1
  · exact Nat.le_refl 2

theorem length_le_length_units (text : List Char) : text.length ≤ (units text).length := by
  induction text with
  | nil => exact Nat.le_refl 0
  | cons c text ih =>
    have := length_codeUnits_pos c.toNat
    rw [units_cons, List.length_append, List.length_cons]
    omega

/-! ## String literals -/

def hexValue (c : Char) : Option ℕ :=
  if '0' ≤ c ∧ c ≤ '9' then some (c.toNat - 48)
  else if 'a' ≤ c ∧ c ≤ 'f' then some (c.toNat - 87)
  else if 'A' ≤ c ∧ c ≤ 'F' then some (c.toNat - 55)
  else none

def isOctal (c : Char) : Bool := '0' ≤ c && c ≤ '7'

/-- The number that digits denote in a base. -/
def ofDigits (base : ℕ) (digits : List ℕ) : ℕ := digits.foldl (fun n d => base * n + d) 0

/-- `n` hexadecimal digits, all of them or none. -/
def hexDigits : ℕ → List Char → Option (List ℕ)
  | 0, _ => some []
  | _ + 1, [] => none
  | n + 1, c :: text =>
    (hexValue c).bind fun digit => (hexDigits n text).map fun digits => digit :: digits

def isLineTerminator (c : Char) : Bool := c == '\n' || c == '\r' || c == '\u2028' || c == '\u2029'

/-- A character after a backslash that stands for itself or for a control character. -/
def singleEscape : Char → ℕ
  | 'b' => 8
  | 't' => 9
  | 'n' => 10
  | 'v' => 11
  | 'f' => 12
  | 'r' => 13
  | c => c.toNat

/-- The code units that a backslash denotes with the text after it, and how much of that text belongs to
it. A line that is continued denotes nothing. -/
def escape : List Char → Option (List ℕ × ℕ)
  | [] => none
  | 'x' :: text => (hexDigits 2 text).map fun digits => ([ofDigits 16 digits], 3)
  | 'u' :: '{' :: text =>
    let digits := (text.takeWhile fun c => (hexValue c).isSome).filterMap hexValue
    if digits ≠ [] ∧ text[digits.length]? = some '}' ∧ ofDigits 16 digits ≤ 0x10FFFF then
      some (codeUnits (ofDigits 16 digits), digits.length + 3)
    else none
  | 'u' :: text => (hexDigits 4 text).map fun digits => ([ofDigits 16 digits], 5)
  | '\r' :: '\n' :: _ => some ([], 2)
  | c :: text =>
    if isLineTerminator c then some ([], 1)
    else if isOctal c then
      let digits := ((c :: text).takeWhile isOctal).take (if c ≤ '3' then 3 else 2)
      some ([ofDigits 8 (digits.map fun c => c.toNat - 48)], digits.length)
    else some (codeUnits (singleEscape c), 1)

/-- Read a string literal after its first quote: its value and the text after its last. The first
argument counts the characters that still belong to an escape sequence. -/
def scanString (quote : Char) : ℕ → List Char → Option (List ℕ × List Char)
  | _, [] => none
  | skip + 1, _ :: text => scanString quote skip text
  | 0, c :: text =>
    if c = quote then some ([], text)
    else if c = '\\' then
      (escape text).bind fun (value, length) =>
        (scanString quote length text).map fun (rest, after) => (value ++ rest, after)
    else if c = '\n' ∨ c = '\r' then none
    else (scanString quote 0 text).map fun (rest, after) => (codeUnits c.toNat ++ rest, after)

/-- A character that stands for itself between two quotes. -/
def Plain (quote c : Char) : Prop := c ≠ quote ∧ c ≠ '\\' ∧ c ≠ '\n' ∧ c ≠ '\r'

instance (quote c : Char) : Decidable (Plain quote c) := inferInstanceAs (Decidable (_ ∧ _))

/-! ## What literals denote -/

theorem length_singleEscape (c : Char) :
    (codeUnits (singleEscape c)).length ≤ (codeUnits c.toNat).length := by
  unfold singleEscape
  split <;> exact Nat.le_refl _

variable {after text : List Char} {value : List ℕ} {quote : Char}

theorem length_hexDigits {n : ℕ} {digits : List ℕ} (h : hexDigits n text = some digits) :
    n ≤ text.length := by
  induction text generalizing n digits with
  | nil =>
    cases n with
    | zero => exact Nat.le_refl 0
    | succ n => cases h
  | cons c text ih =>
    cases n with
    | zero => exact Nat.zero_le _
    | succ n =>
      obtain ⟨digit, -, h⟩ := Option.bind_eq_some_iff.1 h
      obtain ⟨digits', hdigits, -⟩ := Option.map_eq_some_iff.1 h
      exact Nat.succ_le_succ (ih hdigits)

/-- An escape sequence denotes no more code units than the text after its backslash has. -/
theorem length_escape {length : ℕ} (h : escape text = some (value, length)) :
    length ≤ text.length ∧ value.length ≤ (units (text.take length)).length := by
  have hshort : length ≤ text.length → value.length ≤ length →
      length ≤ text.length ∧ value.length ≤ (units (text.take length)).length := by
    intro hle hvalue
    have := length_le_length_units (text.take length)
    rw [List.length_take, Nat.min_eq_left hle] at this
    exact ⟨hle, Nat.le_trans hvalue this⟩
  unfold escape at h
  split at h
  · cases h
  · next text =>
    obtain ⟨digits, hdigits, heq⟩ := Option.map_eq_some_iff.1 h
    cases heq
    have := length_hexDigits hdigits
    exact hshort (by simp only [List.length_cons]; omega) (by simp)
  · next text =>
    dsimp only at h
    split at h
    · next hdigits =>
      cases h
      have hpos := List.length_pos_iff.2 hdigits.1
      have hclose := (List.getElem?_eq_some_iff.1 hdigits.2.1).1
      have htwo := length_codeUnits_le (ofDigits 16 ((text.takeWhile fun c => (hexValue c).isSome).filterMap hexValue))
      exact hshort (by simp only [List.length_cons]; omega) (by omega)
    · cases h
  · next text =>
    obtain ⟨digits, hdigits, heq⟩ := Option.map_eq_some_iff.1 h
    cases heq
    have := length_hexDigits hdigits
    exact hshort (by simp only [List.length_cons]; omega) (by simp)
  · cases h
    exact hshort (by simp) (by simp)
  · next c text _ _ _ _ =>
    split at h
    · cases h
      exact hshort (by simp) (by simp)
    · split at h
      · next hoctal =>
        cases h
        have hrun := (List.takeWhile_prefix isOctal (l := c :: text)).length_le
        refine hshort ?_ ?_
        · simp only [List.length_take]
          omega
        · have hpos : 0 < ((c :: text).takeWhile isOctal).length := by
            rw [List.takeWhile_cons, if_pos hoctal, List.length_cons]
            exact Nat.succ_pos _
          simp only [List.length_take, List.length_singleton]
          split <;> omega
      · cases h
        refine ⟨by simp, ?_⟩
        have := length_singleEscape c
        simpa using this

theorem scanString_plain {body : List Char} (h : ∀ c ∈ body, Plain quote c) (text : List Char) :
    scanString quote 0 (body ++ quote :: text) = some (units body, text) := by
  induction body with
  | nil => rw [List.nil_append, scanString, if_pos rfl, units_nil]
  | cons c body ih =>
    obtain ⟨⟨hquote, hslash, hlf, hcr⟩, hbody⟩ := List.forall_mem_cons.1 h
    have hline : ¬ (c = '\n' ∨ c = '\r') := fun h => h.elim hlf hcr
    rw [List.cons_append, scanString, if_neg hquote, if_neg hslash, if_neg hline, ih hbody]
    rfl

/-- A literal ends at a quote. It denotes the text before that, or fewer code units. -/
theorem scanString_eq_some {skip : ℕ} (h : scanString quote skip text = some (value, after)) :
    ∃ body, text.drop skip = body ++ quote :: after ∧
      (value = units body ∧ (∀ c ∈ body, Plain quote c) ∨ value.length < (units body).length) := by
  induction text generalizing skip value with
  | nil => cases skip <;> cases h
  | cons c text ih =>
    cases skip with
    | succ skip => exact ih h
    | zero =>
      rw [scanString] at h
      by_cases hquote : c = quote
      · rw [if_pos hquote] at h
        cases h
        exact ⟨[], by rw [hquote]; rfl, .inl ⟨rfl, List.forall_mem_nil _⟩⟩
      rw [if_neg hquote] at h
      by_cases hslash : c = '\\'
      · -- the escape sequence makes the value shorter than the body
        rw [if_pos hslash] at h
        obtain ⟨⟨head, length⟩, hescape, h⟩ := Option.bind_eq_some_iff.1 h
        obtain ⟨⟨rest, after'⟩, hscan, heq⟩ := Option.map_eq_some_iff.1 h
        cases heq
        obtain ⟨body, hbody, hvalue⟩ := ih hscan
        obtain ⟨hle, hhead⟩ := length_escape hescape
        have hrest : rest.length ≤ (units body).length := by
          rcases hvalue with ⟨rfl, -⟩ | hlt
          · exact Nat.le_refl _
          · exact Nat.le_of_lt hlt
        have hpos := length_codeUnits_pos c.toNat
        refine ⟨c :: (text.take length ++ body), ?_, .inr ?_⟩
        · rw [List.drop_zero, List.cons_append, List.append_assoc, ← hbody, List.take_append_drop]
        · simp only [units_cons, units_append, List.length_append]
          omega
      · rw [if_neg hslash] at h
        by_cases hline : c = '\n' ∨ c = '\r'
        · rw [if_pos hline] at h
          cases h
        · rw [if_neg hline] at h
          obtain ⟨⟨rest, after'⟩, hscan, heq⟩ := Option.map_eq_some_iff.1 h
          cases heq
          obtain ⟨body, hbody, hvalue⟩ := ih hscan
          refine ⟨c :: body, by rw [List.drop_zero] at hbody ⊢; rw [hbody]; rfl, ?_⟩
          rcases hvalue with ⟨rfl, hplain⟩ | hlt
          · exact .inl ⟨rfl, List.forall_mem_cons.2
              ⟨⟨hquote, hslash, fun h => hline (.inl h), fun h => hline (.inr h)⟩, hplain⟩⟩
          · refine .inr ?_
            rw [units_cons, List.length_append, List.length_append]
            omega

/-! ## The quote a literal ends at

A name may hide the quote after it: a backslash at its end makes that quote part of the value. The value
is not the name then, since it has a quote earlier than the name has. -/

theorem hexDigits_before_quote {n : ℕ} {pre text : List Char} {digits : List ℕ}
    (h : hexDigits n (pre ++ '"' :: text) = some digits) : n ≤ pre.length := by
  induction pre generalizing n digits with
  | nil =>
    cases n with
    | zero => exact Nat.le_refl 0
    | succ n => cases h
  | cons c pre ih =>
    cases n with
    | zero => exact Nat.zero_le _
    | succ n =>
      obtain ⟨digit, -, h⟩ := Option.bind_eq_some_iff.1 h
      obtain ⟨digits', hdigits, -⟩ := Option.map_eq_some_iff.1 h
      exact Nat.succ_le_succ (ih hdigits)

theorem length_takeWhile_before_quote {p : Char → Bool} (hp : p '"' = false) (pre text : List Char) :
    ((pre ++ '"' :: text).takeWhile p).length ≤ pre.length := by
  induction pre with
  | nil => simp [hp]
  | cons c pre ih =>
    rw [List.cons_append, List.takeWhile_cons]
    split
    · exact Nat.succ_le_succ ih
    · exact Nat.zero_le _

/-- An escape sequence does not reach over a quote, unless it is the quote that is escaped. -/
theorem escape_before_quote {pre text : List Char} {value : List ℕ} {length : ℕ}
    (h : escape (pre ++ '"' :: text) = some (value, length)) :
    length ≤ pre.length ∨ pre = [] ∧ value = [34] ∧ length = 1 := by
  cases pre with
  | nil =>
    cases h
    exact .inr ⟨rfl, rfl, rfl⟩
  | cons c pre =>
    refine .inl ?_
    rw [List.cons_append] at h
    unfold escape at h
    split at h
    · next heq => cases heq
    · next heq =>
      cases heq
      obtain ⟨digits, hdigits, heq⟩ := Option.map_eq_some_iff.1 h
      cases heq
      exact Nat.succ_le_succ (hexDigits_before_quote hdigits)
    · next heq =>
      obtain ⟨rfl, hbrace⟩ := List.cons.inj heq
      cases pre with
      | nil => cases hbrace
      | cons c pre =>
        rw [List.cons_append] at hbrace
        obtain ⟨rfl, rfl⟩ := List.cons.inj hbrace
        dsimp only at h
        split at h
        · next hdigits =>
          cases h
          -- the brace that closes stands before the quote
          have hrun := length_takeWhile_before_quote (p := fun c => (hexValue c).isSome) rfl pre text
          have hle := List.length_filterMap_le hexValue
            ((pre ++ '"' :: text).takeWhile fun c => (hexValue c).isSome)
          have hne : (((pre ++ '"' :: text).takeWhile fun c => (hexValue c).isSome).filterMap hexValue).length ≠
              pre.length := by
            intro heq
            have hclose := hdigits.2.1
            rw [heq] at hclose
            simp at hclose
          simp only [List.length_cons]
          omega
        · cases h
    · next heq =>
      cases heq
      obtain ⟨digits, hdigits, heq⟩ := Option.map_eq_some_iff.1 h
      cases heq
      exact Nat.succ_le_succ (hexDigits_before_quote hdigits)
    · next heq =>
      obtain ⟨rfl, hline⟩ := List.cons.inj heq
      cases h
      cases pre with
      | nil => cases hline
      | cons c pre => simp
    · next heq =>
      obtain ⟨rfl, rfl⟩ := List.cons.inj heq
      split at h
      · cases h
        simp
      · split at h
        · cases h
          have hrun := length_takeWhile_before_quote (p := isOctal) rfl (c :: pre) text
          simp only [List.cons_append, List.length_take, List.length_cons] at hrun ⊢
          omega
        · cases h
          simp

theorem quote_mem_units (h : 34 ∈ units text) : '"' ∈ text := by
  obtain ⟨c, hc, hunit⟩ := List.mem_flatMap.1 h
  have hcode : c.toNat = 34 := by
    unfold codeUnits at hunit
    split at hunit
    · exact (List.mem_singleton.1 hunit).symm
    · simp at hunit
      omega
  have : c = '"' := Char.ext (UInt32.toNat_inj.1 hcode)
  exact this ▸ hc

/-- A literal that reaches over the first quote has one in its value, earlier than the text has. -/
theorem scanString_over_quote {pre text after : List Char} {skip : ℕ} {value : List ℕ} (hpre : '"' ∉ pre)
    (hskip : skip ≤ pre.length) (h : scanString '"' skip (pre ++ '"' :: text) = some (value, after)) :
    after = text ∨ ∃ v₁ v₂, value = v₁ ++ 34 :: v₂ ∧ v₁.length < (units (pre.drop skip)).length := by
  induction pre generalizing skip value with
  | nil =>
    obtain rfl : skip = 0 := Nat.le_zero.1 hskip
    rw [List.nil_append, scanString, if_pos rfl] at h
    cases h
    exact .inl rfl
  | cons c pre ih =>
    have hc : c ≠ '"' := fun h => hpre (h ▸ List.mem_cons_self)
    have hrest : '"' ∉ pre := fun h => hpre (List.mem_cons_of_mem c h)
    cases skip with
    | succ skip => exact ih hrest (Nat.le_of_succ_le_succ hskip) h
    | zero =>
      rw [List.cons_append, scanString, if_neg hc] at h
      by_cases hslash : c = '\\'
      · rw [if_pos hslash] at h
        obtain ⟨⟨head, length⟩, hescape, h⟩ := Option.bind_eq_some_iff.1 h
        obtain ⟨⟨rest, after'⟩, hscan, heq⟩ := Option.map_eq_some_iff.1 h
        cases heq
        obtain hle | ⟨rfl, rfl, rfl⟩ := escape_before_quote hescape
        · obtain heq | ⟨v₁, v₂, rfl, hlt⟩ := ih hrest hle hscan
          · exact .inl heq
          · have hhead := (length_escape hescape).2
            rw [List.take_append_of_le_length hle] at hhead
            have hsplit : (units pre).length = (units (pre.take length)).length + (units (pre.drop length)).length := by
              rw [← List.length_append, ← units_append, List.take_append_drop]
            refine .inr ⟨head ++ v₁, v₂, (List.append_assoc ..).symm, ?_⟩
            rw [List.drop_zero, units_cons, List.length_append, List.length_append]
            omega
        · exact .inr ⟨[], rest, rfl, by rw [hslash]; decide⟩
      · rw [if_neg hslash] at h
        by_cases hline : c = '\n' ∨ c = '\r'
        · rw [if_pos hline] at h
          cases h
        · rw [if_neg hline] at h
          obtain ⟨⟨rest, after'⟩, hscan, heq⟩ := Option.map_eq_some_iff.1 h
          cases heq
          obtain heq | ⟨v₁, v₂, rfl, hlt⟩ := ih hrest (Nat.zero_le _) hscan
          · exact .inl heq
          · refine .inr ⟨codeUnits c.toNat ++ v₁, v₂, (List.append_assoc ..).symm, ?_⟩
            rw [List.drop_zero] at hlt
            rw [List.drop_zero, units_cons, List.length_append, List.length_append]
            omega

/-- A text put between two quotes is what the literal that begins there denotes, just when each of its
characters stands for itself; the literal then ends at the second quote. -/
theorem scanString_denotes_iff (body text after : List Char) :
    scanString '"' 0 (body ++ '"' :: text) = some (units body, after) ↔
      (∀ c ∈ body, Plain '"' c) ∧ after = text := by
  constructor
  · intro h
    -- up to the first quote, in the text or after it
    obtain ⟨pre, post, rest, hbody, hsplit, hpre⟩ : ∃ pre post rest, body = pre ++ post ∧
        post ++ '"' :: text = '"' :: rest ∧ '"' ∉ pre := by
      by_cases hquote : '"' ∈ body
      · obtain ⟨pre, post, rfl, hpre⟩ := List.eq_append_cons_of_mem hquote
        exact ⟨pre, '"' :: post, post ++ '"' :: text, rfl, rfl, hpre⟩
      · exact ⟨body, [], text, (List.append_nil _).symm, rfl, hquote⟩
    have hscan : scanString '"' 0 (pre ++ '"' :: rest) = some (units body, after) := by
      rw [← hsplit, ← List.append_assoc, ← hbody]
      exact h
    have hunits : units body = units pre ++ units post := by rw [hbody, units_append]
    obtain rfl | ⟨v₁, v₂, hvalue, hlt⟩ := scanString_over_quote hpre (Nat.zero_le _) hscan
    · -- the literal ends at the first quote
      obtain ⟨body', hbody', hvalue⟩ := scanString_eq_some hscan
      obtain rfl : pre = body' := List.append_cancel_right hbody'
      have hpost : (units body).length = (units pre).length + (units post).length := by
        rw [hunits, List.length_append]
      have hlong := length_le_length_units post
      rcases hvalue with ⟨heq, hplain⟩ | hlt
      · have hnil : post = [] := by
          rw [heq] at hpost
          exact List.length_eq_zero_iff.1 (by omega)
        subst hnil
        rw [List.append_nil] at hbody
        subst hbody
        exact ⟨hplain, (List.cons.inj hsplit).2.symm⟩
      · omega
    · have hmem : 34 ∈ units pre := by
        rw [hunits] at hvalue
        rw [List.drop_zero] at hlt
        have hget := congrArg (fun l => l[v₁.length]?) hvalue
        simp only [List.getElem?_append_right (Nat.le_refl _), Nat.sub_self, List.getElem?_cons_zero,
          List.getElem?_append_left hlt] at hget
        exact List.mem_of_getElem? hget
      exact absurd (quote_mem_units hmem) hpre
  · rintro ⟨hplain, rfl⟩
    exact scanString_plain hplain after

/-! ## Tokens -/

inductive Token where
  | identifier (name : List Char)
  | punctuator (p : List Char)
  | string (value : List ℕ)
  | other (text : List Char)
deriving DecidableEq

def isBlank (c : Char) : Bool :=
  c == ' ' || c == '\t' || c == '\u000b' || c == '\u000c' || c == '\u00a0' || c == '\ufeff' || isLineTerminator c

def isIdentifierStart (c : Char) : Bool := c.isAlpha || c == '$' || c == '_'

def isIdentifierPart (c : Char) : Bool := c.isAlphanum || c == '$' || c == '_'

/-- The punctuators that begin like no other kind of token, the longer ones first. -/
def punctuators : List (List Char) :=
  [['>', '>', '>', '='], ['.', '.', '.'], ['=', '=', '='], ['!', '=', '='], ['*', '*', '='], ['>', '>', '='],
    ['>', '>', '>'], ['&', '&', '='], ['|', '|', '='], ['=', '>'], ['=', '='], ['!', '='], ['>', '='], ['&', '&'],
    ['|', '|'], ['+', '+'], ['+', '='], ['*', '='], ['%', '='], ['&', '='], ['|', '='], ['^', '='], ['>', '>'],
    ['*', '*'], ['{'], ['}'], ['('], [')'], ['['], [']'], [';'], [','], ['>'], ['+'], ['*'], ['%'], ['&'], ['|'],
    ['^'], ['!'], ['~'], [':'], ['='], ['.']]

/-- Whether an identifier in ASCII letters goes on in other characters. -/
def goesOn : List Char → Bool
  | [] => false
  | c :: _ => c == '\\' || 128 ≤ c.toNat

/-- Whether a number begins here. -/
def isFraction : List Char → Bool
  | '.' :: c :: _ => c.isDigit
  | _ => false

section Tokens

-- reads a token that begins otherwise, with the comments before it
variable (other : List Char → Option (Token × List Char))

/-- Read one token: the token and the text after it. -/
def readToken (text : List Char) : Option (Token × List Char) :=
  match text.dropWhile isBlank with
  | [] => none
  | c :: text =>
    if c = '"' ∨ c = '\'' then
      (scanString c 0 text).map fun (value, after) => (.string value, after)
    else if isIdentifierStart c then
      let after := text.dropWhile isIdentifierPart
      if goesOn after then other (c :: text)
      else some (.identifier (c :: text.takeWhile isIdentifierPart), after)
    else if isFraction (c :: text) then other (c :: text)
    else
      match punctuators.find? fun p => p.isPrefixOf (c :: text) with
      | some p => some (.punctuator p, (c :: text).drop p.length)
      | none => other (c :: text)

/-- Read so many tokens. -/
def readTokens : ℕ → List Char → Option (List Token × List Char)
  | 0, text => some ([], text)
  | n + 1, text =>
    (readToken other text).bind fun (token, text) =>
      (readTokens n text).map fun (tokens, after) => (token :: tokens, after)

variable {other}

theorem readTokens_add (m n : ℕ) (text : List Char) :
    readTokens other (m + n) text =
      (readTokens other m text).bind fun (tokens, text) =>
        (readTokens other n text).map fun (tokens', after) => (tokens ++ tokens', after) := by
  induction m generalizing text with
  | zero => simp [readTokens]
  | succ m ih =>
    rw [Nat.succ_add, readTokens, readTokens]
    cases readToken other text with
    | none => rfl
    | some r =>
      obtain ⟨token, text⟩ := r
      simp only [Option.bind_some, ih]
      cases readTokens other m text with
      | none => rfl
      | some r =>
        obtain ⟨tokens, text⟩ := r
        simp only [Option.bind_some, Option.map_some, Option.map_map]
        rfl

theorem length_readTokens {n : ℕ} {tokens : List Token}
    (h : readTokens other n text = some (tokens, after)) : tokens.length = n := by
  induction n generalizing text tokens with
  | zero =>
    cases h
    rfl
  | succ n ih =>
    obtain ⟨⟨token, text'⟩, -, h⟩ := Option.bind_eq_some_iff.1 h
    obtain ⟨⟨tokens', after'⟩, htokens, heq⟩ := Option.map_eq_some_iff.1 h
    cases heq
    rw [List.length_cons, ih htokens]

/-- Tokens in two parts: the second begins where the first ends. -/
theorem readTokens_append_eq_some {first second : List Token} :
    readTokens other (first.length + second.length) text = some (first ++ second, after) ↔
      ∃ rest, readTokens other first.length text = some (first, rest) ∧
        readTokens other second.length rest = some (second, after) := by
  rw [readTokens_add]
  constructor
  · intro h
    obtain ⟨⟨tokens, rest⟩, hfirst, h⟩ := Option.bind_eq_some_iff.1 h
    obtain ⟨⟨tokens', after'⟩, hsecond, heq⟩ := Option.map_eq_some_iff.1 h
    obtain ⟨happend, rfl⟩ := Prod.mk.inj heq
    obtain ⟨rfl, rfl⟩ := List.append_inj happend (length_readTokens hfirst)
    exact ⟨rest, hfirst, hsecond⟩
  · rintro ⟨rest, hfirst, hsecond⟩
    simp only [hfirst, Option.bind_some, hsecond, Option.map_some]

theorem readToken_string (text : List Char) :
    readToken other ('"' :: text) = (scanString '"' 0 text).map fun (value, after) => (.string value, after) := rfl

end Tokens

end Verif.Ecma
