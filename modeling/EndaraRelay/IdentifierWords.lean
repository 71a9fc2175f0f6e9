import EndaraRelay.SearchIndex

/-!
# The words of an identifier

`split_identifier` of `js_sandbox.rs` on ASCII strings: what the words of a list of characters may be
(`Words`), and that the loop finds such words and lower-cases them.

**Theorem (`splitIdentifier_ascii`).** The tokens put together are the alphanumeric characters in lower
case, none is empty, and a token ends at a separator, between a letter and a digit, before a capital
after a small letter, or before the last capital of an acronym.

The loop carries the word collected so far; the induction is over the characters that are left.
-/

namespace EndaraRelay

/-! ## ASCII -/

def IsAscii (chars : List Char) : Prop := ∀ c ∈ chars, c.toNat < 128

instance : DecidablePred IsAscii := fun chars =>
  decidable_of_iff (chars.all fun c => c.toNat < 128) (by simp [IsAscii])

/-- The standard library on ASCII characters and strings. -/
structure Unicode.OnAscii (u : Unicode) : Prop where
  isAlphanumeric : ∀ c : Char, c.toNat < 128 → u.isAlphanumeric c = c.isAlphanum
  isLowercase : ∀ c : Char, c.toNat < 128 → u.isLowercase c = c.isLower
  isUppercase : ∀ c : Char, c.toNat < 128 → u.isUppercase c = c.isUpper
  toLowercase : ∀ chars, IsAscii chars →
    u.toLowercase (String.ofList chars) = String.ofList (chars.map Char.toLower)

/-! ## Words -/

/-- Between a letter and a digit. -/
def DigitChange (prev c : Char) : Prop := prev.isDigit ≠ c.isDigit

/-- At a capital after a small letter, or at the last capital of an acronym before a small letter. -/
def CaseChange (prev c : Char) (next : Option Char) : Prop :=
  (prev.isLower ∧ c.isUpper) ∨ (prev.isUpper ∧ c.isUpper ∧ ∃ n ∈ next, n.isLower)

def WordChange (prev c : Char) (next : Option Char) : Prop := DigitChange prev c ∨ CaseChange prev c next

/-- The words of a list of characters. Between two words stands a character that is not alphanumeric, or
the second begins where `change` says one may. -/
inductive Words (change : Char → Char → Option Char → Prop) : List Char → List (List Char) → Prop
  | nil : Words change [] []
  | separator {c rest words} (hc : ¬ c.isAlphanum) (hrest : Words change rest words) :
      Words change (c :: rest) words
  | word {w rest words} (hne : w ≠ []) (hw : ∀ c ∈ w, c.isAlphanum)
      (hend : ∀ d ∈ rest.head?, d.isAlphanum → change (w.getLast hne) d rest.tail.head?)
      (hrest : Words change rest words) : Words change (w ++ rest) (w :: words)

variable {change : Char → Char → Option Char → Prop} {words : List (List Char)}

/-- Words leave out nothing but what is not alphanumeric. -/
theorem Words.flatten {chars : List Char} (h : Words change chars words) :
    words.flatten = chars.filter Char.isAlphanum := by
  induction h with
  | nil => rfl
  | separator hc hrest ih => rw [List.filter_cons_of_neg hc, ih]
  | word hne hw hend hrest ih =>
    rw [List.flatten_cons, List.filter_append, ih, List.filter_eq_self.2 hw]

theorem Words.ne_nil {chars w : List Char} (h : Words change chars words) (hmem : w ∈ words) :
    w ≠ [] := by
  induction h with
  | nil => cases hmem
  | separator hc hrest ih => exact ih hmem
  | word hne hw hend hrest ih =>
    cases hmem with
    | head => exact hne
    | tail _ hmem => exact ih hmem

/-- A token. -/
def lowerWord (w : List Char) : String := String.ofList (w.map Char.toLower)

theorem lowerWord_ne_empty {w : List Char} (h : w ≠ []) : lowerWord w ≠ "" := by
  intro hempty
  have hlist : (lowerWord w).toList = "".toList := congrArg String.toList hempty
  rw [lowerWord, String.toList_ofList] at hlist
  exact h (List.map_eq_nil_iff.1 hlist)

theorem flatMap_lowerWord (words : List (List Char)) :
    (words.map lowerWord).flatMap String.toList = words.flatten.map Char.toLower := by
  induction words with
  | nil => rfl
  | cons w words ih =>
    rw [List.map_cons, List.flatMap_cons, ih, List.flatten_cons, List.map_append, lowerWord, String.toList_ofList]

/-! ## The loop -/

section Loop

variable {u : Unicode} (hu : u.OnAscii)
include hu

theorem wordChange_of_boundary {prev c : Char} {next : Option Char} (hprev : prev.toNat < 128)
    (hc : c.toNat < 128) (hnext : ∀ n ∈ next, n.toNat < 128) (h : wordBoundary u prev c next = true) :
    WordChange prev c next := by
  rw [wordBoundary, hu.isLowercase prev hprev, hu.isUppercase c hc, hu.isUppercase prev hprev,
    Bool.or_eq_true, Bool.or_eq_true, bne_iff_ne, Bool.and_eq_true, Bool.and_eq_true, Bool.and_eq_true,
    Option.any_eq_true] at h
  obtain (hdigit | hcamel) | ⟨⟨hupper, hcap⟩, n, hn, hlower⟩ := h
  · exact .inl hdigit
  · exact .inr (.inl hcamel)
  · rw [hu.isLowercase n (hnext n hn)] at hlower
    exact .inr (.inr ⟨hupper, hcap, n, hn, hlower⟩)

/-- The word collected so far is a word when it may end here. -/
theorem words_flush {current rest : List Char} (hcurrent : ∀ c ∈ current, c.isAlphanum)
    (hascii : IsAscii current) (hend : ∀ hne : current ≠ [], ∀ d ∈ rest.head?, d.isAlphanum →
      WordChange (current.getLast hne) d rest.tail.head?) (hrest : Words WordChange rest words) :
    ∃ words', Words WordChange (current ++ rest) words' ∧
      flushWord u current ++ words.map lowerWord = words'.map lowerWord := by
  by_cases hne : current = []
  · subst hne
    exact ⟨words, hrest, rfl⟩
  · have hflush : flushWord u current = [lowerWord current] := by
      rw [flushWord, if_neg (by rwa [List.isEmpty_iff]), hu.toLowercase current hascii, lowerWord]
    exact ⟨current :: words, .word hne hcurrent (hend hne) hrest, by rw [hflush]; rfl⟩

/-- The loop finds words of what is collected and what is left. -/
theorem splitWords_words {prev : Char} {current rest : List Char} (hprev : ∀ c ∈ current.getLast?, c = prev)
    (hcurrent : ∀ c ∈ current, c.isAlphanum) (hascii : IsAscii (current ++ rest)) :
    ∃ words, Words WordChange (current ++ rest) words ∧ splitWords u prev current rest = words.map lowerWord := by
  induction rest generalizing prev current with
  | nil =>
    rw [List.append_nil] at hascii
    obtain ⟨words, hwords, hmap⟩ := words_flush hu hcurrent hascii (by simp) (Words.nil : Words WordChange [] [])
    exact ⟨words, hwords, by rw [splitWords, ← hmap, List.map_nil, List.append_nil]⟩
  | cons c rest ih =>
    have hcurrentAscii : IsAscii current := fun d hd => hascii d (List.mem_append_left _ hd)
    have hrestAscii : IsAscii (c :: rest) := fun d hd => hascii d (List.mem_append_right _ hd)
    have hc := hrestAscii c List.mem_cons_self
    rw [splitWords, hu.isAlphanumeric c hc]
    by_cases halnum : c.isAlphanum
    · have hone : ∀ d ∈ [c], d.isAlphanum := by simpa using halnum
      rw [halnum, Bool.not_true, if_neg Bool.false_ne_true]
      by_cases hne : current = []
      · subst hne
        exact ih (by simp) hone hrestAscii
      rw [if_neg (by rwa [List.isEmpty_iff])]
      split
      · -- the word ends before `c`
        next hboundary =>
        obtain ⟨words, hwords, hmap⟩ := @ih c [c] (by simp) hone hrestAscii
        rw [hmap]
        refine words_flush hu hcurrent hcurrentAscii (fun _ d hd _ => ?_) hwords
        cases hd
        obtain rfl := hprev _ (List.getLast?_eq_some_getLast hne)
        refine wordChange_of_boundary hu (hcurrentAscii _ (List.getLast_mem hne)) hc (fun n hn => ?_) hboundary
        exact hrestAscii n (List.mem_cons_of_mem _ (List.mem_of_mem_head? hn))
      · have happend : current ++ c :: rest = current ++ [c] ++ rest := List.append_cons _ _ _
        rw [happend] at hascii ⊢
        exact ih (by simp) (List.forall_mem_append.2 ⟨hcurrent, hone⟩) hascii
    · -- a separator
      rw [if_pos (by simpa using halnum)]
      obtain ⟨words, hwords, hmap⟩ := @ih c [] (by simp) (by simp)
        fun d hd => hrestAscii d (List.mem_cons_of_mem _ hd)
      rw [hmap]
      refine words_flush hu hcurrent hcurrentAscii (fun _ d hd hdigit => ?_) (.separator halnum hwords)
      cases hd
      exact absurd hdigit halnum

end Loop

/-! ## The tokens -/

/-- **The tokens of an ASCII identifier** lose nothing but separators and case. -/
theorem splitIdentifier_ascii (u : Unicode) (hu : u.OnAscii) (s : String) (hs : IsAscii s.toList) :
    (splitIdentifier u s).flatMap String.toList = (s.toList.filter Char.isAlphanum).map Char.toLower ∧
      (∀ token ∈ splitIdentifier u s, token ≠ "") ∧
      ∃ words, Words WordChange s.toList words ∧ splitIdentifier u s = words.map lowerWord := by
  obtain ⟨words, hwords, hmap⟩ := @splitWords_words u hu ' ' [] s.toList (by simp) (by simp) hs
  rw [List.nil_append] at hwords
  have htokens : splitIdentifier u s = words.map lowerWord := by
    rw [splitIdentifier, hmap, List.filter_eq_self]
    intro token htoken
    obtain ⟨w, hw, rfl⟩ := List.mem_map.1 htoken
    exact decide_eq_true (lowerWord_ne_empty (hwords.ne_nil hw))
  refine ⟨?_, fun token htoken => ?_, words, hwords, htokens⟩
  · rw [htokens, flatMap_lowerWord, hwords.flatten]
  · exact of_decide_eq_true (List.mem_filter.1 htoken).2

/-- ASCII as the standard library has it; nothing is said of other characters. -/
def asciiUnicode : Unicode where
  isAlphanumeric := Char.isAlphanum
  isLowercase := Char.isLower
  isUppercase := Char.isUpper
  isWhitespace := Char.isWhitespace
  toLowercase s := String.ofList (s.toList.map Char.toLower)

theorem asciiUnicode_onAscii : asciiUnicode.OnAscii where
  isAlphanumeric _ _ := rfl
  isLowercase _ _ := rfl
  isUppercase _ _ := rfl
  toLowercase _ _ := congrArg (fun cs => String.ofList (List.map Char.toLower cs)) String.toList_ofList

theorem splitIdentifier_ascii_camel :
    splitIdentifier asciiUnicode "getHTTPResponse_v2" = ["get", "http", "response", "v", "2"] ∧
      (splitIdentifier asciiUnicode "getHTTPResponse_v2").flatMap String.toList =
        ("getHTTPResponse_v2".toList.filter Char.isAlphanum).map Char.toLower :=
  ⟨by decide, (splitIdentifier_ascii asciiUnicode asciiUnicode_onAscii "getHTTPResponse_v2"
    (by decide)).1⟩

/-- A word also ends between a letter and a digit. -/
theorem splits_at_digit :
    ¬ ∀ u : Unicode, u.OnAscii → ∀ s, IsAscii s.toList →
      ∃ words, Words CaseChange s.toList words ∧ splitIdentifier u s = words.map lowerWord := by
  intro h
  obtain ⟨words, hwords, hmap⟩ := h asciiUnicode asciiUnicode_onAscii "a1" (by decide)
  have htokens : splitIdentifier asciiUnicode "a1" = ["a", "1"] := by decide
  rw [htokens] at hmap
  generalize hchars : "a1".toList = chars at hwords
  have hchars : chars = ['a', '1'] := hchars.symm
  cases hwords with
  | nil => cases hchars
  | separator hc hrest =>
    cases hchars
    exact hc (by decide)
  | @word w rest words hne hw hend hrest =>
    rw [List.map_cons, List.cons.injEq] at hmap
    have hlength : w.length = 1 := by
      have hlower : ['a'] = w.map Char.toLower :=
        (congrArg String.toList hmap.1).trans String.toList_ofList
      rw [← List.length_map (f := Char.toLower), ← hlower, List.length_singleton]
    obtain ⟨d, rfl⟩ := List.length_eq_one_iff.1 hlength
    cases hchars
    have hchange : CaseChange 'a' '1' none := hend '1' rfl (by decide)
    revert hchange
    unfold CaseChange
    simp

end EndaraRelay
