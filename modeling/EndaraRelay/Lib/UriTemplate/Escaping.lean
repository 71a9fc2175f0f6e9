import EndaraRelay.Lib.UriTemplate
import EndaraRelay.Lib.Utf8

/-!
# Escaping and URI templates

What becomes of a value and of the text of an expression when everything but unreserved characters is
escaped.

- `eq_encodeUnreserved_iff`: escaping lengthens a text unless it is unreserved throughout. Since it
  never shortens, concatenations of texts agree with their escaped form only piece by piece
  (`flatMap_eq_flatMap_iff`, `intercalate_map_eq_iff`).
- `parseBody_encodeUnreserved`: an escaped expression is still an expression, but one with a single
  variable, whose name has taken in operator, commas and modifiers.
- `plainText_eq_iff`: when the text of a variable by itself needs no escaping.
-/

namespace Verif.UriTemplate

/-! ## Concatenations that agree -/

section Concatenations

variable {α β : Type}

theorem length_flatMap_le {f g : α → List β} {l : List α}
    (h : ∀ x ∈ l, (f x).length ≤ (g x).length) : (l.flatMap f).length ≤ (l.flatMap g).length := by
  induction l with
  | nil => exact Nat.le_refl _
  | cons x l ih =>
    have hx := h x List.mem_cons_self
    have hl := ih fun y hy => h y (List.mem_cons_of_mem _ hy)
    simp only [List.flatMap_cons, List.length_append]
    omega

/-- Pieces that are nowhere longer concatenate to the same list only if they are the same. -/
theorem flatMap_eq_flatMap_iff {f g : α → List β} {l : List α}
    (h : ∀ x ∈ l, (f x).length ≤ (g x).length) :
    l.flatMap f = l.flatMap g ↔ ∀ x ∈ l, f x = g x := by
  refine ⟨fun heq => ?_, List.flatMap_congr⟩
  induction l with
  | nil => exact fun x hx => absurd hx List.not_mem_nil
  | cons x l ih =>
    have hx := h x List.mem_cons_self
    have hl := length_flatMap_le fun y hy => h y (List.mem_cons_of_mem _ hy)
    have hlen := congrArg List.length heq
    simp only [List.flatMap_cons, List.length_append] at heq hlen
    obtain ⟨hhead, htail⟩ := List.append_inj heq (by omega)
    intro y hy
    obtain rfl | hy := List.mem_cons.1 hy
    · exact hhead
    · exact ih (fun z hz => h z (List.mem_cons_of_mem _ hz)) htail y hy

variable {sep : List β}

theorem length_intercalate_map_le {f : List β → List β} {l : List (List β)}
    (h : ∀ w ∈ l, w.length ≤ (f w).length) :
    (sep.intercalate l).length ≤ (sep.intercalate (l.map f)).length := by
  induction l with
  | nil => exact Nat.le_refl _
  | cons w l ih =>
    have hw := h w List.mem_cons_self
    cases l with
    | nil => simpa using hw
    | cons v l =>
      have hl := ih fun y hy => h y (List.mem_cons_of_mem _ hy)
      simp only [List.map_cons, List.intercalate_cons_cons, List.length_append] at hl ⊢
      omega

theorem intercalate_map_eq_iff {f : List β → List β} {l : List (List β)}
    (h : ∀ w ∈ l, w.length ≤ (f w).length) :
    sep.intercalate l = sep.intercalate (l.map f) ↔ ∀ w ∈ l, w = f w := by
  induction l with
  | nil => simp
  | cons w l ih =>
    have hw := h w List.mem_cons_self
    cases l with
    | nil => simp
    | cons v l =>
      have htail : ∀ y ∈ v :: l, y.length ≤ (f y).length :=
        fun y hy => h y (List.mem_cons_of_mem _ hy)
      have hl : (sep.intercalate (v :: l)).length ≤ (sep.intercalate ((v :: l).map f)).length :=
        length_intercalate_map_le htail
      rw [List.forall_mem_cons, ← ih htail]
      simp only [List.map_cons, List.intercalate_cons_cons] at hl ⊢
      refine ⟨fun heq => ?_, fun ⟨hhead, hrest⟩ => by rw [← hhead, ← hrest]⟩
      have hlen := congrArg List.length heq
      simp only [List.length_append, List.append_assoc] at hlen
      rw [List.append_assoc, List.append_assoc] at heq
      obtain ⟨hhead, hrest⟩ := List.append_inj heq (by omega)
      exact ⟨hhead, List.append_cancel_left hrest⟩

end Concatenations

/-! ## Escaping -/

variable {c : Char} {s : List Char} {v : VarSpec} {specs : List VarSpec} {op : Operator}

theorem unreserved_lt (h : unreserved c = true) : c.toNat < 128 := by
  simp only [unreserved, Bool.or_eq_true, decide_eq_true_eq, Utf8.isAlphanum_iff] at h
  obtain (((h | rfl) | rfl) | rfl) | rfl := h
  · omega
  all_goals decide

theorem keeps_escapes (c : Char) : Percent.keeps escapes c = unreserved c := by
  by_cases hc : c.toNat < 128
  · have hbyte : (UInt8.ofNat c.toNat).toNat = c.toNat := by
      simp only [UInt8.toNat_ofNat']
      omega
    simp [Percent.keeps, escapes, hbyte, hc]
  · have hnot : ¬ unreserved c = true := fun h => hc (unreserved_lt h)
    simp [Percent.keeps, hc, hnot]

theorem escapes_percentSign : escapes Percent.percentSign = true := by decide

theorem escapes_of_not_ascii (b : UInt8) (hb : 128 ≤ b.toNat) : escapes b = true := by
  have hlt : b.toNat < 256 := UInt8.toNat_lt b
  have hvalid : b.toNat.isValidChar := .inl (by omega)
  have hval : (Char.ofNat b.toNat).toNat = b.toNat := by
    rw [Char.ofNat, dif_pos hvalid]
    rfl
  rw [escapes, Bool.not_eq_true', Bool.eq_false_iff]
  intro h
  have := unreserved_lt h
  omega

theorem encodeChar_of_unreserved (h : unreserved c = true) : Percent.encodeChar escapes c = [c] :=
  Percent.encodeChar_of_keeps ((keeps_escapes c).trans h)

theorem encodeChar_of_not_unreserved (h : unreserved c = false) :
    Percent.encodeChar escapes c = (String.utf8EncodeChar c).flatMap Percent.triplet :=
  Percent.encodeChar_of_not_keeps escapes_of_not_ascii ((keeps_escapes c).trans h)

theorem isHex_hexDigit {n : Nat} (hn : n < 16) :
    isHex (Char.ofNat (Percent.hexDigit n).toNat) = true := by
  revert n
  decide

/-- A triplet is a percent sign and two hexadecimal digits. -/
theorem triplet_eq (b : UInt8) :
    ∃ h l, Percent.triplet b = ['%', h, l] ∧ isHex h = true ∧ isHex l = true := by
  have hb : b.toNat < 256 := UInt8.toNat_lt b
  exact ⟨_, _, rfl, isHex_hexDigit (by omega), isHex_hexDigit (by omega)⟩

theorem isAlphanum_of_isHex (h : isHex c = true) : c.isAlphanum = true := by
  simp only [isHex, Bool.or_eq_true, Bool.and_eq_true, decide_eq_true_eq, Utf8.isDigit_iff] at h
  change ((48 ≤ c.toNat ∧ c.toNat ≤ 57) ∨ (65 ≤ c.toNat ∧ c.toNat ≤ 70)) ∨
    (97 ≤ c.toNat ∧ c.toNat ≤ 102) at h
  rw [Utf8.isAlphanum_iff]
  omega

theorem isAlphanum_of_isDigit (h : c.isDigit = true) : c.isAlphanum = true :=
  Utf8.isAlphanum_iff.2 (.inr (Utf8.isDigit_iff.1 h))

theorem unreserved_of_isHex (h : isHex c = true) : unreserved c = true := by
  simp [unreserved, isAlphanum_of_isHex h]

theorem unreserved_of_varChar (h : varChar c = true) : unreserved c = true := by
  simp only [varChar, Bool.or_eq_true] at h
  obtain h | h := h
  · simp [unreserved, h]
  · simp [unreserved, h]

theorem varChar_of_isHex (h : isHex c = true) : varChar c = true := by
  simp [varChar, isAlphanum_of_isHex h]

@[simp] theorem encodeUnreserved_nil : encodeUnreserved [] = [] := rfl

@[simp] theorem encodeUnreserved_cons (c : Char) (s : List Char) :
    encodeUnreserved (c :: s) = Percent.encodeChar escapes c ++ encodeUnreserved s := rfl

@[simp] theorem encodeUnreserved_append (s t : List Char) :
    encodeUnreserved (s ++ t) = encodeUnreserved s ++ encodeUnreserved t :=
  List.flatMap_append

/-- An escaped character has only unreserved characters and percent signs. -/
theorem mem_encodeChar {c d : Char} (h : d ∈ Percent.encodeChar escapes c) :
    unreserved d = true ∨ d = '%' := by
  cases hc : unreserved c with
  | true =>
    rw [encodeChar_of_unreserved hc, List.mem_singleton] at h
    exact .inl (h ▸ hc)
  | false =>
    rw [encodeChar_of_not_unreserved hc] at h
    obtain ⟨b, -, hd⟩ := List.mem_flatMap.1 h
    obtain ⟨x, y, htriplet, hx, hy⟩ := triplet_eq b
    rw [htriplet] at hd
    simp only [List.mem_cons, List.not_mem_nil, or_false] at hd
    obtain rfl | rfl | rfl := hd
    · exact .inr rfl
    · exact .inl (unreserved_of_isHex hx)
    · exact .inl (unreserved_of_isHex hy)

theorem mem_encodeUnreserved {d : Char} (h : d ∈ encodeUnreserved s) :
    unreserved d = true ∨ d = '%' := by
  obtain ⟨c, -, hd⟩ := List.mem_flatMap.1 h
  exact mem_encodeChar hd

theorem length_encodeChar_of_not_unreserved (h : unreserved c = false) :
    1 < (Percent.encodeChar escapes c).length := by
  rw [encodeChar_of_not_unreserved h]
  obtain ⟨b, bs, hbytes⟩ := List.exists_cons_of_ne_nil (String.utf8EncodeChar_ne_nil (c := c))
  obtain ⟨x, y, htriplet, -, -⟩ := triplet_eq b
  simp [hbytes, htriplet]

theorem one_le_length_encodeChar (c : Char) : 1 ≤ (Percent.encodeChar escapes c).length := by
  cases hc : unreserved c with
  | true => simp [encodeChar_of_unreserved hc]
  | false => exact Nat.le_of_lt (length_encodeChar_of_not_unreserved hc)

theorem encodeChar_eq_iff : [c] = Percent.encodeChar escapes c ↔ unreserved c = true := by
  refine ⟨fun h => ?_, fun h => (encodeChar_of_unreserved h).symm⟩
  cases hc : unreserved c with
  | true => rfl
  | false =>
    have hlen := length_encodeChar_of_not_unreserved hc
    rw [← h] at hlen
    exact absurd hlen (Nat.lt_irrefl 1)

theorem length_le_encodeUnreserved (s : List Char) : s.length ≤ (encodeUnreserved s).length := by
  have h := length_flatMap_le (f := fun c => [c]) (l := s) fun c _ => one_le_length_encodeChar c
  rwa [List.flatMap_singleton'] at h

/-- **Escaping leaves a text alone** exactly when it is unreserved throughout. -/
theorem eq_encodeUnreserved_iff : s = encodeUnreserved s ↔ ∀ c ∈ s, unreserved c = true := by
  have h := flatMap_eq_flatMap_iff (f := fun c => [c]) (l := s) fun c _ =>
    one_le_length_encodeChar c
  rw [List.flatMap_singleton'] at h
  rw [encodeUnreserved, h]
  exact forall_congr' fun c => imp_congr_right fun _ => encodeChar_eq_iff

/-! ## Names -/

theorem varChar_ne_dot (h : varChar c = true) : c ≠ '.' := by
  rintro rfl
  exact absurd h (by decide)

theorem finishesName_varChar (h : varChar c = true) (mayEnd : Bool) (s : List Char) :
    finishesName mayEnd (c :: s) = finishesName true s := by
  rw [finishesName, if_neg (varChar_ne_dot h), h, Bool.true_or, Bool.true_and]

theorem finishesName_triplets {bs : List UInt8} (hne : bs ≠ []) (mayEnd : Bool) (s : List Char) :
    finishesName mayEnd (bs.flatMap Percent.triplet ++ s) = finishesName true s := by
  induction bs generalizing mayEnd with
  | nil => exact absurd rfl hne
  | cons b bs ih =>
    have htail : finishesName true (bs.flatMap Percent.triplet ++ s) = finishesName true s := by
      by_cases hbs : bs = []
      · rw [hbs, List.flatMap_nil, List.nil_append]
      · exact ih hbs true
    obtain ⟨x, y, htriplet, hx, hy⟩ := triplet_eq b
    rw [List.flatMap_cons, htriplet]
    simp only [List.cons_append, List.nil_append]
    rw [finishesName, if_neg (by decide), startsHexPair, hx, hy,
      finishesName_varChar (varChar_of_isHex hx), finishesName_varChar (varChar_of_isHex hy), htail]
    rfl

/-- Wherever an escaped character may stand in a name, the name may end after it. -/
theorem finishesName_encodeChar (hc : unreserved c = true → varChar c = true) (mayEnd : Bool)
    (s : List Char) :
    finishesName mayEnd (Percent.encodeChar escapes c ++ s) = finishesName true s := by
  cases h : unreserved c with
  | true =>
    rw [encodeChar_of_unreserved h]
    exact finishesName_varChar (hc h) mayEnd s
  | false =>
    rw [encodeChar_of_not_unreserved h]
    exact finishesName_triplets String.utf8EncodeChar_ne_nil mayEnd s

/-- An escaped name is a name, and so is what it begins. -/
theorem finishesName_encode {mayEnd mayEnd' : Bool} (h : finishesName mayEnd s = true)
    (hm : mayEnd = true → mayEnd' = true) (r : List Char) :
    finishesName mayEnd' (encodeUnreserved s ++ r) = finishesName true r := by
  induction s generalizing mayEnd mayEnd' with
  | nil => rw [hm h, encodeUnreserved_nil, List.nil_append]
  | cons c s ih =>
    rw [finishesName] at h
    rw [encodeUnreserved_cons, List.append_assoc]
    split at h
    · next hdot =>
      rw [Bool.and_eq_true] at h
      rw [hdot, encodeChar_of_unreserved (by decide), List.cons_append, List.nil_append,
        finishesName, if_pos rfl, hm h.1, Bool.true_and]
      exact ih h.2 id
    · rw [Bool.and_eq_true] at h
      rw [finishesName_encodeChar]
      · exact ih h.2 id
      · intro hunreserved
        simp only [Bool.or_eq_true, Bool.and_eq_true, decide_eq_true_eq] at h
        obtain hvar | hpercent := h.1
        · exact hvar
        · rw [hpercent.1] at hunreserved
          exact absurd hunreserved (by decide)

/-- The text of a variable: its name, and a modifier. -/
theorem parseVarSpec_eq (h : parseVarSpec s = some v) :
    isName v.name = true ∧
      (s = v.name ∧ v.modifier = .none ∨ s = v.name ++ ['*'] ∨
        ∃ digits, s = v.name ++ ':' :: digits ∧ ∀ d ∈ digits, d.isDigit = true) := by
  have hsplit : [':'].intercalate (s.splitOn ':') = s := List.intercalate_splitOn ':'
  unfold parseVarSpec at h
  split at h
  · next s' heq =>
    rw [heq, List.intercalate_singleton] at hsplit
    subst hsplit
    split at h
    · next hlast =>
      split at h
      · next hname =>
        cases h
        refine ⟨hname, .inr (.inl ?_)⟩
        obtain ⟨hne, hlast⟩ := List.getLast?_eq_some_iff.1 hlast
        rw [hlast]
        simp
      · cases h
    · split at h
      · next hname =>
        cases h
        exact ⟨hname, .inl ⟨rfl, rfl⟩⟩
      · cases h
  · next name digits heq =>
    rw [heq, List.intercalate_cons_cons, List.intercalate_singleton] at hsplit
    split at h
    · next hok =>
      cases h
      rw [Bool.and_eq_true] at hok
      refine ⟨hok.1, .inr (.inr ⟨digits, by rw [← hsplit]; simp, fun d hd => ?_⟩)⟩
      cases digits with
      | nil => exact absurd hd List.not_mem_nil
      | cons c digits =>
        simp only [isMaxLength, Bool.and_eq_true, List.all_eq_true] at hok
        exact hok.2.1.2 d hd
    · cases h
  · cases h

/-! ## Escaping the text of an expression -/

theorem finishesName_digits {digits : List Char} (h : ∀ d ∈ digits, d.isDigit = true)
    (r : List Char) : finishesName true (encodeUnreserved digits ++ r) = finishesName true r := by
  induction digits with
  | nil => rfl
  | cons d digits ih =>
    have hvar : varChar d = true := by
      simp [varChar, isAlphanum_of_isDigit (h d List.mem_cons_self)]
    rw [encodeUnreserved_cons, encodeChar_of_unreserved (unreserved_of_varChar hvar),
      List.append_assoc, List.cons_append, finishesName_varChar hvar, List.nil_append]
    exact ih fun d hd => h d (List.mem_cons_of_mem _ hd)

/-- An escaped variable, its modifier included, reads as the beginning of a name. -/
theorem finishesName_encodeSpec (h : parseVarSpec s = some v) (mayEnd : Bool) (r : List Char) :
    finishesName mayEnd (encodeUnreserved s ++ r) = finishesName true r := by
  obtain ⟨hname, hcases⟩ := parseVarSpec_eq h
  have hbegin : ∀ r, finishesName mayEnd (encodeUnreserved v.name ++ r) = finishesName true r :=
    finishesName_encode hname fun hfalse => absurd hfalse Bool.false_ne_true
  obtain ⟨hs, -⟩ | hs | ⟨digits, hs, hdigits⟩ := hcases
  · rw [hs]
    exact hbegin r
  · rw [hs, encodeUnreserved_append, List.append_assoc, hbegin, encodeUnreserved_cons,
      List.append_assoc, finishesName_encodeChar (by decide)]
    rfl
  · rw [hs, encodeUnreserved_append, List.append_assoc, hbegin, encodeUnreserved_cons,
      List.append_assoc, finishesName_encodeChar (by decide), finishesName_digits hdigits]

theorem finishesName_encodeList {texts : List (List Char)} (h : texts.mapM parseVarSpec = some specs)
    (hne : texts ≠ []) (mayEnd : Bool) (r : List Char) :
    finishesName mayEnd (encodeUnreserved ([','].intercalate texts) ++ r) = finishesName true r := by
  induction texts generalizing specs mayEnd with
  | nil => exact absurd rfl hne
  | cons s texts ih =>
    rw [List.mapM_cons] at h
    obtain ⟨v, hv, h⟩ := Option.bind_eq_some_iff.1 h
    obtain ⟨rest, hrest, -⟩ := Option.bind_eq_some_iff.1 h
    cases texts with
    | nil =>
      rw [List.intercalate_singleton]
      exact finishesName_encodeSpec hv mayEnd r
    | cons t texts =>
      rw [List.intercalate_cons_cons, encodeUnreserved_append, encodeUnreserved_append,
        List.append_assoc, List.append_assoc, finishesName_encodeSpec hv, encodeUnreserved_cons,
        List.append_assoc, finishesName_encodeChar (by decide)]
      exact ih hrest (List.cons_ne_nil _ _) true

theorem finishesName_encodeVarList (h : parseVarList s = some specs) (mayEnd : Bool) :
    finishesName mayEnd (encodeUnreserved s) = true := by
  have hlist := finishesName_encodeList h (List.splitOn_ne_nil ',' s) mayEnd []
  rw [List.intercalate_splitOn, List.append_nil] at hlist
  exact hlist

theorem notMem_encodeUnreserved {c : Char} (hc : unreserved c = false) (hne : c ≠ '%')
    (s : List Char) : c ∉ encodeUnreserved s := by
  intro h
  obtain h | h := mem_encodeUnreserved h
  · exact absurd (hc.symm.trans h) Bool.false_ne_true
  · exact hne h

/-- An escaped name is read as one variable without a modifier. -/
theorem parseVarList_encodeUnreserved (h : isName (encodeUnreserved s) = true) :
    parseVarList (encodeUnreserved s) = some [⟨encodeUnreserved s, .none⟩] := by
  have hcomma := notMem_encodeUnreserved (c := ',') (by decide) (by decide) s
  have hcolon := notMem_encodeUnreserved (c := ':') (by decide) (by decide) s
  have hstar : (encodeUnreserved s).getLast? ≠ some '*' := fun hlast =>
    notMem_encodeUnreserved (by decide) (by decide) s (List.mem_of_getLast? hlast)
  have hspec : parseVarSpec (encodeUnreserved s) = some ⟨encodeUnreserved s, .none⟩ := by
    unfold parseVarSpec
    rw [List.splitOn_eq_singleton hcolon]
    simp only [hstar, if_false, h, if_true]
  rw [parseVarList, List.splitOn_eq_singleton hcomma, List.mapM_cons, hspec]
  rfl

/-- Which operator is read from an escaped expression: a dot is the only one that escaping keeps. -/
def readOperator (body : List Char) : Operator :=
  if body.head? = some '.' then .label else .simple

/-- Which name is read from an escaped expression: the whole of it, modifiers included. -/
def readName (body : List Char) : List Char :=
  encodeUnreserved (if body.head? = some '.' then body.tail else body)

/-- An escaped character starts with a percent sign. -/
theorem encodeChar_cons_of_not_unreserved (h : unreserved c = false) :
    ∃ s, Percent.encodeChar escapes c = '%' :: s := by
  obtain ⟨b, bs, hbytes⟩ := List.exists_cons_of_ne_nil (String.utf8EncodeChar_ne_nil (c := c))
  obtain ⟨x, y, htriplet, -, -⟩ := triplet_eq b
  rw [encodeChar_of_not_unreserved h, hbytes, List.flatMap_cons, htriplet]
  exact ⟨x :: y :: bs.flatMap Percent.triplet, rfl⟩

theorem parseBody_of_head (h : Operator.ofChar c = none) :
    parseBody (c :: s) = (parseVarList (c :: s)).map fun specs => (.simple, specs) := by
  rw [parseBody, h]

theorem ofChar_dot : Operator.ofChar '.' = some .label := by decide

theorem ofChar_of_unreserved {c : Char} (h : unreserved c = true) (hne : c ≠ '.') :
    Operator.ofChar c = none := by
  have hother : ∀ d, unreserved d = false → c ≠ d := by
    rintro d hd rfl
    exact absurd (hd.symm.trans h) Bool.false_ne_true
  simp [Operator.ofChar, hne, hother '+' (by decide), hother '#' (by decide),
    hother '/' (by decide), hother ';' (by decide), hother '?' (by decide), hother '&' (by decide)]

/-- **An escaped expression is one variable**, without operator and modifier, or with the label
operator. -/
theorem parseBody_encodeUnreserved {body : List Char} (h : parseBody body = some (op, specs)) :
    parseBody (encodeUnreserved body) =
      some (readOperator body, [⟨readName body, .none⟩]) := by
  cases body with
  | nil => cases h
  | cons c s =>
    by_cases hdot : c = '.'
    · subst hdot
      rw [parseBody, ofChar_dot] at h
      obtain ⟨specs', hspecs, -⟩ := Option.map_eq_some_iff.1 h
      have hname := finishesName_encodeVarList hspecs false
      rw [encodeUnreserved_cons, encodeChar_of_unreserved (by decide), List.cons_append,
        List.nil_append, parseBody, ofChar_dot]
      simp only [parseVarList_encodeUnreserved hname]
      rfl
    · have hname : isName (encodeUnreserved (c :: s)) = true := by
        rw [parseBody] at h
        split at h
        · next op' hop =>
          obtain ⟨specs', hspecs, -⟩ := Option.map_eq_some_iff.1 h
          have hc : unreserved c = true → varChar c = true := fun hunreserved => by
            rw [ofChar_of_unreserved hunreserved hdot] at hop
            cases hop
          rw [encodeUnreserved_cons, isName, finishesName_encodeChar hc]
          exact finishesName_encodeVarList hspecs true
        · obtain ⟨specs', hspecs, -⟩ := Option.map_eq_some_iff.1 h
          exact finishesName_encodeVarList hspecs false
      have hhead : ∃ d t, encodeUnreserved (c :: s) = d :: t ∧ Operator.ofChar d = none := by
        cases hc : unreserved c with
        | true =>
          rw [encodeUnreserved_cons, encodeChar_of_unreserved hc]
          exact ⟨c, encodeUnreserved s, rfl, ofChar_of_unreserved hc hdot⟩
        | false =>
          obtain ⟨t, ht⟩ := encodeChar_cons_of_not_unreserved hc
          rw [encodeUnreserved_cons, ht]
          exact ⟨'%', t ++ encodeUnreserved s, rfl, by decide⟩
      obtain ⟨d, t, hd, hnone⟩ := hhead
      have hne : (c :: s).head? ≠ some '.' := fun heq => hdot (Option.some.inj heq)
      rw [readOperator, readName, if_neg hne, if_neg hne, hd, parseBody_of_head hnone, ← hd,
        parseVarList_encodeUnreserved hname]
      rfl

/-! ## A variable by itself -/

/-- The texts that a value is written with. -/
def Value.words : Value → List (List Char)
  | .string s => [s]
  | .list items => items
  | .pairs items => items.flatMap fun p => [p.1, p.2]

/-- The expansion of one variable without modifier, whose words are written by `f`. -/
def plainText (f : List Char → List Char) (op : Operator) : Option Value → List Char
  | none => []
  | some value =>
    if value.words = [] then [] else op.first ++ [','].intercalate (value.words.map f)

theorem expandVars_single {σ : Assignment} (h : op.named = false) (name : List Char) :
    expandVars σ op [⟨name, .none⟩] = plainText op.encode op (σ name) := by
  unfold expandVars plainText
  cases hvalue : σ name with
  | none => simp [hvalue]
  | some value =>
    cases value with
    | string s => simp [hvalue, VarSpec.expandValue, h, Value.words]
    | list items =>
      cases items with
      | nil => simp [hvalue, VarSpec.expandValue, Value.words]
      | cons i items => simp [hvalue, VarSpec.expandValue, h, Value.words]
    | pairs items =>
      cases items with
      | nil => simp [hvalue, VarSpec.expandValue, Value.words]
      | cons p items => simp [hvalue, VarSpec.expandValue, h, Value.words, List.map_flatMap]

/-- Without escaping, the text of a variable is not longer; it is the same when every word is
unreserved. -/
theorem plainText_eq_iff (op : Operator) (value : Option Value) :
    plainText id op value = plainText encodeUnreserved op value ↔
      ∀ v, value = some v → ∀ w ∈ v.words, ∀ c ∈ w, unreserved c = true := by
  cases value with
  | none => simp [plainText]
  | some v =>
    simp only [plainText, Option.some.injEq, forall_eq']
    split
    · next h => simp [h]
    · rw [List.map_id, List.append_right_inj,
        intercalate_map_eq_iff fun w _ => length_le_encodeUnreserved w]
      exact forall_congr' fun w => imp_congr_right fun _ => eq_encodeUnreserved_iff

theorem length_plainText_le (op : Operator) (value : Option Value) :
    (plainText id op value).length ≤ (plainText encodeUnreserved op value).length := by
  cases value with
  | none => exact Nat.le_refl _
  | some v =>
    simp only [plainText]
    split
    · exact Nat.le_refl _
    · rw [List.map_id, List.length_append, List.length_append]
      exact Nat.add_le_add_left
        (length_intercalate_map_le fun w _ => length_le_encodeUnreserved w) _

end Verif.UriTemplate
