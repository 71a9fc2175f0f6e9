import EndaraRelay.Lib.FormUrlencoded
import EndaraRelay.Lib.Ip

/-!
# Hosts of web URLs

The host of a URL with a special scheme: an address, or a domain that is unescaped and brought to ASCII.

**Domains.** The tables behind a domain in ASCII are not spelled out: `HostRules` takes the mapping of its
characters, the form of one label and the check of the labels, and the readers of addresses. `Lawful` says what is
relied on: the mapping works between dots, and lower-case letters are in ASCII as they stand.

* `ascii_append`: a domain is brought to ASCII between its dots.
* `parseHost_append`: a host that ends in a plain domain is what comes before it, with that domain behind.
* `parseHost_plain`: a plain domain is itself.
-/

namespace Verif.WebHost

open Percent FormUrlencoded

inductive Host where
  | domain (name : List Char)
  | address (ip : Ip)
deriving DecidableEq

/-- What is left to tables. -/
structure HostRules where
  /-- The characters of a domain, mapped and normalized. -/
  mapped : List Char → List Char
  /-- A label in ASCII. -/
  asciiLabel : List Char → List Char
  /-- No error in the labels of a mapped domain. -/
  valid : List (List Char) → Bool
  ipv4 : List Char → Option Ipv4
  ipv6 : List Char → Option Ipv6

def lower (c : Char) : Bool := 'a' ≤ c ∧ c ≤ 'z'

def Letters (label : List Char) : Prop := ∀ c ∈ label, lower c = true

instance (label : List Char) : Decidable (Letters label) := List.decidableBAll _ label

/-- Labels of lower-case letters. -/
def PlainDomain (d : List Char) : Prop := ∀ label ∈ d.splitOn '.', label ≠ [] ∧ Letters label

instance (d : List Char) : Decidable (PlainDomain d) :=
  inferInstanceAs (Decidable (∀ label ∈ d.splitOn '.', label ≠ [] ∧ Letters label))

/-- What is known of the tables. -/
structure HostRules.Lawful (rules : HostRules) : Prop where
  mapped_append : ∀ x y, rules.mapped (x ++ '.' :: y) = rules.mapped x ++ '.' :: rules.mapped y
  mapped_letters : ∀ x, Letters x → rules.mapped x = x
  asciiLabel_letters : ∀ x, Letters x → rules.asciiLabel x = x
  valid_letters : ∀ labels, (∀ x ∈ labels, Letters x) → rules.valid labels = true

/-! ## Reading a host -/

/-- The text that escaped bytes stand for. -/
def unescaped (t : List Char) : List Char := Utf8.decodeLossy none (decode (Utf8.encode t))

def HostRules.labels (rules : HostRules) (d : List Char) : List (List Char) := (rules.mapped d).splitOn '.'

/-- A domain in ASCII, whether or not it is valid. -/
def HostRules.ascii (rules : HostRules) (d : List Char) : List Char :=
  ['.'].intercalate ((rules.labels d).map rules.asciiLabel)

/-- The forbidden domain code points. -/
def isForbidden (c : Char) : Bool := c.toNat ≤ 0x1F || c.toNat = 0x7F || " #/:<>?@[\\]^|%".toList.contains c

def isHexDigit (c : Char) : Bool := c.isDigit || ('a' ≤ c && c ≤ 'f') || ('A' ≤ c && c ≤ 'F')

/-- Reads as the number of an address: `0x` with nothing behind it is one too. -/
def isNumber : List Char → Bool
  | [] => false
  | '0' :: 'x' :: hex => hex.all isHexDigit
  | '0' :: 'X' :: hex => hex.all isHexDigit
  | digits => digits.all Char.isDigit

/-- The domains that have to be addresses; one dot at the end does not count. -/
def endsInNumber (d : List Char) : Bool :=
  match (d.splitOn '.').reverse with
  | [] :: last :: _ => isNumber last
  | last :: _ => isNumber last
  | [] => false

def parseDomain (rules : HostRules) (t : List Char) : Option Host :=
  let d := unescaped t
  let name := rules.ascii d
  if rules.valid (rules.labels d) then
    if name = [] ∨ name.any isForbidden then none
    else if endsInNumber name then (rules.ipv4 name).map fun ip => .address (.v4 ip)
    else some (.domain name)
  else none

/-- The host parser, for special schemes. -/
def parseHost (rules : HostRules) : List Char → Option Host
  | '[' :: inner =>
    if inner.getLast? = some ']' then (rules.ipv6 inner.dropLast).map fun ip => .address (.v6 ip) else none
  | t => parseDomain rules t

/-! ## Plain domains -/

theorem plain_of_lower {c : Char} (h : lower c = true) : Plain c := by
  have hle : 0x61 ≤ c.toNat ∧ c.toNat ≤ 0x7A := of_decide_eq_true h
  refine ⟨by omega, ?_, ?_⟩
  · rintro rfl
    exact absurd hle (by decide)
  · rintro rfl
    exact absurd hle (by decide)

theorem plain_dot : Plain '.' := ⟨by decide, by decide, by decide⟩

theorem unescaped_append (x y : List Char) : unescaped (x ++ '.' :: y) = unescaped x ++ '.' :: unescaped y := by
  unfold unescaped
  rw [encode_append, encode_cons_ascii plain_dot.ascii, decodeLossy_decode_append plain_dot (by decide)]

theorem unescaped_of_plain {t : List Char} (h : ∀ c ∈ t, Plain c) : unescaped t = t := by
  induction t with
  | nil => rfl
  | cons c t ih =>
    have hc := h c List.mem_cons_self
    unfold unescaped at ih ⊢
    rw [encode_cons_ascii hc.ascii, decodeLossy_decode_cons hc, ih fun d hd => h d (List.mem_cons_of_mem c hd)]

/-- Induction on the labels. -/
@[elab_as_elim]
theorem PlainDomain.induction {motive : List Char → Prop} (single : ∀ x, Letters x → x ≠ [] → motive x)
    (more : ∀ x y, Letters x → PlainDomain y → motive y → motive (x ++ '.' :: y))
    {d : List Char} (h : PlainDomain d) : motive d := by
  have hall : ∀ labels : List (List Char), labels ≠ [] →
      (∀ label ∈ labels, label ≠ [] ∧ Letters label) →
      PlainDomain (['.'].intercalate labels) ∧ motive (['.'].intercalate labels) := by
    intro labels hne hlabels
    induction labels with
    | nil => exact absurd rfl hne
    | cons x labels ih =>
      have hx := hlabels x List.mem_cons_self
      have hdot : '.' ∉ x := fun hmem => absurd (hx.2 _ hmem) (by decide)
      cases labels with
      | nil =>
        rw [List.intercalate_singleton]
        refine ⟨fun label hlabel => ?_, single x hx.2 hx.1⟩
        rw [List.splitOn_eq_singleton hdot, List.mem_singleton] at hlabel
        rw [hlabel]
        exact hx
      | cons y labels =>
        have hrest := ih (List.cons_ne_nil y labels) fun label hl => hlabels label (List.mem_cons_of_mem x hl)
        rw [List.intercalate_cons_of_ne_nil (List.cons_ne_nil y labels), List.append_assoc, List.singleton_append]
        refine ⟨fun label hlabel => ?_, more x _ hx.2 hrest.1 hrest.2⟩
        rw [List.splitOn_append_cons_self, List.splitOn_eq_singleton hdot] at hlabel
        rcases List.mem_append.mp hlabel with hl | hl
        · rw [List.mem_singleton.mp hl]
          exact hx
        · exact hrest.1 label hl
  have hmain := (hall (d.splitOn '.') (List.splitOn_ne_nil _ _) h).2
  rwa [List.intercalate_splitOn] at hmain

variable {d : List Char}

theorem PlainDomain.lower_or_dot (h : PlainDomain d) : ∀ c ∈ d, lower c = true ∨ c = '.' := by
  refine PlainDomain.induction (fun x hx _ c hc => .inl (hx c hc)) (fun x y hx _ ih c hc => ?_) h
  rcases List.mem_append.mp hc with hc | hc
  · exact .inl (hx c hc)
  · rcases List.mem_cons.mp hc with hc | hc
    · exact .inr hc
    · exact ih c hc

theorem PlainDomain.unescaped_eq (h : PlainDomain d) : unescaped d = d := by
  refine unescaped_of_plain fun c hc => ?_
  rcases h.lower_or_dot c hc with hlower | rfl
  · exact plain_of_lower hlower
  · exact plain_dot

theorem PlainDomain.not_forbidden (h : PlainDomain d) : d.any isForbidden = false := by
  refine List.any_eq_false.mpr fun c hc hforbidden => ?_
  rcases h.lower_or_dot c hc with hlower | rfl
  · have hle : 0x61 ≤ c.toNat ∧ c.toNat ≤ 0x7A := of_decide_eq_true hlower
    have hletters : ∀ n, 0x61 ≤ n → n ≤ 0x7A → isForbidden (Char.ofNat n) = false := by decide
    rw [← Char.ofNat_toNat c, hletters _ hle.1 hle.2] at hforbidden
    cases hforbidden
  · exact absurd hforbidden (by decide)

theorem PlainDomain.ne_nil (h : PlainDomain d) : d ≠ [] := by
  rintro rfl
  exact (h [] (by decide)).1 rfl

/-! ## The end of a domain -/

theorem isNumber_of_letters {label : List Char} (h : Letters label) : isNumber label = false := by
  cases label with
  | nil => rfl
  | cons c rest =>
    have hle : 0x61 ≤ c.toNat ∧ c.toNat ≤ 0x7A := of_decide_eq_true (h c List.mem_cons_self)
    have hletters : ∀ n, 0x61 ≤ n → n ≤ 0x7A → (Char.ofNat n).isDigit = false := by decide
    have hdigit : c.isDigit = false := by
      rw [← Char.ofNat_toNat c]
      exact hletters _ hle.1 hle.2
    unfold isNumber
    split
    · rfl
    · next heq => cases (List.cons.inj heq).1; cases hdigit
    · next heq => cases (List.cons.inj heq).1; cases hdigit
    · rw [List.all_cons, hdigit, Bool.false_and]

/-- A last label of letters is no number. -/
theorem endsInNumber_of_splitOn {d : List Char} {before labels : List (List Char)}
    (hsplit : d.splitOn '.' = before ++ labels) (hne : labels ≠ [])
    (h : ∀ label ∈ labels, label ≠ [] ∧ Letters label) : endsInNumber d = false := by
  obtain ⟨init, last, rfl⟩ : ∃ init last, labels = init ++ [last] :=
    ⟨_, _, (List.dropLast_append_getLast hne).symm⟩
  have hlast := h last (List.mem_append_right _ (List.mem_singleton_self last))
  have hreverse : (d.splitOn '.').reverse = last :: (before ++ init).reverse := by
    rw [hsplit, ← List.append_assoc, List.reverse_concat]
  unfold endsInNumber
  rw [hreverse]
  split
  · next heq => exact absurd (List.cons.inj heq).1 hlast.1
  · next heq =>
    rw [← (List.cons.inj heq).1]
    exact isNumber_of_letters hlast.2
  · rfl

theorem PlainDomain.endsInNumber_append (h : PlainDomain d) (x : List Char) :
    endsInNumber (x ++ '.' :: d) = false :=
  endsInNumber_of_splitOn (List.splitOn_append_cons_self x d) (List.splitOn_ne_nil _ _) h

theorem PlainDomain.endsInNumber_eq (h : PlainDomain d) : endsInNumber d = false :=
  endsInNumber_of_splitOn (List.nil_append _).symm (List.splitOn_ne_nil _ _) h

/-! ## Domains in ASCII -/

theorem intercalate_append {c : Char} {l m : List (List Char)} (hl : l ≠ []) (hm : m ≠ []) :
    [c].intercalate (l ++ m) = [c].intercalate l ++ c :: [c].intercalate m := by
  induction l with
  | nil => exact absurd rfl hl
  | cons x l ih =>
    cases l with
    | nil =>
      rw [List.singleton_append, List.intercalate_cons_of_ne_nil hm, List.intercalate_singleton, List.append_assoc]
      rfl
    | cons y l =>
      have hne : y :: l ++ m ≠ [] := List.cons_ne_nil _ _
      rw [List.cons_append, List.intercalate_cons_of_ne_nil hne, ih (List.cons_ne_nil y l),
        List.intercalate_cons_cons, List.append_assoc, List.append_assoc, List.append_assoc]

section Lawful

variable {rules : HostRules} (laws : rules.Lawful)

include laws

theorem HostRules.Lawful.labels_append (x y : List Char) :
    rules.labels (x ++ '.' :: y) = rules.labels x ++ rules.labels y := by
  unfold HostRules.labels
  rw [laws.mapped_append, List.splitOn_append_cons_self]

/-- A domain is brought to ASCII between its dots. -/
theorem HostRules.Lawful.ascii_append (x y : List Char) :
    rules.ascii (x ++ '.' :: y) = rules.ascii x ++ '.' :: rules.ascii y := by
  have hx : (rules.labels x).map rules.asciiLabel ≠ [] := fun h =>
    List.splitOn_ne_nil '.' (rules.mapped x) (List.map_eq_nil_iff.mp h)
  have hy : (rules.labels y).map rules.asciiLabel ≠ [] := fun h =>
    List.splitOn_ne_nil '.' (rules.mapped y) (List.map_eq_nil_iff.mp h)
  unfold HostRules.ascii
  rw [laws.labels_append, List.map_append, intercalate_append hx hy]

variable {d : List Char} (h : PlainDomain d)

include h

theorem HostRules.Lawful.mapped_plain : rules.mapped d = d := by
  refine PlainDomain.induction (fun x hx _ => laws.mapped_letters x hx) (fun x y hx _ ih => ?_) h
  rw [laws.mapped_append, laws.mapped_letters x hx, ih]

theorem HostRules.Lawful.ascii_plain : rules.ascii d = d := by
  have hlabels : (d.splitOn '.').map rules.asciiLabel = d.splitOn '.' := by
    conv_rhs => rw [← List.map_id (d.splitOn '.')]
    exact List.map_congr_left fun label hl => laws.asciiLabel_letters label (h label hl).2
  unfold HostRules.ascii HostRules.labels
  rw [laws.mapped_plain h, hlabels, List.intercalate_splitOn]

/-- A host that ends in a plain domain. -/
theorem HostRules.Lawful.parseHost_append {x : List Char} {host : Host}
    (hparse : parseHost rules (x ++ '.' :: d) = some host) :
    host = .domain (rules.ascii (unescaped x) ++ '.' :: d) := by
  have hname : rules.ascii (unescaped (x ++ '.' :: d)) = rules.ascii (unescaped x) ++ '.' :: d := by
    rw [unescaped_append, laws.ascii_append, h.unescaped_eq, laws.ascii_plain h]
  unfold parseHost at hparse
  split at hparse
  · next inner heq =>
    -- it ends in a letter, so it is no IPv6 address
    have hlast : (x ++ '.' :: d).getLast? = d.getLast? := by
      rw [← List.singleton_append (l := d), List.getLast?_append_of_ne_nil _ (by simp),
        List.getLast?_append_of_ne_nil _ h.ne_nil]
    rw [if_neg] at hparse
    · cases hparse
    · intro hbracket
      have hmem : ']' ∈ d := by
        refine List.mem_of_getLast? ?_
        rw [← hlast, heq, List.getLast?_cons, hbracket]
        rfl
      rcases h.lower_or_dot _ hmem with hlower | hdot
      · exact absurd hlower (by decide)
      · exact absurd hdot (by decide)
  · unfold parseDomain at hparse
    dsimp only at hparse
    rw [hname, h.endsInNumber_append, if_neg (show ¬ false = true by decide)] at hparse
    split_ifs at hparse
    exact (Option.some.inj hparse).symm

/-- A plain domain is itself. -/
theorem HostRules.Lawful.parseHost_plain : parseHost rules d = some (.domain d) := by
  have hlabels : rules.labels d = d.splitOn '.' := by
    unfold HostRules.labels
    rw [laws.mapped_plain h]
  have hvalid : rules.valid (d.splitOn '.') = true := laws.valid_letters _ fun label hl => (h label hl).2
  have hdomain : parseDomain rules d = some (.domain d) := by
    unfold parseDomain
    dsimp only
    rw [h.unescaped_eq, hlabels, hvalid, if_pos rfl, laws.ascii_plain h, h.not_forbidden, h.endsInNumber_eq,
      if_neg (by simpa using h.ne_nil), if_neg (by decide)]
  unfold parseHost
  split
  · next inner =>
    rcases h.lower_or_dot '[' List.mem_cons_self with hlower | hdot
    · exact absurd hlower (by decide)
    · exact absurd hdot (by decide)
  · exact hdomain

end Lawful

end Verif.WebHost
