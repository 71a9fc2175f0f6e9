import Mathlib.Data.List.Basic

/-!
# Challenges and their parameters

The grammar of an authentication challenge: a scheme, and a list of `auth-param`s whose values are tokens
or quoted strings. In a quoted string a comma or an equals sign is a character like any other, and a
backslash escapes the next one.

A challenge is given by what it means, with the white space and the escapes it is written with; `render` is the
text. The list may have empty elements, as those of header fields may.
-/

namespace Verif.AuthParam

/-- `tchar`. -/
def isTokenChar (c : Char) : Bool := c.isAlphanum || "!#$%&'*+-.^_`|~".toList.contains c

/-- White space within a line. -/
def isSpace (c : Char) : Bool := c == ' ' || c == '\t'

/-- What a quoted string may hold, escaped or not; `obs-text` are the characters beyond ASCII. -/
def isQuotable (c : Char) : Bool := c == '\t' || (' ' ≤ c && c != '\x7f')

/-- A character of a quoted string, as it stands or after a backslash. -/
structure QuotedChar where
  char : Char
  escaped : Bool

namespace QuotedChar

def render (q : QuotedChar) : List Char := if q.escaped then ['\\', q.char] else [q.char]

def Valid (q : QuotedChar) : Prop :=
  isQuotable q.char = true ∧ (q.escaped = false → q.char ≠ '"' ∧ q.char ≠ '\\')

end QuotedChar

inductive Value where
  | token (s : List Char)
  | quoted (s : List QuotedChar)

namespace Value

/-- What the value means. -/
def text : Value → List Char
  | token s => s
  | quoted s => s.map QuotedChar.char

/-- The inside of a quoted string. -/
def inside (s : List QuotedChar) : List Char := s.flatMap QuotedChar.render

def render : Value → List Char
  | token s => s
  | quoted s => '"' :: inside s ++ ['"']

def Valid : Value → Prop
  | token s => s ≠ [] ∧ ∀ c ∈ s, isTokenChar c = true
  | quoted s => ∀ q ∈ s, q.Valid

/-- Nothing is escaped. -/
def Plain : Value → Prop
  | token _ => True
  | quoted s => ∀ q ∈ s, q.escaped = false

end Value

structure Param where
  name : List Char
  before : List Char
  after : List Char
  value : Value

namespace Param

def render (p : Param) : List Char := p.name ++ p.before ++ '=' :: (p.after ++ p.value.render)

structure Valid (p : Param) : Prop where
  name_ne : p.name ≠ []
  name : ∀ c ∈ p.name, isTokenChar c = true
  before : ∀ c ∈ p.before, isSpace c = true
  after : ∀ c ∈ p.after, isSpace c = true
  value : p.value.Valid

end Param

/-- An element of the list, which may be empty. -/
structure Element where
  lead : List Char
  param : Option Param
  trail : List Char

namespace Element

def render (e : Element) : List Char := e.lead ++ (e.param.map Param.render).getD [] ++ e.trail

structure Valid (e : Element) : Prop where
  lead : ∀ c ∈ e.lead, isSpace c = true
  param : ∀ p ∈ e.param, p.Valid
  trail : ∀ c ∈ e.trail, isSpace c = true

end Element

structure Challenge where
  scheme : List Char
  elements : List Element

namespace Challenge

/-- What stands after the scheme. -/
def list (elements : List Element) : List Char :=
  match elements with
  | [] => []
  | _ => ' ' :: [','].intercalate (elements.map Element.render)

def render (c : Challenge) : List Char := c.scheme ++ list c.elements

structure Valid (c : Challenge) : Prop where
  scheme_ne : c.scheme ≠ []
  scheme : ∀ ch ∈ c.scheme, isTokenChar ch = true
  elements : ∀ e ∈ c.elements, e.Valid

/-- The parameters, in their order. -/
def params (c : Challenge) : List Param := c.elements.filterMap Element.param

end Challenge

/-! ## Characters -/

variable {c d : Char} {s : List QuotedChar}

theorem token_ne (h : isTokenChar c = true) (hd : isTokenChar d = false) : c ≠ d := by
  rintro rfl
  rw [h] at hd
  cases hd

theorem space_ne (h : isSpace c = true) (hd : isSpace d = false) : c ≠ d := by
  rintro rfl
  rw [h] at hd
  cases hd

/-- Without escapes the inside of a quoted string is what it means, and has no quotes. -/
theorem inside_of_plain (h : (Value.quoted s).Plain) : Value.inside s = s.map QuotedChar.char := by
  induction s with
  | nil => rfl
  | cons q s ih =>
    obtain ⟨hq, hs⟩ := List.forall_mem_cons.1 h
    have hrender : q.render = [q.char] := by
      unfold QuotedChar.render
      rw [hq]
      rfl
    unfold Value.inside
    rw [List.flatMap_cons, hrender, List.map_cons, List.singleton_append, ← ih hs]
    rfl

theorem render_of_plain (h : (Value.quoted s).Plain) :
    (Value.quoted s).render = '"' :: (Value.quoted s).text ++ ['"'] := by
  show '"' :: Value.inside s ++ ['"'] = _
  rw [inside_of_plain h]
  rfl

theorem quote_not_mem_text (h : (Value.quoted s).Valid) (hplain : (Value.quoted s).Plain) :
    '"' ∉ (Value.quoted s).text := by
  intro hmem
  obtain ⟨q, hq, hchar⟩ := List.mem_map.1 hmem
  exact ((h q hq).2 (hplain q hq)).1 hchar

/-! ## Cutting at commas -/

/-- What is between two commas is part of the text. -/
theorem mem_of_mem_splitOn {s part : List Char} (hpart : part ∈ s.splitOn d) (hc : c ∈ part) :
    c ∈ s := by
  induction s generalizing part with
  | nil =>
    rw [List.splitOn_nil, List.mem_singleton] at hpart
    rwa [hpart] at hc
  | cons x s ih =>
    rw [List.splitOn_cons_eq_if_modifyHead] at hpart
    split at hpart
    · rcases List.mem_cons.1 hpart with rfl | hpart
      · cases hc
      · exact List.mem_cons_of_mem x (ih hpart hc)
    · obtain ⟨p, ps, hps⟩ := List.exists_cons_of_ne_nil (List.splitOn_ne_nil d s)
      rw [hps, List.modifyHead_cons] at hpart
      rw [hps] at ih
      rcases List.mem_cons.1 hpart with rfl | hpart
      · rcases List.mem_cons.1 hc with rfl | hc
        · exact List.mem_cons_self
        · exact List.mem_cons_of_mem x (ih List.mem_cons_self hc)
      · exact List.mem_cons_of_mem x (ih (List.mem_cons_of_mem p hpart) hc)

/-- The parts of a list that is put together with a separator are those of its elements. -/
theorem splitOn_intercalate_eq (d : Char) {ls : List (List Char)} (hne : ls ≠ []) :
    ([d].intercalate ls).splitOn d = ls.flatMap (List.splitOn d) := by
  induction ls with
  | nil => exact absurd rfl hne
  | cons l ls ih =>
    cases ls with
    | nil => simp
    | cons m ls =>
      rw [List.intercalate_cons_of_ne_nil (List.cons_ne_nil m ls), List.append_assoc, List.singleton_append,
        List.splitOn_append_cons_self, ih (List.cons_ne_nil m ls)]
      rfl

end Verif.AuthParam
