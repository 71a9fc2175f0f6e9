import Mathlib.Data.List.Basic

/-!
# Unix paths by their components

A path is a list of components, below the root or below the working directory. The text of a path
is cut at its separators; empty components and single dots stand for nothing, a double dot is a
component like any other.

- `Path.join` puts a text behind a directory; an absolute text replaces the directory.
- `Path.IsChild`: one ordinary component behind the directory and nothing else.
- `isChild_join_iff`: a name with an ending makes a child of the directory, both as it stands and
  behind a dot, exactly when it has no separator.
-/

namespace Verif.UnixPath

abbrev Name := List Char

structure Path where
  absolute : Bool
  components : List Name
deriving DecidableEq, Repr

/-- The components of a text. -/
def cut (text : List Char) : List Name :=
  (text.splitOn '/').filter fun c => c ≠ [] ∧ c ≠ ['.']

def Path.push (dir : Path) (name : Name) : Path :=
  { dir with components := dir.components ++ [name] }

def Path.join (dir : Path) (text : List Char) : Path :=
  if text.head? = some '/' then ⟨true, cut text⟩
  else { dir with components := dir.components ++ cut text }

/-- The name of an entry of a directory. -/
structure IsEntry (name : Name) : Prop where
  ne_nil : name ≠ []
  ne_dot : name ≠ ['.']
  ne_dots : name ≠ ['.', '.']
  noSeparator : '/' ∉ name

/-- A direct child of a directory. -/
def Path.IsChild (dir p : Path) : Prop :=
  ∃ name, IsEntry name ∧ p = dir.push name

/-- An ending that makes an entry of every name without a separator. -/
structure IsEnding (ending : Name) : Prop where
  noSeparator : '/' ∉ ending
  long : 2 < ending.length

theorem IsEnding.isEntry {ending : Name} (h : IsEnding ending) {name : Name} (hname : '/' ∉ name) :
    IsEntry (name ++ ending) := by
  have hlen : 2 < (name ++ ending).length := by
    have := h.long
    rw [List.length_append]
    omega
  refine ⟨?_, ?_, ?_, ?_⟩
  · intro hnil
    simp [hnil] at hlen
  · intro hdot
    simp [hdot] at hlen
  · intro hdots
    simp [hdots] at hlen
  · rw [List.mem_append]
    exact not_or.2 ⟨hname, h.noSeparator⟩

/-! ## Components of a text -/

@[simp] theorem cut_nil : cut [] = [] := rfl

theorem cut_dot : cut ['.'] = [] := by
  decide

theorem cut_dots : cut ['.', '.'] = [['.', '.']] := by
  decide

theorem cut_append_separator (a b : List Char) : cut (a ++ '/' :: b) = cut a ++ cut b := by
  unfold cut
  rw [List.splitOn_append_cons_self, List.filter_append]

theorem cut_of_noSeparator {text : List Char} (h : '/' ∉ text) (hnil : text ≠ [])
    (hdot : text ≠ ['.']) : cut text = [text] := by
  unfold cut
  rw [List.splitOn_eq_singleton h]
  simp [hnil, hdot]

theorem IsEntry.cut_eq {name : Name} (h : IsEntry name) : cut name = [name] :=
  cut_of_noSeparator h.noSeparator h.ne_nil h.ne_dot

/-- An ending stays in the last component, and the components before it do not depend on it. -/
theorem cut_append_ending (text : List Char) :
    ∃ front last, ∀ ending, IsEnding ending → cut (text ++ ending) = front ++ [last ++ ending] := by
  by_cases hsep : '/' ∈ text
  · obtain ⟨a, b, hab⟩ := List.append_of_mem hsep
    have hlt : b.length < text.length := by
      rw [hab, List.length_append, List.length_cons]
      omega
    obtain ⟨front, last, hb⟩ := cut_append_ending b
    refine ⟨cut a ++ front, last, fun ending hending => ?_⟩
    rw [hab, List.append_assoc, List.cons_append, cut_append_separator, hb ending hending,
      List.append_assoc]
  · exact ⟨[], text, fun ending hending => (hending.isEntry hsep).cut_eq⟩
termination_by text.length

/-! ## Children of a directory -/

theorem push_injective (dir : Path) : Function.Injective dir.push := by
  intro a b hab
  simpa [Path.push] using hab

theorem Path.IsChild.length_eq {dir p : Path} (h : dir.IsChild p) :
    p.components.length = dir.components.length + 1 := by
  obtain ⟨name, -, rfl⟩ := h
  simp [Path.push]

theorem IsEntry.join_eq {name : Name} (h : IsEntry name) (dir : Path) :
    dir.join name = dir.push name := by
  have hrel : name.head? ≠ some '/' := fun hhead => h.noSeparator (List.mem_of_mem_head? hhead)
  rw [Path.join, if_neg hrel, h.cut_eq, Path.push]

theorem IsEntry.isChild {name : Name} (h : IsEntry name) (dir : Path) :
    dir.IsChild (dir.join name) :=
  ⟨name, h, h.join_eq dir⟩

/-- A child named by a relative text is its only component. -/
theorem Path.IsChild.cut_length {dir : Path} {text : List Char} (h : dir.IsChild (dir.join text))
    (hrel : text.head? ≠ some '/') : (cut text).length = 1 := by
  have hlen := h.length_eq
  rw [Path.join, if_neg hrel, List.length_append] at hlen
  omega

/-- A child named by an absolute text is deeper than a directory that is not the root. -/
theorem Path.IsChild.one_lt_cut_length {dir : Path} (hdir : dir.components ≠ [])
    {text : List Char} (h : dir.IsChild (dir.join text)) (habs : text.head? = some '/') :
    1 < (cut text).length := by
  have hlen : (cut text).length = dir.components.length + 1 := by
    simpa [Path.join, habs] using h.length_eq
  have hpos : 0 < dir.components.length := List.length_pos_iff.2 hdir
  omega

/-- A name with a separator leads out of the directory, either as it stands or behind a dot. -/
theorem noSeparator_of_isChild {dir : Path} (hdir : dir.components ≠ []) {name ending ending' : Name}
    (he : IsEnding ending) (he' : IsEnding ending')
    (hchild : dir.IsChild (dir.join (name ++ ending)))
    (hhidden : dir.IsChild (dir.join ('.' :: name ++ ending'))) : '/' ∉ name := by
  intro hsep
  obtain ⟨a, b, rfl, ha⟩ := List.eq_append_cons_of_mem hsep
  obtain ⟨front, last, hb⟩ := cut_append_ending b
  have hcut : cut (a ++ '/' :: b ++ ending) = cut a ++ (front ++ [last ++ ending]) := by
    rw [List.append_assoc, List.cons_append, cut_append_separator, hb ending he]
  have hcut' : cut ('.' :: (a ++ '/' :: b) ++ ending') =
      cut ('.' :: a) ++ (front ++ [last ++ ending']) := by
    have hassoc : '.' :: (a ++ '/' :: b) ++ ending' = ('.' :: a) ++ '/' :: (b ++ ending') := by simp
    rw [hassoc, cut_append_separator, hb ending' he']
  have hone := hhidden.cut_length (by simp)
  rw [hcut'] at hone
  by_cases hnil : a = []
  · -- as it stands the text is absolute, and deeper than it is behind the dot
    subst hnil
    have hmany := hchild.one_lt_cut_length hdir rfl
    rw [hcut, cut_nil] at hmany
    rw [cut_dot] at hone
    simp only [List.length_append, List.length_cons, List.length_nil] at hone hmany
    omega
  · by_cases hdot : a = ['.']
    · -- behind the dot the text starts with two dots
      subst hdot
      rw [cut_dots] at hone
      simp at hone
    · have hrel : (a ++ '/' :: b ++ ending).head? ≠ some '/' := by
        obtain ⟨c, a', rfl⟩ := List.exists_cons_of_ne_nil hnil
        have hc : '/' ≠ c := fun hc => ha (hc ▸ List.mem_cons_self)
        simpa using hc.symm
      have honly := hchild.cut_length hrel
      rw [hcut, cut_of_noSeparator ha hnil hdot] at honly
      simp at honly

/-- **Which names stay in the directory.** -/
theorem isChild_join_iff {dir : Path} (hdir : dir.components ≠ []) (name : Name)
    {ending ending' : Name} (he : IsEnding ending) (he' : IsEnding ending') :
    dir.IsChild (dir.join (name ++ ending)) ∧ dir.IsChild (dir.join ('.' :: name ++ ending')) ↔
      '/' ∉ name := by
  constructor
  · intro ⟨hchild, hhidden⟩
    exact noSeparator_of_isChild hdir he he' hchild hhidden
  · intro hsep
    have hsep' : '/' ∉ '.' :: name := by simp [hsep]
    exact ⟨(he.isEntry hsep).isChild dir, (he'.isEntry hsep').isChild dir⟩

end Verif.UnixPath
