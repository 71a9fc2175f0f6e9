import Mathlib.Data.List.Sort

/-!
# Keyset pagination

Rows are read in descending order of a key, one page after the other. A page is cut from what the
store holds at the time, below the key of the last row delivered.

**Theorem (`Delivery.exact`).** Once a page falls short, the rows that were there at the first page
have been delivered, each once and in order, whatever was added between the pages. Rows added in
the meantime may be among those delivered, in their place and not more than once.

`Delivery` is the invariant: it holds before the first page (`Delivery.start`), survives growth of
the store (`Delivery.grow`) and is kept by a page (`Delivery.next`).
-/

namespace Verif.Keyset

universe u v

variable {ρ : Type u} {κ : Type v} [LinearOrder κ] (key : ρ → κ)

/-- The rows in descending order of their keys. -/
def descending (rows : List ρ) : List ρ := rows.insertionSort fun a b => key b ≤ key a

/-- Whether a row comes after the cursor. -/
def isBelow (cursor : Option κ) (r : ρ) : Bool :=
  match cursor with
  | none => true
  | some c => decide (key r < c)

/-- A page of at most `n` rows. -/
def page (n : Nat) (cursor : Option κ) (rows : List ρ) : List ρ :=
  (descending key (rows.filter (isBelow key cursor))).take n

/-- The cursor a page leaves: the key of its last row, if it is a full one. -/
def nextCursor (n : Nat) (p : List ρ) : Option κ := if n ≤ p.length then p.getLast?.map key else none

/-- Strictly descending keys: in order, and no row twice. -/
abbrev Strict (rows : List ρ) : Prop := rows.Pairwise fun a b => key b < key a

variable {key} {rows : List ρ}

theorem mem_descending {r : ρ} : r ∈ descending key rows ↔ r ∈ rows := List.mem_insertionSort _

theorem descending_strict (h : (rows.map key).Nodup) : Strict key (descending key rows) := by
  have htotal : Std.Total fun a b : ρ => key b ≤ key a := ⟨fun a b => le_total (key b) (key a)⟩
  have htrans : IsTrans ρ fun a b => key b ≤ key a := ⟨fun _ _ _ hab hbc => hbc.trans hab⟩
  have hsorted := List.pairwise_insertionSort (fun a b => key b ≤ key a) rows
  have hnodup : ((descending key rows).map key).Nodup :=
    ((List.perm_insertionSort _ rows).map key).nodup_iff.2 h
  rw [List.Nodup, List.pairwise_map] at hnodup
  exact (hsorted.and hnodup).imp fun hle => lt_of_le_of_ne hle.1 hle.2.symm

/-! ## The first rows -/

/-- The rows in ascending order of their keys. -/
def ascending (key : ρ → κ) (rows : List ρ) : List ρ := rows.insertionSort fun a b => key a ≤ key b

theorem mem_ascending {r : ρ} : r ∈ ascending key rows ↔ r ∈ rows := List.mem_insertionSort _

theorem length_ascending : (ascending key rows).length = rows.length := List.length_insertionSort _ rows

/-- What stands among the first `n` rows comes before the rest. -/
theorem lt_of_mem_take_ascending (h : (rows.map key).Nodup) {n : Nat} {a b : ρ}
    (ha : a ∈ (ascending key rows).take n) (hb : b ∈ rows) (hn : b ∉ (ascending key rows).take n) :
    key a < key b := by
  have htotal : Std.Total fun a b : ρ => key a ≤ key b := ⟨fun a b => le_total (key a) (key b)⟩
  have htrans : IsTrans ρ fun a b => key a ≤ key b := ⟨fun _ _ _ hab hbc => hab.trans hbc⟩
  have hsorted := List.pairwise_insertionSort (fun a b => key a ≤ key b) rows
  have hnodup : ((ascending key rows).map key).Nodup :=
    ((List.perm_insertionSort _ rows).map key).nodup_iff.2 h
  rw [List.Nodup, List.pairwise_map] at hnodup
  have hstrict : (ascending key rows).Pairwise fun a b => key a < key b :=
    (hsorted.and hnodup).imp fun hle => lt_of_le_of_ne hle.1 hle.2
  have hmem : b ∈ ascending key rows := mem_ascending.2 hb
  rw [← List.take_append_drop n (ascending key rows)] at hstrict hmem
  exact (List.pairwise_append.1 hstrict).2.2 a ha b ((List.mem_append.1 hmem).resolve_left hn)

/-! ## One page -/

section Page

variable {n : Nat} {cursor : Option κ}

theorem isBelow_of_mem_page {r : ρ} (h : r ∈ page key n cursor rows) :
    r ∈ rows ∧ isBelow key cursor r = true :=
  List.mem_filter.1 (mem_descending.1 (List.mem_of_mem_take h))

theorem page_strict (h : (rows.map key).Nodup) : Strict key (page key n cursor rows) :=
  (descending_strict (h.sublist (List.filter_sublist.map key))).take

theorem key_nextCursor_le {p : List ρ} (hp : Strict key p) {c : κ}
    (hc : nextCursor key n p = some c) {r : ρ} (hr : r ∈ p) : c ≤ key r := by
  unfold nextCursor at hc
  split at hc
  · obtain ⟨last, hlast, rfl⟩ := Option.map_eq_some_iff.1 hc
    obtain ⟨init, rfl⟩ := List.getLast?_eq_some_iff.1 hlast
    obtain hr | hr := List.mem_append.1 hr
    · exact ((List.pairwise_append.1 hp).2.2 r hr last List.mem_cons_self).le
    · rw [List.mem_singleton.1 hr]
  · cases hc

/-- What a page leaves out comes after it. -/
theorem mem_page_or_below (h : (rows.map key).Nodup) {r : ρ} (hr : r ∈ rows)
    (hbelow : isBelow key cursor r = true) (hn : 1 ≤ n) :
    r ∈ page key n cursor rows ∨ ∃ c, nextCursor key n (page key n cursor rows) = some c ∧ key r < c := by
  set l := descending key (rows.filter (isBelow key cursor)) with hl
  have hmem : r ∈ l := mem_descending.2 (List.mem_filter.2 ⟨hr, hbelow⟩)
  have hstrict : Strict key l := descending_strict (h.sublist (List.filter_sublist.map key))
  rw [← List.take_append_drop n l, List.mem_append] at hmem
  obtain htake | hdrop := hmem
  · exact Or.inl htake
  · -- Rows are left over, so the page is full; its last row stands before `r`.
    right
    have hlen : (page key n cursor rows).length = n := by
      have hpos := List.length_pos_of_mem hdrop
      rw [List.length_drop] at hpos
      rw [page, List.length_take, ← hl]
      omega
    have hne : page key n cursor rows ≠ [] := List.ne_nil_of_length_pos (by omega)
    refine ⟨key ((page key n cursor rows).getLast hne), ?_, ?_⟩
    · rw [nextCursor, if_pos hlen.ge, List.getLast?_eq_some_getLast hne, Option.map_some]
    · rw [← List.take_append_drop n l] at hstrict
      exact (List.pairwise_append.1 hstrict).2.2 _ (List.getLast_mem hne) r hdrop

end Page

/-! ## Page after page -/

variable (key) in
/-- What has been delivered when `cursor` is the next one, of a store that now holds `rows` and held
`present` at the first page. -/
structure Delivery (present rows delivered : List ρ) (cursor : Option κ) (finished : Bool) : Prop where
  strict : Strict key delivered
  stored : ∀ r ∈ delivered, r ∈ rows
  above : ∀ c, cursor = some c → ∀ r ∈ delivered, c ≤ key r
  first : cursor = none → finished = false → delivered = []
  complete : ∀ r ∈ present, isBelow key cursor r = false ∨ finished = true → r ∈ delivered

variable {present delivered : List ρ} {cursor : Option κ} {finished : Bool} {n : Nat}

theorem Delivery.start : Delivery key present rows [] none false where
  strict := List.Pairwise.nil
  stored := nofun
  above := nofun
  first := fun _ _ => rfl
  complete := by
    intro r _ h
    simp [isBelow] at h

theorem Delivery.grow {rows' : List ρ} (h : Delivery key present rows delivered cursor finished)
    (hsub : rows ⊆ rows') : Delivery key present rows' delivered cursor finished :=
  { h with stored := fun r hr => hsub (h.stored r hr) }

/-- **One more page.** -/
theorem Delivery.next (h : Delivery key present rows delivered cursor false) (hn : 1 ≤ n)
    (hnodup : (rows.map key).Nodup) (hsub : present ⊆ rows) :
    Delivery key present rows (delivered ++ page key n cursor rows)
      (nextCursor key n (page key n cursor rows))
      (nextCursor key n (page key n cursor rows)).isNone := by
  have hstrict : Strict key (page key n cursor rows) := page_strict hnodup
  have hbefore : ∀ r ∈ delivered, ∀ r' ∈ page key n cursor rows, key r' < key r := by
    intro r hr r' hr'
    cases hcursor : cursor with
    | none =>
      rw [h.first hcursor rfl] at hr
      cases hr
    | some c =>
      have hbelow := (isBelow_of_mem_page hr').2
      rw [hcursor, isBelow, decide_eq_true_eq] at hbelow
      exact hbelow.trans_le (h.above c hcursor r hr)
  refine ⟨List.pairwise_append.2 ⟨h.strict, hstrict, hbefore⟩, fun r hr => ?_, fun c hc r hr => ?_,
    fun hnone hfin => ?_, fun r hr hpassed => ?_⟩
  · obtain hr | hr := List.mem_append.1 hr
    · exact h.stored r hr
    · exact (isBelow_of_mem_page hr).1
  · obtain hr | hr := List.mem_append.1 hr
    · -- The cursor is the key of a row of the page.
      obtain ⟨last, hlast, rfl⟩ : ∃ last ∈ page key n cursor rows, key last = c := by
        unfold nextCursor at hc
        split at hc
        · obtain ⟨last, hlast, rfl⟩ := Option.map_eq_some_iff.1 hc
          exact ⟨last, List.mem_of_getLast? hlast, rfl⟩
        · cases hc
      exact (hbefore r hr last hlast).le
    · exact key_nextCursor_le hstrict hc hr
  · rw [hnone] at hfin
    cases hfin
  · rw [List.mem_append]
    by_cases hbelow : isBelow key cursor r = true
    · obtain hmem | ⟨c, hc, hlt⟩ := mem_page_or_below hnodup (hsub hr) hbelow hn
      · exact Or.inr hmem
      · rw [hc] at hpassed
        simp [isBelow, hlt] at hpassed
    · exact Or.inl (h.complete r hr (Or.inl (by simpa using hbelow)))

/-- **Exact delivery.** -/
theorem Delivery.exact [DecidableEq ρ] (h : Delivery key present rows delivered cursor true)
    (hnodup : (present.map key).Nodup) :
    (delivered.filter fun r => r ∈ present) = descending key present := by
  refine (h.strict.filter _).eq_of_mem_iff (descending_strict hnodup) fun r => ?_
  rw [mem_descending, List.mem_filter, decide_eq_true_eq]
  exact ⟨And.right, fun hr => ⟨h.complete r hr (Or.inr rfl), hr⟩⟩

end Verif.Keyset
