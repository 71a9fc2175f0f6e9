import Mathlib.Data.List.AList

/-!
# Tables

A finite map with an order of iteration: Mathlib's `AList` at a constant family. Its keys are
distinct by construction, so an entry met while iterating is the entry a lookup finds
(`mem_entries_iff`).

`mapVal` edits every entry in place and `modify` the entry of one key. Both keep the keys and the
order of iteration, which is what an in-place edit through a mutable reference does.

Loops that treat one key after the other are read one key at a time: `foldl_view` says what a fold
does to a view of the state that only some of its steps touch.
-/

universe u v w

/-- A finite map from `κ` to `β`, iterated in the order of its entries. -/
abbrev Verif.Table (κ : Type u) (β : Type v) := AList fun _ : κ => β

namespace AList

variable {κ : Type u} {β : Type v} {γ : Type w}

/-- Edit every entry in place. -/
def mapVal (f : κ → β → γ) (t : Verif.Table κ β) : Verif.Table κ γ where
  entries := t.entries.map fun e => ⟨e.1, f e.1 e.2⟩
  nodupKeys := by
    have h : (t.entries.map fun e => (⟨e.1, f e.1 e.2⟩ : Sigma fun _ : κ => γ)).keys =
        t.entries.keys := by
      simp [List.keys, List.map_map, Function.comp_def]
    rw [List.NodupKeys, h]
    exact t.nodupKeys

@[simp] theorem entries_mapVal (f : κ → β → γ) (t : Verif.Table κ β) :
    (t.mapVal f).entries = t.entries.map fun e => ⟨e.1, f e.1 e.2⟩ := rfl

/-- The entries whose key passes, in their order. -/
def restrict (p : κ → Bool) (t : Verif.Table κ β) : Verif.Table κ β where
  entries := t.entries.filter fun e => p e.1
  nodupKeys := t.nodupKeys.sublist List.filter_sublist

@[simp] theorem entries_restrict (p : κ → Bool) (t : Verif.Table κ β) :
    (t.restrict p).entries = t.entries.filter fun e => p e.1 := rfl

/-- The entries whose value passes, in their order. -/
def retain (p : β → Bool) (t : Verif.Table κ β) : Verif.Table κ β where
  entries := t.entries.filter fun e => p e.2
  nodupKeys := t.nodupKeys.sublist List.filter_sublist

variable [DecidableEq κ]

/-- Edit the entry of one key in place; nothing happens when the key is not there. -/
def modify (k : κ) (f : β → β) (t : Verif.Table κ β) : Verif.Table κ β :=
  t.mapVal fun k' b => if k' = k then f b else b

variable {t : Verif.Table κ β} {f : β → β}

/-- The entries met while iterating are those a lookup finds. -/
theorem mem_entries_iff {k : κ} {b : β} :
    (⟨k, b⟩ : Sigma fun _ : κ => β) ∈ t.entries ↔ t.lookup k = some b :=
  mem_lookup_iff.symm

@[simp] theorem lookup_mapVal (f : κ → β → γ) (t : Verif.Table κ β) (k : κ) :
    (t.mapVal f).lookup k = (t.lookup k).map (f k) := by
  cases h : t.lookup k with
  | none =>
    rw [Option.map_none, lookup_eq_none, mem_keys]
    rw [lookup_eq_none, mem_keys] at h
    simpa [keys, List.keys] using h
  | some b =>
    refine mem_entries_iff.1 (List.mem_map.2 ⟨⟨k, b⟩, mem_entries_iff.2 h, rfl⟩)

theorem lookup_modify (k k' : κ) (f : β → β) (t : Verif.Table κ β) :
    (t.modify k f).lookup k' = if k' = k then (t.lookup k').map f else t.lookup k' := by
  rw [modify, lookup_mapVal]
  split <;> simp_all

theorem lookup_modify_self (k : κ) (f : β → β) (t : Verif.Table κ β) :
    (t.modify k f).lookup k = (t.lookup k).map f := by
  rw [lookup_modify, if_pos rfl]

theorem lookup_modify_ne {k k' : κ} (h : k' ≠ k) (f : β → β) (t : Verif.Table κ β) :
    (t.modify k f).lookup k' = t.lookup k' := by
  rw [lookup_modify, if_neg h]

/-- What is found after an insertion is what was inserted, or was there under another key. -/
theorem lookup_insert_cases {k k' : κ} {b c : β} (h : (t.insert k b).lookup k' = some c) :
    k' = k ∧ c = b ∨ k' ≠ k ∧ t.lookup k' = some c := by
  by_cases hk : k' = k
  · subst hk
    rw [lookup_insert] at h
    exact .inl ⟨rfl, (Option.some.inj h).symm⟩
  · rw [lookup_insert_ne hk] at h
    exact .inr ⟨hk, h⟩

/-- What is found after an erasure was there under another key. -/
theorem lookup_of_erase {k k' : κ} {c : β} (h : (t.erase k).lookup k' = some c) :
    k' ≠ k ∧ t.lookup k' = some c := by
  by_cases hk : k' = k
  · subst hk
    rw [lookup_erase] at h
    cases h
  · rw [lookup_erase_ne hk] at h
    exact ⟨hk, h⟩

/-- An edit that leaves the entry of its key as it is changes nothing. -/
theorem modify_eq_self {k : κ} {f : β → β} {t : Verif.Table κ β}
    (h : ∀ b, t.lookup k = some b → f b = b) : t.modify k f = t := by
  apply AList.ext
  refine (List.map_congr_left (g := id) fun e he => ?_).trans (List.map_id _)
  obtain ⟨k', b⟩ := e
  by_cases hk : k' = k
  · subst hk
    simp [h b (mem_entries_iff.1 he)]
  · simp [hk]

section All

/-- Every value of the table. -/
def All (P : β → Prop) (t : Verif.Table κ β) : Prop := ∀ k b, t.lookup k = some b → P b

variable {P Q : β → Prop} {t : Verif.Table κ β} {k : κ} {b : β}

theorem All.mono (h : t.All P) (hPQ : ∀ b, P b → Q b) : t.All Q := fun k b hb => hPQ b (h k b hb)

theorem All.insert (h : t.All P) (hb : P b) : (t.insert k b).All P := by
  intro k' b' hb'
  rcases lookup_insert_cases hb' with ⟨-, rfl⟩ | ⟨-, hb'⟩
  · exact hb
  · exact h k' b' hb'

theorem All.erase (h : t.All P) : (t.erase k).All P := by
  intro k' b' hb'
  exact h k' b' (lookup_of_erase hb').2

theorem All.modify (h : t.All P) (hf : ∀ b, t.lookup k = some b → P b → P (f b)) :
    (t.modify k f).All P := by
  intro k' b' hb'
  by_cases hk : k' = k
  · subst hk
    rw [lookup_modify_self] at hb'
    obtain ⟨b, hb, rfl⟩ := Option.map_eq_some_iff.1 hb'
    exact hf b hb (h _ b hb)
  · rw [lookup_modify_ne hk] at hb'
    exact h k' b' hb'

theorem All.retain {p : β → Bool} (h : t.All P) : (t.retain p).All P := by
  intro k b hb
  exact h k b (mem_entries_iff.1 (List.mem_of_mem_filter (mem_entries_iff.2 hb)))

end All

section Unseen

variable {P : (Sigma fun _ : κ => β) → Bool} {k : κ} {b : β}

theorem filter_kerase {l : List (Sigma fun _ : κ => β)} (h : ∀ c, ⟨k, c⟩ ∈ l → P ⟨k, c⟩ = false) :
    (l.kerase k).filter P = l.filter P := by
  induction l with
  | nil => rfl
  | cons e l ih =>
    have ih := ih fun c hc => h c (List.mem_cons_of_mem _ hc)
    obtain ⟨k', c⟩ := e
    by_cases hk : k = k'
    · subst hk
      have hc : ¬ P ⟨k, c⟩ = true := by simp [h c List.mem_cons_self]
      have herase : (⟨k, c⟩ :: l : List (Sigma fun _ : κ => β)).kerase k = l := List.kerase_cons_eq rfl
      rw [List.filter_cons_of_neg hc, herase]
    · have herase : (⟨k', c⟩ :: l : List (Sigma fun _ : κ => β)).kerase k = ⟨k', c⟩ :: l.kerase k :=
        List.kerase_cons_ne hk
      rw [herase, List.filter_cons, List.filter_cons, ih]

/-- What does not show the entry of a key, before and after, does not show an edit of it. -/
theorem filter_entries_erase (h : ∀ c, t.lookup k = some c → P ⟨k, c⟩ = false) :
    (t.erase k).entries.filter P = t.entries.filter P :=
  filter_kerase fun c hc => h c (mem_entries_iff.1 hc)

theorem filter_entries_insert (h : ∀ c, t.lookup k = some c → P ⟨k, c⟩ = false) (hb : P ⟨k, b⟩ = false) :
    (t.insert k b).entries.filter P = t.entries.filter P := by
  rw [entries_insert, List.filter_cons_of_neg (by rw [hb]; exact Bool.false_ne_true)]
  exact filter_kerase fun c hc => h c (mem_entries_iff.1 hc)

theorem filter_entries_modify (h : ∀ c, t.lookup k = some c → P ⟨k, c⟩ = false)
    (hf : ∀ c, t.lookup k = some c → P ⟨k, f c⟩ = false) :
    (t.modify k f).entries.filter P = t.entries.filter P := by
  have hmap : ∀ l : List (Sigma fun _ : κ => β), (∀ e ∈ l, e ∈ t.entries) →
      (l.map fun e => (⟨e.1, if e.1 = k then f e.2 else e.2⟩ : Sigma fun _ : κ => β)).filter P =
        l.filter P := by
    intro l hl
    induction l with
    | nil => rfl
    | cons e l ih =>
      have ih := ih fun e' he' => hl e' (List.mem_cons_of_mem _ he')
      obtain ⟨k', c⟩ := e
      rw [List.map_cons, List.filter_cons, List.filter_cons, ih]
      by_cases hk : k' = k
      · subst hk
        have hc : t.lookup k' = some c := mem_entries_iff.1 (hl _ List.mem_cons_self)
        simp only [if_true, h c hc, hf c hc, Bool.false_eq_true, if_false]
      · simp only [hk, if_false]
  exact hmap t.entries fun _ he => he

end Unseen

/-- The sum of a measure over the entries. -/
def sumOf (m : β → Nat) (t : Verif.Table κ β) : Nat := t.entries.foldr (fun e n => m e.2 + n) 0

omit [DecidableEq κ] in
theorem foldr_add (m : β → Nat) (l : List (Sigma fun _ : κ => β)) (n : Nat) :
    l.foldr (fun e n => m e.2 + n) n = l.foldr (fun e n => m e.2 + n) 0 + n := by
  induction l with
  | nil => exact (Nat.zero_add n).symm
  | cons e l ih =>
    rw [List.foldr_cons, List.foldr_cons, ih]
    exact (Nat.add_assoc _ _ _).symm

theorem sumOf_erase {k : κ} {b : β} (m : β → Nat) (h : t.lookup k = some b) :
    t.sumOf m = m b + (t.erase k).sumOf m := by
  have hk : k ∈ t.entries.keys := mem_keys.1 (lookup_isSome.1 (h ▸ rfl))
  obtain ⟨b', l₁, l₂, -, hl, herase⟩ := List.exists_of_kerase hk
  have hmem : (⟨k, b'⟩ : Sigma fun _ : κ => β) ∈ t.entries := by
    rw [hl]
    exact List.mem_append_right _ List.mem_cons_self
  obtain rfl : b = b' := Option.some.inj (h.symm.trans (mem_entries_iff.1 hmem))
  show _ = m b + (List.kerase k t.entries).foldr (fun e n => m e.2 + n) 0
  rw [sumOf, herase, hl, List.foldr_append, List.foldr_append, foldr_add, List.foldr_cons,
    foldr_add m l₁ (l₂.foldr _ 0)]
  exact Nat.add_left_comm _ _ _

theorem sumOf_insert {k : κ} (m : β → Nat) (h : k ∉ t) (b : β) :
    (t.insert k b).sumOf m = m b + t.sumOf m := by
  rw [sumOf, entries_insert_of_notMem h, List.foldr_cons]
  rfl

end AList

/-! ## Loops, one key at a time -/

namespace Verif

variable {σ : Type u} {τ : Type v} {ι : Type w}

/-- A fold whose steps change the view `v` only when they concern it (`c`) acts on the view by those
steps. -/
theorem foldl_view {v : σ → τ} {f : σ → ι → σ} {c : ι → Bool} {w : ι → τ → τ}
    (h : ∀ s x, v (f s x) = if c x then w x (v s) else v s) (l : List ι) (s : σ) :
    v (l.foldl f s) = (l.filter c).foldl (fun t x => w x t) (v s) := by
  induction l generalizing s with
  | nil => rfl
  | cons x l ih =>
    rw [List.foldl_cons, ih, h, List.filter_cons]
    split
    · rfl
    · rfl

/-! ## Keyed lists: with distinct keys, the first match is the only one -/

variable {κ : Type u} [DecidableEq κ] {key : ι → κ}

theorem find?_key_eq_some_iff {l : List ι} (hnd : (l.map key).Nodup) {k : κ} {x : ι} :
    (l.find? fun y => key y = k) = some x ↔ x ∈ l ∧ key x = k := by
  constructor
  · intro h
    exact ⟨List.mem_of_find?_eq_some h, by simpa using List.find?_some h⟩
  · rintro ⟨hmem, rfl⟩
    cases hf : l.find? fun y => key y = key x with
    | none =>
      have h := List.find?_eq_none.1 hf x hmem
      simp at h
    | some y =>
      have hkey : key y = key x := by simpa using List.find?_some hf
      rw [List.inj_on_of_nodup_map hnd (List.mem_of_find?_eq_some hf) hmem hkey]

theorem filter_key_eq {l : List ι} (hnd : (l.map key).Nodup) (k : κ) :
    l.filter (fun x => key x = k) = (l.find? fun x => key x = k).toList := by
  induction l with
  | nil => rfl
  | cons x l ih =>
    obtain ⟨hnot, hnd⟩ := List.nodup_cons.1 hnd
    by_cases hx : key x = k
    · have hnone : l.filter (fun y => key y = k) = [] := by
        refine List.filter_eq_nil_iff.2 fun y hy hky => hnot ?_
        rw [hx, ← of_decide_eq_true hky]
        exact List.mem_map_of_mem hy
      simp [hx, hnone]
    · simp [hx, ih hnd]

/-- Erasing an element the filter drops anyway. -/
theorem filter_eraseIdx {p : ι → Bool} {l : List ι} {i : Nat} {x : ι} (hi : l[i]? = some x)
    (hx : p x = false) : (l.eraseIdx i).filter p = l.filter p := by
  induction l generalizing i with
  | nil => cases hi
  | cons y l ih =>
    cases i with
    | zero =>
      obtain rfl : y = x := by simpa using hi
      simp [hx]
    | succ i =>
      rw [List.eraseIdx_cons_succ, List.filter_cons, List.filter_cons, ih (by simpa using hi)]

/-- Dropping entries of other keys does not change what is found under a key. -/
theorem lookup_filter {β : Type v} {l : List (κ × β)} {p : κ × β → Bool} {k : κ}
    (h : ∀ e ∈ l, e.1 = k → p e = true) : (l.filter p).lookup k = l.lookup k := by
  induction l with
  | nil => rfl
  | cons e l ih =>
    have ih := ih fun e' he' => h e' (List.mem_cons_of_mem _ he')
    rw [List.filter_cons]
    by_cases hk : e.1 = k
    · rw [if_pos (h e List.mem_cons_self hk), List.lookup_cons, List.lookup_cons, ih]
    · have hne : (k == e.1) = false := beq_false_of_ne (Ne.symm hk)
      split
      · rw [List.lookup_cons, List.lookup_cons, ih]
      · rw [List.lookup_cons, hne, ih]

theorem eq_of_mem_of_length_le_one {l : List ι} (h : l.length ≤ 1) {x y : ι} (hx : x ∈ l)
    (hy : y ∈ l) : x = y := by
  cases l with
  | nil => cases hx
  | cons a l =>
    obtain rfl : l = [] := List.length_eq_zero_iff.1 (by simpa using h)
    rw [List.mem_singleton.1 hx, List.mem_singleton.1 hy]

theorem mem_of_lookup {β : Type v} {l : List (κ × β)} {k : κ} {b : β} (h : l.lookup k = some b) :
    (k, b) ∈ l := by
  obtain ⟨front, back, rfl, -⟩ := List.lookup_eq_some_iff.1 h
  exact List.mem_append_right _ List.mem_cons_self

theorem lookup_of_mem {β : Type v} {l : List (κ × β)} {k : κ} {b : β}
    (hnd : (l.map Prod.fst).Nodup) (hmem : (k, b) ∈ l) : l.lookup k = some b := by
  induction l with
  | nil => cases hmem
  | cons e l ih =>
    obtain ⟨hnot, hnd⟩ := List.nodup_cons.1 hnd
    obtain rfl | hmem := List.mem_cons.1 hmem
    · simp
    · have hne : k ≠ e.1 := by
        rintro rfl
        exact hnot (List.mem_map.2 ⟨_, hmem, rfl⟩)
      rw [List.lookup_cons, beq_false_of_ne hne]
      exact ih hnd hmem

end Verif
