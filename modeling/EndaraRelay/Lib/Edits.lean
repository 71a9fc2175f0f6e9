import Mathlib.Data.List.Basic
import Mathlib.Data.List.Count

/-!
# Edits of keyed lists

A list of entries, each under a key, and the edits of one entry: it is inserted, put in the place of
another one, or removed. `ListEdit.Effect` is what an edit asks for. An edit has its effect on the list
it was applied to (`effect_apply_self`), and keeps the effect of an earlier one that is about other keys
(`Effect.apply`).

**Repeated keys.** A list need not have distinct keys. Replacing the entry of a key frees the key only
when it was there once, which an admissible edit keeps (`count_apply`): `Effect` promises it of the keys
that were not repeated at the start.

**Logs.** A log of edits, newest first. `Standing` says that every edit no later one overrides has its
effect; `Standing.push` is the rule for one more edit.
-/

namespace Verif

universe u v

/-- The edit of one entry. -/
inductive ListEdit (κ : Type u) (α : Type v) where
  | insert (x : α)
  | replace (k : κ) (x : α)
  | remove (k : κ)

namespace ListEdit

variable {κ : Type u} {α : Type v}

/-- The keys an edit is about. -/
def keys (key : α → κ) : ListEdit κ α → List κ
  | .insert x => [key x]
  | .replace k x => [k, key x]
  | .remove k => [k]

/-- The entry an edit leaves under its key. -/
def entry : ListEdit κ α → Option α
  | .insert x | .replace _ x => some x
  | .remove _ => none

variable [DecidableEq κ] (key : α → κ)

/-- An entry is appended; the first entry of a key is replaced; every entry of a key is removed. -/
def apply : ListEdit κ α → List α → List α
  | .insert x, l => l ++ [x]
  | .replace k x, l => l.replaceF fun y => if key y = k then some x else none
  | .remove k, l => l.filter fun y => key y ≠ k

/-- The entry that is replaced is there, and the key of a new one is free. -/
def Admissible : ListEdit κ α → List α → Prop
  | .insert x, l => key x ∉ l.map key
  | .replace k x, l => k ∈ l.map key ∧ (key x = k ∨ key x ∉ l.map key)
  | .remove _, _ => True

/-- What an edit asks for, given which keys are not repeated. -/
def Effect (once : κ → Prop) : ListEdit κ α → List α → Prop
  | .insert x, l => x ∈ l
  | .replace k x, l => x ∈ l ∧ (once k → key x ≠ k → k ∉ l.map key)
  | .remove k, l => k ∉ l.map key

variable {key} {e e' : ListEdit κ α} {l : List α} {k : κ} {x y : α}

/-! ## Replacing the first entry of a key -/

/-- The first entry of a key, what is before it and what is after it. -/
theorem apply_replace_eq (h : k ∈ l.map key) (x : α) : ∃ y l₁ l₂, key y = k ∧ k ∉ l₁.map key ∧
    l = l₁ ++ y :: l₂ ∧ (replace k x).apply key l = l₁ ++ x :: l₂ := by
  obtain ⟨z, hz, hk⟩ := List.mem_map.1 h
  obtain ⟨y, x', l₁, l₂, hbefore, hy, hl, happly⟩ :=
    List.exists_of_replaceF (p := fun y => if key y = k then some x else none) hz (if_pos hk)
  have hky : key y = k := by
    by_contra hne
    rw [if_neg hne] at hy
    cases hy
  rw [if_pos hky] at hy
  cases hy
  refine ⟨y, l₁, l₂, hky, ?_, hl, happly⟩
  intro hmem
  obtain ⟨b, hb, hkb⟩ := List.mem_map.1 hmem
  have hnone := hbefore b hb
  rw [if_pos hkb] at hnone
  cases hnone

theorem apply_replace_of_notMem (h : k ∉ l.map key) (x : α) : (replace k x).apply key l = l := by
  apply List.replaceF_of_forall_none
  intro y hy
  exact if_neg fun hk => h (List.mem_map.2 ⟨y, hy, hk⟩)

theorem mem_apply_replace (h : y ∈ (replace k x).apply key l) : y = x ∨ y ∈ l := by
  by_cases hk : k ∈ l.map key
  · obtain ⟨z, l₁, l₂, -, -, rfl, happly⟩ := apply_replace_eq hk x
    rw [happly] at h
    simp only [List.mem_append, List.mem_cons] at h ⊢
    tauto
  · rw [apply_replace_of_notMem hk] at h
    exact .inr h

theorem mem_apply_replace_of_mem (h : y ∈ l) (hne : key y ≠ k) : y ∈ (replace k x).apply key l := by
  by_cases hk : k ∈ l.map key
  · obtain ⟨z, l₁, l₂, hz, -, rfl, happly⟩ := apply_replace_eq hk x
    rw [happly]
    simp only [List.mem_append, List.mem_cons] at h ⊢
    rcases h with h | rfl | h
    · exact .inl h
    · exact absurd hz hne
    · exact .inr (.inr h)
  · rwa [apply_replace_of_notMem hk]

/-! ## The entries after an edit -/

/-- An entry after an edit was there before, or is the one the edit brought in. -/
theorem mem_apply (h : y ∈ e.apply key l) : e.entry = some y ∨ y ∈ l := by
  cases e with
  | insert x =>
    rcases List.mem_append.1 h with h | h
    · exact .inr h
    · exact .inl (congrArg some (List.mem_singleton.1 h).symm)
  | replace k x => exact (mem_apply_replace h).imp_left fun h => congrArg some h.symm
  | remove k => exact .inr (List.mem_of_mem_filter h)

omit [DecidableEq κ] in
theorem key_entry_mem (h : e.entry = some x) : key x ∈ e.keys key := by
  cases e with
  | remove k => cases h
  | _ =>
    cases h
    simp [keys]

/-- An entry of a key the edit is not about stays. -/
theorem mem_apply_of_mem (h : y ∈ l) (hne : key y ∉ e.keys key) : y ∈ e.apply key l := by
  cases e with
  | insert x => exact List.mem_append_left _ h
  | replace k x =>
    simp only [keys, List.mem_cons, List.not_mem_nil, or_false, not_or] at hne
    exact mem_apply_replace_of_mem h hne.1
  | remove k => exact List.mem_filter.2 ⟨h, by simpa [keys] using hne⟩

/-- A key the edit is not about is there afterwards when it was before. -/
theorem mem_keys_apply_iff (hne : k ∉ e.keys key) : k ∈ (e.apply key l).map key ↔ k ∈ l.map key := by
  constructor
  · intro h
    obtain ⟨y, hy, rfl⟩ := List.mem_map.1 h
    obtain hentry | hy := mem_apply hy
    · exact absurd (key_entry_mem hentry) hne
    · exact List.mem_map_of_mem hy
  · intro h
    obtain ⟨y, hy, rfl⟩ := List.mem_map.1 h
    exact List.mem_map_of_mem (mem_apply_of_mem hy hne)

/-! ## Effects -/

variable {once : κ → Prop}

/-- An edit keeps the effect of another one that is about other keys. -/
theorem Effect.apply (h : e.Effect key once l) (hne : ∀ k ∈ e.keys key, k ∉ e'.keys key) :
    e.Effect key once (e'.apply key l) := by
  cases e with
  | insert x => exact mem_apply_of_mem h (hne _ (by simp [keys]))
  | replace k x =>
    refine ⟨mem_apply_of_mem h.1 (hne _ (by simp [keys])), fun honce hk => ?_⟩
    rw [mem_keys_apply_iff (hne _ (by simp [keys]))]
    exact h.2 honce hk
  | remove k =>
    show k ∉ _
    rw [mem_keys_apply_iff (hne _ (by simp [keys]))]
    exact h

/-- **An edit has its effect.** -/
theorem effect_apply_self (hadm : e.Admissible key l) (honce : ∀ k, once k → (l.map key).count k ≤ 1) :
    e.Effect key once (e.apply key l) := by
  cases e with
  | insert x => exact List.mem_append_right _ (List.mem_singleton_self x)
  | replace k x =>
    obtain ⟨y, l₁, l₂, hy, hbefore, rfl, happly⟩ := apply_replace_eq hadm.1 x
    show x ∈ _ ∧ _
    rw [happly]
    refine ⟨by simp, fun hk hne hmem => ?_⟩
    have hcount := honce k hk
    -- The key was at the place of the entry replaced, and is nowhere else.
    have hafter : k ∉ l₂.map key := by
      intro hk₂
      have hpos := List.count_pos_iff.2 hk₂
      rw [List.map_append, List.map_cons, List.count_append, hy, List.count_cons_self] at hcount
      omega
    rw [List.map_append, List.map_cons, List.mem_append, List.mem_cons] at hmem
    rcases hmem with hmem | hmem | hmem
    · exact hbefore hmem
    · exact hne hmem.symm
    · exact hafter hmem
  | remove k =>
    intro h
    obtain ⟨y, hy, hk⟩ := List.mem_map.1 h
    have := (List.mem_filter.1 hy).2
    simp [hk] at this

/-- An admissible edit repeats no key that was not repeated before. -/
theorem count_apply (hadm : e.Admissible key l) (h : (l.map key).count k ≤ 1) :
    ((e.apply key l).map key).count k ≤ 1 := by
  cases e with
  | insert x =>
    show ((l ++ [x]).map key).count k ≤ 1
    rw [List.map_append, List.count_append, List.map_singleton]
    by_cases hk : key x = k
    · subst hk
      have hnone : (l.map key).count (key x) = 0 := List.count_eq_zero.2 hadm
      rw [hnone]
      simp
    · rw [List.count_singleton, beq_false_of_ne hk]
      simpa using h
  | replace k' x =>
    obtain ⟨y, l₁, l₂, hy, -, rfl, happly⟩ := apply_replace_eq hadm.1 x
    rw [happly]
    simp only [List.map_append, List.map_cons, List.count_append, List.count_cons] at h ⊢
    by_cases hk : key x = k
    · obtain hsame | hfree := hadm.2
      · rw [hsame.trans hy.symm]
        exact h
      · subst hk
        have hnone := List.count_eq_zero.2 hfree
        simp only [List.map_append, List.map_cons, List.count_append, List.count_cons] at hnone
        simp only [BEq.rfl, if_true]
        omega
    · rw [beq_false_of_ne hk]
      simp only [Bool.false_eq_true, if_false]
      omega
  | remove k' =>
    show ((l.filter _).map key).count k ≤ 1
    exact Nat.le_trans ((List.filter_sublist.map key).count_le k) h

/-! ## Edits seen through a view of the entries -/

variable {β : Type v} {f : α → β} {key' : β → κ}

/-- The edit of what the view shows of the entries. -/
def map (f : α → β) : ListEdit κ α → ListEdit κ β
  | .insert x => .insert (f x)
  | .replace k x => .replace k (f x)
  | .remove k => .remove k

omit [DecidableEq κ] in
theorem keys_map (hf : ∀ x, key' (f x) = key x) : (e.map f).keys key' = e.keys key := by
  cases e with
  | insert x => exact congrArg (fun k => [k]) (hf x)
  | replace k x => exact congrArg (fun k' => [k, k']) (hf x)
  | remove k => rfl

/-- A view that keeps the keys shows the edited list. -/
theorem map_apply (key : α → κ) (key' : β → κ) (hf : ∀ x, key' (f x) = key x) (e : ListEdit κ α)
    (l : List α) : (e.apply key l).map f = (e.map f).apply key' (l.map f) := by
  cases e with
  | insert x => simp [apply, map]
  | replace k x =>
    show (l.replaceF _).map f = (l.map f).replaceF _
    induction l with
    | nil => rfl
    | cons y l ih =>
      by_cases hk : key y = k
      · simp [List.replaceF, hf, hk]
      · simpa [List.replaceF, hf, hk] using ih
  | remove k =>
    show (l.filter _).map f = (l.map f).filter _
    rw [List.filter_map]
    congr 1
    apply List.filter_congr
    intro y _
    simp [hf y]

end ListEdit

/-! ## Logs -/

variable {ε : Type u} {overrides : ε → ε → Prop} {effect effect' : ε → Prop} {log : List ε} {e e' : ε}

/-- Every edit of the log that no later one overrides has its effect. The newest edit is first. -/
def Standing (overrides : ε → ε → Prop) (effect : ε → Prop) (log : List ε) : Prop :=
  ∀ newer e older, log = newer ++ e :: older → (∀ e' ∈ newer, ¬ overrides e' e) → effect e

theorem Standing.nil : Standing overrides effect [] := by
  intro newer e older h
  simp at h

/-- **One more edit**, which keeps the effects it does not override. -/
theorem Standing.push (h : Standing overrides effect log)
    (hkeep : ∀ e ∈ log, ¬ overrides e' e → effect e → effect' e) (hnew : effect' e') :
    Standing overrides effect' (e' :: log) := by
  intro newer e older hlog hnot
  cases newer with
  | nil =>
    obtain ⟨rfl, -⟩ := List.cons.inj hlog
    exact hnew
  | cons e'' newer =>
    obtain ⟨rfl, rfl⟩ := List.cons.inj hlog
    obtain ⟨hfirst, hrest⟩ := List.forall_mem_cons.1 hnot
    exact hkeep e (by simp) hfirst (h newer e older rfl hrest)

theorem Standing.imp (h : Standing overrides effect log) (himp : ∀ e ∈ log, effect e → effect' e) :
    Standing overrides effect' log := by
  intro newer e older hlog hnot
  exact himp e (by simp [hlog]) (h newer e older hlog hnot)

end Verif
