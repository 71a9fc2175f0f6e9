import EndaraRelay.Lib.Table
import Mathlib.Data.Finset.Card

/-!
# Bounded maps that forget the least recently used key

**The map** (`Lru`). At most `cap` entries with distinct keys, the most recently used first. An
insertion and a successful `get` move a key to the front; a `peek` moves nothing.

**What it remembers**, in terms of its history alone: `lastInserted` is the value last inserted for a
key, and `touchedSince` the other keys touched since the last use of a key, where a `get` touches its
key only when it finds it.

**Theorem (`Lru.lookup_after`).** A key is found, with the value last inserted for it, exactly while
fewer than `cap` other keys have been touched since its last use.

The proof goes over the unbounded list of the keys in the order of their last use (`trail`): the map
holds its first `cap` keys (`Lru.keys_after`), and `touchedSince` is what stands in front of a key in
it (`touchedSince_eq_front`).
-/

namespace Verif

universe u v

variable {α : Type u} {β : Type v}

/-- What is asked of a map. -/
inductive Use (α : Type u) (β : Type v) where
  | insert (k : α) (b : β)
  | get (k : α)
  | peek (k : α)

/-- At most `cap` entries with distinct keys, the most recently used first. -/
structure Lru (α : Type u) (β : Type v) (cap : Nat) where
  entries : List (α × β)
  nodup : (entries.map Prod.fst).Nodup
  length_le : entries.length ≤ cap

variable [DecidableEq α] {cap : Nat}

/-! ## The operations -/

variable {l : Lru α β cap} {k x : α} {ks : List α}

namespace Lru

def empty : Lru α β cap := ⟨[], List.nodup_nil, Nat.zero_le _⟩

def keys (l : Lru α β cap) : List α := l.entries.map Prod.fst

def lookup (l : Lru α β cap) (k : α) : Option β := l.entries.lookup k

def front (k : α) (b : β) (entries : List (α × β)) : List (α × β) :=
  (k, b) :: entries.filter fun e => e.1 ≠ k

theorem front_keys (k : α) (b : β) (entries : List (α × β)) :
    (front k b entries).map Prod.fst = k :: (entries.map Prod.fst).filter fun x => x ≠ k := by
  simp only [front, List.map_cons, List.filter_map]
  rfl

/-- Put `k` in front; the last entry goes when there are too many. -/
def insert (l : Lru α β cap) (k : α) (b : β) : Lru α β cap where
  entries := (front k b l.entries).take cap
  nodup := by
    rw [List.map_take, front_keys]
    have h : (k :: (l.entries.map Prod.fst).filter fun x => x ≠ k).Nodup :=
      List.nodup_cons.mpr ⟨by simp, l.nodup.filter _⟩
    exact h.sublist (List.take_sublist _ _)
  length_le := List.length_take_le _ _

/-- One use: an insertion answers the value it replaces. -/
def step (l : Lru α β cap) : Use α β → Lru α β cap × Option β
  | .insert k b => (l.insert k b, l.lookup k)
  | .get k =>
    match l.lookup k with
    | none => (l, none)
    | some b => (l.insert k b, some b)
  | .peek k => (l, l.lookup k)

/-- The map after a history, the last use first. -/
def after (cap : Nat) : List (Use α β) → Lru α β cap
  | [] => empty
  | u :: h => ((after cap h).step u).1

/-- The answers to `uses`, one after the other. -/
def answers (l : Lru α β cap) : List (Use α β) → List (Option β)
  | [] => []
  | u :: uses => (l.step u).2 :: answers (l.step u).1 uses

theorem lookup_eq_some_iff {b : β} : l.lookup k = some b ↔ (k, b) ∈ l.entries :=
  ⟨mem_of_lookup, lookup_of_mem l.nodup⟩

theorem mem_keys_iff : k ∈ l.keys ↔ (l.lookup k).isSome := by
  rw [keys, lookup, List.lookup_isSome_iff]
  simp

end Lru

/-! ## What a history says -/

/-- The value last inserted for `x`. -/
def lastInserted (x : α) : List (Use α β) → Option β
  | [] => none
  | .insert k b :: h => if k = x then some b else lastInserted x h
  | .get _ :: h => lastInserted x h
  | .peek _ :: h => lastInserted x h

/-- The keys other than `x` touched since the last use of `x`. A `get` touches its key when the key
was inserted and fewer than `cap` others have been touched since its own last use. -/
def touchedSince (cap : Nat) : List (Use α β) → α → Finset α
  | [], _ => ∅
  | .insert k _ :: h, x => if k = x then ∅ else insert k (touchedSince cap h x)
  | .get k :: h, x =>
    if (lastInserted k h).isSome ∧ (touchedSince cap h k).card < cap then
      if k = x then ∅ else insert k (touchedSince cap h x)
    else touchedSince cap h x
  | .peek _ :: h, x => touchedSince cap h x

/-- The keys in the order of their last use. -/
def trail (cap : Nat) : List (Use α β) → List α
  | [] => []
  | .insert k _ :: h => k :: (trail cap h).filter fun x => x ≠ k
  | .get k :: h =>
    if k ∈ (trail cap h).take cap then k :: (trail cap h).filter fun x => x ≠ k else trail cap h
  | .peek _ :: h => trail cap h

/-- What stands in front of `x` in a list. -/
def before (x : α) (ks : List α) : Finset α := (ks.takeWhile fun k => k ≠ x).toFinset

theorem before_cons_self (x : α) (ks : List α) : before x (x :: ks) = ∅ := by
  simp [before]

theorem before_cons_ne (h : k ≠ x) (ks : List α) : before x (k :: ks) = insert k (before x ks) := by
  simp [before, h]

theorem before_filter (h : k ≠ x) (ks : List α) :
    before x (ks.filter fun y => y ≠ k) = (before x ks).erase k := by
  induction ks with
  | nil => simp [before]
  | cons a ks ih =>
    by_cases hax : a = x
    · subst hax
      have hak : ¬ a = k := fun hak => h hak.symm
      simp [hak, before_cons_self]
    · by_cases hak : a = k
      · subst hak
        simp only [ne_eq, not_true_eq_false, decide_false, Bool.false_eq_true, not_false_eq_true,
          List.filter_cons_of_neg] at ih ⊢
        rw [ih, before_cons_ne hax, Finset.erase_insert_eq_erase]
      · have hfilter : (a :: ks).filter (fun y => decide (y ≠ k)) =
            a :: ks.filter fun y => decide (y ≠ k) := by simp [hak]
        rw [hfilter, before_cons_ne hax, before_cons_ne hax, ih,
          Finset.erase_insert_of_ne hak]

/-- Moving another key to the front adds it to what stands before `x`. -/
theorem before_moved (h : k ≠ x) (ks : List α) :
    before x (k :: ks.filter fun y => y ≠ k) = insert k (before x ks) := by
  rw [before_cons_ne h, before_filter h]
  ext y
  by_cases hy : y = k
  · simp [hy]
  · simp [hy]

/-- A key is among the first `n` when fewer than `n` stand in front of it. -/
theorem mem_take_iff_before (hnd : ks.Nodup) (hx : x ∈ ks) (n : Nat) :
    x ∈ ks.take n ↔ (before x ks).card < n := by
  induction ks generalizing n with
  | nil => cases hx
  | cons a ks ih =>
    obtain ⟨ha, hnd⟩ := List.nodup_cons.mp hnd
    cases n with
    | zero => simp
    | succ n =>
      by_cases hax : a = x
      · simp [hax, before_cons_self]
      · have hxa : ¬ x = a := fun h => hax h.symm
        obtain h | hx := List.mem_cons.mp hx
        · exact absurd h hxa
        · have hfresh : a ∉ before x ks := fun h =>
            ha (List.takeWhile_subset _ (List.mem_toFinset.mp h))
          rw [List.take_succ_cons, List.mem_cons, before_cons_ne hax,
            Finset.card_insert_of_notMem hfresh, ih hnd hx]
          simp [hxa]

/-! ## The trail -/

section Trail

variable (cap) (h : List (Use α β))

theorem trail_nodup : (trail cap h).Nodup := by
  have hmove : ∀ (k : α) {ks : List α}, ks.Nodup → (k :: ks.filter fun x => x ≠ k).Nodup := by
    intro k ks hks
    exact List.nodup_cons.mpr ⟨by simp, hks.filter _⟩
  induction h with
  | nil => exact List.nodup_nil
  | cons u h ih =>
    cases u with
    | insert k b => exact hmove k ih
    | get k =>
      rw [trail]
      split
      · exact hmove k ih
      · exact ih
    | peek k => exact ih

theorem mem_trail_iff (x : α) : x ∈ trail cap h ↔ (lastInserted x h).isSome := by
  induction h with
  | nil => simp [trail, lastInserted]
  | cons u h ih =>
    cases u with
    | insert k b =>
      by_cases hk : k = x
      · simp [trail, lastInserted, hk]
      · have hx : ¬ x = k := fun h => hk h.symm
        simp [trail, lastInserted, hk, hx, ih]
    | get k =>
      rw [trail, lastInserted]
      split
      · next hk =>
        by_cases hx : x = k
        · subst hx
          simpa using ih.mp (List.mem_of_mem_take hk)
        · simp [hx, ih]
      · exact ih
    | peek k => exact ih

theorem touchedSince_eq_front (x : α) : touchedSince cap h x = before x (trail cap h) := by
  have htouch : ∀ (k x : α) (ks : List α),
      (if k = x then ∅ else insert k (before x ks)) = before x (k :: ks.filter fun y => y ≠ k) := by
    intro k x ks
    by_cases hk : k = x
    · simp [hk, before_cons_self]
    · rw [if_neg hk, before_moved hk]
  induction h generalizing x with
  | nil => simp [touchedSince, trail, before]
  | cons u h ih =>
    cases u with
    | insert k b => rw [touchedSince, ih, htouch, trail]
    | get k =>
      have hfound : ((lastInserted k h).isSome ∧ (touchedSince cap h k).card < cap) ↔
          k ∈ (trail cap h).take cap := by
        rw [← mem_trail_iff cap, ih]
        constructor
        · rintro ⟨hk, hlt⟩
          exact (mem_take_iff_before (trail_nodup cap h) hk cap).mpr hlt
        · intro hk
          have hmem := List.mem_of_mem_take hk
          exact ⟨hmem, (mem_take_iff_before (trail_nodup cap h) hmem cap).mp hk⟩
      rw [touchedSince, trail, if_congr hfound rfl rfl]
      split
      · rw [ih, htouch]
      · rw [ih]
    | peek k => rw [touchedSince, ih, trail]

end Trail

/-! ## The map holds the beginning of the trail -/

/-- Cutting before or after a key is moved to the front makes no difference to the first `n`. -/
theorem take_moved (hnd : ks.Nodup) (k : α) (n : Nat) :
    (k :: (ks.take n).filter fun x => x ≠ k).take n =
      (k :: ks.filter fun x => x ≠ k).take n := by
  cases n with
  | zero => rfl
  | succ n =>
    rw [List.take_succ_cons, List.take_succ_cons]
    congr 1
    induction ks generalizing n with
    | nil => rfl
    | cons a ks ih =>
      obtain ⟨ha, hnd⟩ := List.nodup_cons.mp hnd
      by_cases hak : a = k
      · -- nothing is cut away but what is cut away again
        subst hak
        have hsame : ∀ {xs : List α}, a ∉ xs → (xs.filter fun x => decide (x ≠ a)) = xs := by
          intro xs hxs
          rw [List.filter_eq_self]
          intro x hx
          simpa using fun h : x = a => hxs (h ▸ hx)
        have hcut : a ∉ ks.take n := fun h => ha (List.mem_of_mem_take h)
        have hdrop : ∀ xs : List α, ((a :: xs).filter fun x => decide (x ≠ a)) =
            xs.filter fun x => decide (x ≠ a) := by
          intro xs
          exact List.filter_cons_of_neg (by simp)
        rw [List.take_succ_cons, hdrop, hdrop, hsame hcut, hsame ha, List.take_take, min_self]
      · cases n with
        | zero => rfl
        | succ n => simpa [hak] using ih hnd n

namespace Lru

theorem keys_insert (hnd : ks.Nodup) (hl : l.keys = ks.take cap) (k : α) (b : β) :
    (l.insert k b).keys = (k :: ks.filter fun x => x ≠ k).take cap := by
  have hkeys : (l.insert k b).keys = (k :: l.keys.filter fun x => x ≠ k).take cap := by
    rw [keys, insert, List.map_take, front_keys, keys]
  rw [hkeys, hl, take_moved hnd]

theorem keys_after (h : List (Use α β)) : (after cap h).keys = (trail cap h).take cap := by
  induction h with
  | nil => simp [after, keys, empty, trail]
  | cons u h ih =>
    cases u with
    | insert k b => exact keys_insert (trail_nodup cap h) ih k b
    | get k =>
      rw [after, trail, step]
      cases hk : (after cap h).lookup k with
      | none =>
        have hmiss : ¬ k ∈ (trail cap h).take cap := by
          rw [← ih, mem_keys_iff, hk]
          simp
        rw [if_neg hmiss]
        exact ih
      | some b =>
        have hhit : k ∈ (trail cap h).take cap := by
          rw [← ih, mem_keys_iff, hk]
          simp
        rw [if_pos hhit]
        exact keys_insert (trail_nodup cap h) ih k b
    | peek k => exact ih

/-- An insertion changes no value but the one it inserts. -/
theorem lookup_of_insert {b c : β} (h : (l.insert k b).lookup x = some c) :
    (k = x ∧ b = c) ∨ (k ≠ x ∧ l.lookup x = some c) := by
  obtain hhead | hrest := List.mem_cons.mp (List.mem_of_mem_take (lookup_eq_some_iff.mp h))
  · cases hhead
    exact .inl ⟨rfl, rfl⟩
  · obtain ⟨hold, hne⟩ := List.mem_filter.mp hrest
    have hne : x ≠ k := by simpa using hne
    exact .inr ⟨hne.symm, lookup_eq_some_iff.mpr hold⟩

theorem entries_insert (hcap : 0 < cap) (l : Lru α β cap) (k : α) (b : β) :
    (l.insert k b).entries = (k, b) :: (l.entries.filter fun e => e.1 ≠ k).take (cap - 1) := by
  obtain ⟨n, rfl⟩ : ∃ n, cap = n + 1 := ⟨cap - 1, by omega⟩
  simp only [insert, front, List.take_succ_cons, Nat.add_sub_cancel]

/-- Using a key again drops no entry. -/
theorem entries_insert_of_mem (hk : k ∈ l.keys) (b : β) :
    (l.insert k b).entries = (k, b) :: l.entries.filter fun e => e.1 ≠ k := by
  obtain ⟨e, he, rfl⟩ := List.mem_map.mp hk
  have hshort : (l.entries.filter fun x => x.1 ≠ e.1).length < l.entries.length :=
    List.length_filter_lt_length_iff_exists.mpr ⟨e, he, by simp⟩
  have hbound := l.length_le
  rw [entries_insert (by omega), List.take_of_length_le (by omega)]

/-- What the map holds is what was inserted last. -/
theorem lastInserted_of_lookup {h : List (Use α β)} {c : β} (hx : (after cap h).lookup x = some c) :
    lastInserted x h = some c := by
  induction h with
  | nil => simp [after, empty, lookup] at hx
  | cons u h ih =>
    cases u with
    | insert k b =>
      rw [lastInserted]
      obtain ⟨rfl, rfl⟩ | ⟨hne, hold⟩ := lookup_of_insert hx
      · rw [if_pos rfl]
      · rw [if_neg hne, ih hold]
    | get k =>
      rw [lastInserted]
      rw [after, step] at hx
      cases hk : (after cap h).lookup k with
      | none =>
        rw [hk] at hx
        exact ih hx
      | some b =>
        rw [hk] at hx
        obtain ⟨rfl, rfl⟩ | ⟨-, hold⟩ := lookup_of_insert hx
        · exact ih hk
        · exact ih hold
    | peek k => exact ih hx

/-- **What a bounded map remembers**: the value last inserted for a key, until `cap` other keys have
been touched since its last use. -/
theorem lookup_after (h : List (Use α β)) (x : α) :
    (after cap h).lookup x =
      if (touchedSince cap h x).card < cap then lastInserted x h else none := by
  have hmem : ((after cap h).lookup x).isSome ↔ x ∈ (trail cap h).take cap := by
    rw [← mem_keys_iff, keys_after]
  rw [touchedSince_eq_front]
  by_cases hin : x ∈ trail cap h
  · rw [mem_take_iff_before (trail_nodup cap h) hin] at hmem
    cases hx : (after cap h).lookup x with
    | none =>
      rw [if_neg (by simpa [hx] using hmem)]
    | some c =>
      rw [if_pos (by simpa [hx] using hmem), lastInserted_of_lookup hx]
  · have hnever : lastInserted x h = none := by
      simpa [mem_trail_iff] using hin
    have hnone : (after cap h).lookup x = none := by
      simpa using fun h => hin (List.mem_of_mem_take (hmem.mp h))
    rw [hnone, hnever, ite_self]

/-! ## Runs -/

/-- The map after `uses`, the first one first. -/
def run (l : Lru α β cap) (uses : List (Use α β)) : Lru α β cap :=
  uses.foldl (fun l u => (l.step u).1) l

theorem run_empty (uses : List (Use α β)) : (empty : Lru α β cap).run uses = after cap uses.reverse := by
  rw [run, List.foldl_eq_foldr_reverse]
  induction uses.reverse with
  | nil => rfl
  | cons u h ih => rw [List.foldr_cons, ih, after]

end Lru

end Verif
