import Mathlib.Data.List.DropRight

/-!
# The text of a URL

What a URL parser does with its input before it looks at a scheme or a host. Spaces and controls are taken off
at both ends (`clean`), tabs and line ends everywhere. Then the fragment begins at the first `#`, and the query
at the first `?` before it. What is left of both is the head, with the scheme, the authority and the path.

**Theorem (`clean_append`).** A text that is put at the end keeps what was there, with the spaces and controls
that would have come off (`fromStart_eq`).
-/

namespace Verif.UrlText

/-! ## What a parser takes off -/

def isControlOrSpace (c : Char) : Bool := c.toNat ≤ 0x20

def isTabOrNewline (c : Char) : Bool := c = '\t' || c = '\n' || c = '\r'

/-- What is left of the front of a longer input. -/
def fromStart (t : List Char) : List Char := (t.dropWhile isControlOrSpace).filter fun c => !isTabOrNewline c

/-- What is left of the whole input. -/
def clean (t : List Char) : List Char :=
  ((t.dropWhile isControlOrSpace).rdropWhile isControlOrSpace).filter fun c => !isTabOrNewline c

/-- Nothing comes off at the end that would not come off in the middle. -/
def EndsClean (t : List Char) : Prop := ∀ c ∈ (fromStart t).getLast?, isControlOrSpace c = false

/-! ## The cuts -/

/-- What is before the fragment. -/
def front (t : List Char) : List Char := t.takeWhile (· ≠ '#')

/-- The scheme, the authority and the path. -/
def head (t : List Char) : List Char := (front t).takeWhile (· ≠ '?')

/-- The query, an absent one as an empty one. -/
def query (t : List Char) : List Char := ((front t).dropWhile (· ≠ '?')).drop 1

/-! ## What comes off -/

variable {c d : Char} {a x : List Char}

theorem isControlOrSpace_of_isTabOrNewline (h : isTabOrNewline c = true) :
    isControlOrSpace c = true := by
  simp only [isTabOrNewline, Bool.or_eq_true, decide_eq_true_eq] at h
  rcases h with (rfl | rfl) | rfl
  · rfl
  · rfl
  · rfl

/-- Characters that are never taken off. -/
def Kept (x : List Char) : Prop := ∀ c ∈ x, isControlOrSpace c = false

instance (x : List Char) : Decidable (Kept x) := List.decidableBAll _ x

theorem Kept.filter_eq (h : Kept x) : x.filter (fun c => !isTabOrNewline c) = x := by
  refine List.filter_eq_self.mpr fun c hc => ?_
  cases htab : isTabOrNewline c with
  | false => rfl
  | true =>
    have hstripped := isControlOrSpace_of_isTabOrNewline htab
    rw [h c hc] at hstripped
    cases hstripped

theorem rdropWhile_append_kept {p : Char → Bool} (h : ∀ c ∈ x, p c = false) (hne : x ≠ [])
    (t : List Char) : (t ++ x).rdropWhile p = t ++ x := by
  obtain ⟨init, c, rfl⟩ : ∃ init c, x = init ++ [c] := ⟨_, _, (List.dropLast_append_getLast hne).symm⟩
  have hc : p c = false := h c (List.mem_append_right _ (List.mem_singleton_self c))
  rw [← List.append_assoc, List.rdropWhile_concat_neg p _ c (by simp [hc])]

/-- What is put at the end stays, and keeps what is before it from coming off. -/
theorem clean_append (h : Kept x) (hne : x ≠ []) (t : List Char) :
    clean (t ++ x) = fromStart t ++ x := by
  have hstart : (t ++ x).dropWhile isControlOrSpace = t.dropWhile isControlOrSpace ++ x := by
    rw [List.dropWhile_append]
    cases hdrop : t.dropWhile isControlOrSpace with
    | nil =>
      cases x with
      | nil => exact absurd rfl hne
      | cons c x => exact List.dropWhile_cons_of_neg (by simp [h c List.mem_cons_self])
    | cons c rest => rfl
  unfold clean fromStart
  rw [hstart, rdropWhile_append_kept h hne, List.filter_append, h.filter_eq]

/-- A text at the front stays as well. -/
theorem fromStart_append (h : Kept x) (hne : x ≠ []) (t : List Char) :
    fromStart (x ++ t) = x ++ t.filter fun c => !isTabOrNewline c := by
  have hstart : (x ++ t).dropWhile isControlOrSpace = x ++ t := by
    cases x with
    | nil => exact absurd rfl hne
    | cons c x => exact List.dropWhile_cons_of_neg (by simp [h c List.mem_cons_self])
  unfold fromStart
  rw [hstart, List.filter_append, h.filter_eq]

/-- The spaces and controls that come off at the end alone. -/
theorem fromStart_eq (t : List Char) :
    ∃ w, fromStart t = clean t ++ w ∧ ∀ c ∈ w, isControlOrSpace c = true := by
  have hsplit : ∀ l : List Char,
      l = l.rdropWhile isControlOrSpace ++ (l.reverse.takeWhile isControlOrSpace).reverse := by
    intro l
    have h := congrArg List.reverse (List.takeWhile_append_dropWhile (p := isControlOrSpace) (l := l.reverse))
    rw [List.reverse_append, List.reverse_reverse] at h
    exact h.symm
  refine ⟨((t.dropWhile isControlOrSpace).reverse.takeWhile isControlOrSpace).reverse.filter
    fun c => !isTabOrNewline c, ?_, fun c hc => ?_⟩
  · unfold fromStart clean
    rw [← List.filter_append, ← hsplit]
  · exact List.mem_takeWhile_imp (List.mem_reverse.mp (List.mem_filter.mp hc).1)

theorem clean_getLast (t : List Char) : ∀ c ∈ (clean t).getLast?, isControlOrSpace c = false := by
  unfold clean
  cases hr : (t.dropWhile isControlOrSpace).rdropWhile isControlOrSpace with
  | nil => nofun
  | cons d rest =>
    have hne : (t.dropWhile isControlOrSpace).rdropWhile isControlOrSpace ≠ [] := by
      rw [hr]
      exact List.cons_ne_nil d rest
    have hlast := List.rdropWhile_last_not isControlOrSpace (t.dropWhile isControlOrSpace) hne
    rw [← hr, ← List.dropLast_append_getLast hne, List.filter_append]
    have hkept : Kept [((t.dropWhile isControlOrSpace).rdropWhile isControlOrSpace).getLast hne] := by
      intro c hc
      rw [List.mem_singleton.mp hc]
      exact Bool.eq_false_iff.mpr hlast
    rw [hkept.filter_eq, List.getLast?_concat]
    exact fun c hc => hkept c (List.mem_singleton.mpr (Option.some.inj hc).symm)

/-- Nothing comes off at the end alone. -/
theorem endsClean_iff (t : List Char) : EndsClean t ↔ fromStart t = clean t := by
  constructor
  · intro h
    obtain ⟨w, hw, hstripped⟩ := fromStart_eq t
    cases hlast : w.getLast? with
    | none =>
      rw [List.getLast?_eq_none_iff.mp hlast, List.append_nil] at hw
      exact hw
    | some c =>
      have hfrom : c ∈ (fromStart t).getLast? := by
        rw [hw, List.getLast?_append, hlast]
        rfl
      have hkept := h c hfrom
      rw [hstripped c (List.mem_of_getLast? hlast)] at hkept
      cases hkept
  · intro h
    unfold EndsClean
    rw [h]
    exact clean_getLast t

theorem mem_fromStart_iff (hc : isControlOrSpace c = false) (t : List Char) :
    c ∈ fromStart t ↔ c ∈ t := by
  have htab : isTabOrNewline c = false := by
    cases h : isTabOrNewline c with
    | false => rfl
    | true =>
      rw [isControlOrSpace_of_isTabOrNewline h] at hc
      cases hc
  unfold fromStart
  rw [List.mem_filter, htab]
  constructor
  · exact fun h => (List.dropWhile_sublist _).subset h.1
  · intro h
    refine ⟨?_, rfl⟩
    rw [← List.takeWhile_append_dropWhile (p := isControlOrSpace) (l := t)] at h
    rcases List.mem_append.mp h with h | h
    · rw [List.mem_takeWhile_imp h] at hc
      cases hc
    · exact h

theorem mem_clean_iff (hc : isControlOrSpace c = false) (t : List Char) : c ∈ clean t ↔ c ∈ t := by
  obtain ⟨w, hw, hstripped⟩ := fromStart_eq t
  rw [← mem_fromStart_iff hc t, hw, List.mem_append]
  refine ⟨.inl, fun h => h.resolve_right fun hmem => ?_⟩
  have hfalse := hstripped c hmem
  rw [hc] at hfalse
  cases hfalse

/-! ## Cutting a longer text -/

theorem takeWhile_append_of_mem (h : d ∈ a) (x : List Char) :
    (a ++ x).takeWhile (· ≠ d) = a.takeWhile (· ≠ d) := by
  induction a with
  | nil => cases h
  | cons c a ih =>
    by_cases hc : c = d
    · simp [hc]
    · have hmem : d ∈ a := (List.mem_cons.mp h).resolve_left (Ne.symm hc)
      rw [List.cons_append, List.takeWhile_cons_of_pos (by simpa using hc),
        List.takeWhile_cons_of_pos (by simpa using hc), ih hmem]

theorem dropWhile_append_of_mem (h : d ∈ a) (x : List Char) :
    (a ++ x).dropWhile (· ≠ d) = a.dropWhile (· ≠ d) ++ x := by
  induction a with
  | nil => cases h
  | cons c a ih =>
    by_cases hc : c = d
    · simp [hc]
    · have hmem : d ∈ a := (List.mem_cons.mp h).resolve_left (Ne.symm hc)
      rw [List.cons_append, List.dropWhile_cons_of_pos (by simpa using hc),
        List.dropWhile_cons_of_pos (by simpa using hc), ih hmem]

theorem takeWhile_of_not_mem (h : d ∉ a) : a.takeWhile (· ≠ d) = a :=
  List.takeWhile_eq_self_iff.mpr fun _ hc => decide_eq_true fun heq => h (heq ▸ hc)

theorem dropWhile_of_not_mem (h : d ∉ a) : a.dropWhile (· ≠ d) = [] :=
  List.dropWhile_eq_nil_iff.mpr fun _ hc => decide_eq_true fun heq => h (heq ▸ hc)

variable {a x : List Char}

/-- Behind a fragment there is no query. -/
theorem cut_append_of_hash (h : '#' ∈ a) : head (a ++ x) = head a ∧ query (a ++ x) = query a := by
  unfold head query front
  rw [takeWhile_append_of_mem h]
  exact ⟨rfl, rfl⟩

theorem mem_dropWhile (h : d ∈ a) : ∃ rest, a.dropWhile (· ≠ d) = d :: rest := by
  induction a with
  | nil => cases h
  | cons c a ih =>
    by_cases hc : c = d
    · exact ⟨a, by simp [hc]⟩
    · obtain ⟨rest, hrest⟩ := ih ((List.mem_cons.mp h).resolve_left (Ne.symm hc))
      exact ⟨rest, by rw [List.dropWhile_cons_of_pos (by simpa using hc), hrest]⟩

/-- What follows a query goes on with it. -/
theorem cut_append_of_question (hhash : '#' ∉ a) (hx : '#' ∉ x) (h : '?' ∈ a) :
    head (a ++ x) = head a ∧ query (a ++ x) = query a ++ x := by
  have hboth : '#' ∉ a ++ x := fun hmem => (List.mem_append.mp hmem).elim hhash hx
  obtain ⟨rest, hrest⟩ := mem_dropWhile h
  unfold head query front
  rw [takeWhile_of_not_mem hboth, takeWhile_of_not_mem hhash, takeWhile_append_of_mem h,
    dropWhile_append_of_mem h, hrest]
  exact ⟨rfl, rfl⟩

/-- A query that begins behind a head. -/
theorem cut_question (hhash : '#' ∉ a) (hx : '#' ∉ x) (h : '?' ∉ a) :
    head (a ++ '?' :: x) = a ∧ query (a ++ '?' :: x) = x := by
  have hboth : '#' ∉ a ++ '?' :: x := by
    rw [List.mem_append, List.mem_cons]
    rintro (hmem | hmem | hmem)
    · exact hhash hmem
    · exact absurd hmem (by decide)
    · exact hx hmem
  have hall : ∀ c ∈ a, (c ≠ '?' : Bool) = true := fun c hc => decide_eq_true fun heq => h (heq ▸ hc)
  unfold head query front
  rw [takeWhile_of_not_mem hboth, List.takeWhile_append_of_pos hall, List.dropWhile_append_of_pos hall,
    List.takeWhile_cons_of_neg (by simp), List.dropWhile_cons_of_neg (by simp), List.append_nil]
  exact ⟨rfl, rfl⟩

/-- A text with neither a fragment nor a query is all head. -/
theorem cut_plain (hhash : '#' ∉ a) (h : '?' ∉ a) : head a = a ∧ query a = [] := by
  unfold head query front
  rw [takeWhile_of_not_mem hhash, takeWhile_of_not_mem h, dropWhile_of_not_mem h]
  exact ⟨rfl, rfl⟩

end Verif.UrlText
