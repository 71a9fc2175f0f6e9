import EndaraRelay.Lib.Utf8.Lossy

/-!
# Characters lost to chunking

A text that arrives in chunks, each decoded by itself, loses the characters that a cut falls into.
`marks` says which characters these are, and `Blurred` what is read in their place: two or more U+FFFD.

**Theorem (`blurred_decodeChunks`).** This is what chunking does to a text, and all of it.

The lemmas after it take a blurred text apart the way a parser does: `Blurred.dropWhile`,
`Blurred.reverse`, `Blurred.dropPrefix?` and, for lines, `Blurred.cutLines`. A blurred text is longer
than the text (`Blurred.length_lt`), hence never equal to it.
-/

namespace Verif.Utf8

/-- The ends of the chunks, from an offset on. -/
def cuts : Nat → List (List UInt8) → List Nat
  | _, [] => []
  | o, chunk :: chunks => (o + chunk.length) :: cuts (o + chunk.length) chunks

/-- Each character of a text that starts at an offset, with whether a cut falls inside its bytes. -/
def marks (cuts : List Nat) : Nat → List Char → List (Char × Bool)
  | _, [] => []
  | o, c :: s => (c, cuts.any fun p => o < p && p < o + c.utf8Size) :: marks cuts (o + c.utf8Size) s

/-- A marked text, and what is read of it. -/
inductive Blurred : List (Char × Bool) → List Char → Prop
  | nil : Blurred [] []
  | kept (c : Char) {m : List (Char × Bool)} {d : List Char} : Blurred m d →
      Blurred ((c, false) :: m) (c :: d)
  | lost {c : Char} (n : Nat) {m : List (Char × Bool)} {d : List Char} : 0x80 ≤ c.toNat →
      Blurred m d → Blurred ((c, true) :: m) (List.replicate (n + 2) replacement ++ d)

/-! ## Chunks -/

theorem map_marks (cuts : List Nat) (o : Nat) (s : List Char) :
    (marks cuts o s).map Prod.fst = s := by
  induction s generalizing o with
  | nil => rfl
  | cons c s ih =>
    rw [marks, List.map_cons, ih]

theorem encode_cons (c : Char) (s : List Char) :
    encode (c :: s) = String.utf8EncodeChar c ++ encode s := rfl

variable {chunks : List (List UInt8)} {q : Char → Bool}

theorem le_of_mem_cuts {o p : Nat} (h : p ∈ cuts o chunks) : o ≤ p := by
  induction chunks generalizing o with
  | nil => cases h
  | cons chunk chunks ih =>
    obtain rfl | h := List.mem_cons.1 h
    · exact Nat.le_add_right _ _
    · exact Nat.le_trans (Nat.le_add_right _ _) (ih h)

/-- A cut before the text falls into no character of it. -/
theorem marks_cons_of_le {p o : Nat} (h : p ≤ o) (cuts : List Nat) (s : List Char) :
    marks (p :: cuts) o s = marks cuts o s := by
  induction s generalizing o with
  | nil => rfl
  | cons c s ih =>
    rw [marks, marks, ih (Nat.le_trans h (Nat.le_add_right _ _)), List.any_cons,
      decide_eq_false (Nat.not_lt_of_le h), Bool.false_and, Bool.false_or]

theorem marks_cons_false {cuts : List Nat} {o : Nat} {c : Char}
    (h : ∀ p ∈ cuts, o + c.utf8Size ≤ p) (s : List Char) :
    marks cuts o (c :: s) = (c, false) :: marks cuts (o + c.utf8Size) s := by
  have hany : (cuts.any fun p => o < p && p < o + c.utf8Size) = false := by
    rw [List.any_eq_false]
    intro p hp
    have := h p hp
    simp
    omega
  rw [marks, hany]

theorem ascii_of_length {c : Char} (h : 1 < (String.utf8EncodeChar c).length) : 0x80 ≤ c.toNat := by
  by_contra hlt
  have hsmall : c.toNat ≤ 0x7F := by omega
  rw [String.utf8EncodeChar] at h
  simp [hsmall] at h

/-- A chunk that starts between two characters, when the chunks after it are dealt with. -/
theorem blurred_chunk {chunks : List (List UInt8)}
    (hrest : ∀ (t : List UInt8) (s : List Char) (o : Nat), (∀ b ∈ t, isTail b) → t.length ≤ o →
      chunks.flatten = t ++ encode s → ∃ d,
        decodeChunks chunks = List.replicate t.length replacement ++ d ∧
          Blurred (marks (cuts (o - t.length) chunks) o s) d)
    {chunk : List UInt8} {s : List Char} {o : Nat} (h : chunk ++ chunks.flatten = encode s) :
    Blurred (marks (cuts o (chunk :: chunks)) o s) (decodeLossy none chunk ++ decodeChunks chunks) := by
  induction s generalizing chunk o with
  | nil =>
    obtain ⟨rfl, -⟩ := List.append_eq_nil_iff.1 h
    obtain ⟨d, hd, hblurred⟩ := hrest [] [] o (by simp) (Nat.zero_le o) h
    rw [decodeLossy, List.nil_append, hd]
    exact hblurred
  | cons a s ih =>
    have hsize : (String.utf8EncodeChar a).length = a.utf8Size := String.length_utf8EncodeChar a
    rw [encode_cons] at h
    obtain ⟨rest, hbytes, hflat⟩ | ⟨rest, rfl, hflat⟩ := List.append_eq_append_iff.1 h
    · by_cases hnil : chunk = []
      · -- an empty chunk
        subst hnil
        obtain ⟨d, hd, hblurred⟩ := hrest [] (a :: s) o (by simp) (Nat.zero_le o) h
        rw [cuts, marks_cons_of_le (by simp), decodeLossy, List.nil_append, hd]
        simpa using hblurred
      · by_cases hend : rest = []
        · -- the chunk ends with the character
          subst hend
          rw [List.append_nil] at hbytes
          rw [List.nil_append] at hflat
          have hd := @ih [] (o + a.utf8Size) hflat
          rw [decodeLossy, List.nil_append] at hd
          have hdecode := (encodes a).decode []
          rw [List.append_nil] at hdecode
          rw [← hbytes, hdecode, decodeLossy, marks_cons_false, cuts, hsize]
          · rw [cuts, List.length_nil, Nat.add_zero] at hd
            exact .kept a hd
          · intro p hp
            rw [cuts, hsize] at hp
            obtain rfl | hp := List.mem_cons.1 hp
            · exact Nat.le_refl _
            · exact le_of_mem_cuts hp
        · -- the chunk ends inside the character
          have hlen : chunk.length + rest.length = a.utf8Size := by
            rw [← hsize, hbytes, List.length_append]
          have hchunk : 0 < chunk.length := List.length_pos_iff.2 hnil
          have hrestlen : 0 < rest.length := List.length_pos_iff.2 hend
          have htails : ∀ b ∈ rest, isTail b := by
            intro b hb
            refine (encodes a).tails b ?_
            rw [hbytes, List.drop_append, List.mem_append]
            right
            rw [Nat.sub_eq_zero_of_le hchunk, List.drop_zero]
            exact hb
          have hdecode : decodeLossy none chunk = [replacement] := by
            have hcut := (encodes a).cut chunk.length hchunk (by omega)
            rwa [hbytes, List.take_left] at hcut
          obtain ⟨d, hd, hblurred⟩ := hrest rest s (o + a.utf8Size) htails (by omega) hflat
          have hmark : ((cuts o (chunk :: chunks)).any fun p =>
              o < p && p < o + a.utf8Size) = true := by
            rw [cuts, List.any_cons, Bool.or_eq_true]
            left
            simp
            omega
          have hoffset : o + a.utf8Size - rest.length = o + chunk.length := by omega
          rw [hoffset] at hblurred
          rw [marks, hmark, hdecode, hd, cuts, marks_cons_of_le (by omega)]
          have hlost := Blurred.lost (rest.length - 1) (ascii_of_length (c := a) (by omega)) hblurred
          have hcount : rest.length - 1 + 2 = rest.length + 1 := by omega
          rw [hcount, List.replicate_succ, List.cons_append] at hlost
          exact hlost
    · -- the chunk goes on after the character
      have hd := @ih rest (o + a.utf8Size) hflat.symm
      have hcuts : cuts o ((String.utf8EncodeChar a ++ rest) :: chunks) =
          cuts (o + a.utf8Size) (rest :: chunks) := by
        rw [cuts, cuts, List.length_append, hsize, Nat.add_assoc]
      rw [hcuts, (encodes a).decode, marks_cons_false]
      · exact .kept a hd
      · intro p hp
        exact le_of_mem_cuts hp

/-- Chunks that start inside a character, of which `t` is left. -/
theorem blurred_from (chunks : List (List UInt8)) : ∀ (t : List UInt8) (s : List Char) (o : Nat),
    (∀ b ∈ t, isTail b) → t.length ≤ o → chunks.flatten = t ++ encode s → ∃ d,
      decodeChunks chunks = List.replicate t.length replacement ++ d ∧
        Blurred (marks (cuts (o - t.length) chunks) o s) d := by
  induction chunks with
  | nil =>
    intro t s o _ _ h
    obtain ⟨rfl, hs⟩ := List.append_eq_nil_iff.1 h.symm
    cases s with
    | nil => exact ⟨[], rfl, .nil⟩
    | cons c s =>
      rw [encode_cons] at hs
      exact absurd (List.append_eq_nil_iff.1 hs).1 String.utf8EncodeChar_ne_nil
  | cons chunk chunks ih =>
    intro t s o ht hlen h
    rw [List.flatten_cons] at h
    obtain ⟨rest, rfl, hflat⟩ | ⟨rest, rfl, hflat⟩ := List.append_eq_append_iff.1 h
    · -- the chunk ends before the character does
      obtain ⟨d, hd, hblurred⟩ := ih rest s o (fun b hb => ht b (List.mem_append_right _ hb))
        (by rw [List.length_append] at hlen; omega) hflat
      have hchunk := decodeLossy_tails (fun b hb => ht b (List.mem_append_left rest hb)) []
      rw [List.append_nil, decodeLossy, List.append_nil] at hchunk
      refine ⟨d, ?_, ?_⟩
      · rw [decodeChunks, List.flatMap_cons, hchunk, ← decodeChunks, hd, ← List.append_assoc,
          List.replicate_append_replicate, List.length_append]
      · rw [List.length_append] at hlen ⊢
        have hoffset : o - (chunk.length + rest.length) + chunk.length = o - rest.length := by omega
        rw [cuts, hoffset, marks_cons_of_le (Nat.sub_le _ _)]
        exact hblurred
    · refine ⟨decodeLossy none rest ++ decodeChunks chunks, ?_, ?_⟩
      · rw [decodeChunks, List.flatMap_cons, decodeLossy_tails ht, List.append_assoc, decodeChunks]
      · have hd := @blurred_chunk _ ih rest s o hflat.symm
        have hoffset : o - t.length + (t ++ rest).length = o + rest.length := by
          rw [List.length_append]
          omega
        rw [cuts, hoffset]
        exact hd

/-- **What chunking does to a text.** -/
theorem blurred_decodeChunks {s : List Char} (h : chunks.flatten = encode s) :
    Blurred (marks (cuts 0 chunks) 0 s) (decodeChunks chunks) := by
  obtain ⟨d, hd, hblurred⟩ := blurred_from chunks [] s 0 (by simp) (Nat.le_refl 0) h
  rw [hd]
  exact hblurred

/-! ## Taking a blurred text apart -/

namespace Blurred

variable {m m' : List (Char × Bool)} {d d' : List Char}

/-- Whether a character is lost. -/
def lossy (m : List (Char × Bool)) : Bool := m.any Prod.snd

section

variable (h : Blurred m d)
include h

theorem eq_of_not_lossy (hm : lossy m = false) : d = m.map Prod.fst := by
  induction h with
  | nil => rfl
  | kept c _ ih =>
    rw [lossy, List.any_cons, Bool.false_or] at hm
    rw [List.map_cons, ih hm]
  | lost n _ _ _ => simp [lossy] at hm

theorem eq_nil_iff : d = [] ↔ m.map Prod.fst = [] := by
  cases h with
  | nil => simp
  | kept c _ => simp
  | lost n _ _ => simp

theorem length_le : m.length ≤ d.length := by
  induction h with
  | nil => exact Nat.le_refl 0
  | kept c _ ih => exact Nat.succ_le_succ ih
  | lost n _ _ ih =>
    rw [List.length_cons, List.length_append, List.length_replicate]
    omega

theorem length_lt (hm : lossy m = true) : m.length < d.length := by
  induction h with
  | nil => simp [lossy] at hm
  | kept c _ ih =>
    rw [lossy, List.any_cons, Bool.false_or] at hm
    exact Nat.succ_lt_succ (ih hm)
  | lost n _ hd _ =>
    have := hd.length_le
    rw [List.length_cons, List.length_append, List.length_replicate]
    omega

theorem mem_replacement (hm : lossy m = true) : replacement ∈ d := by
  induction h with
  | nil => simp [lossy] at hm
  | kept c _ ih =>
    rw [lossy, List.any_cons, Bool.false_or] at hm
    exact List.mem_cons_of_mem c (ih hm)
  | lost n _ _ _ => simp

theorem append (h' : Blurred m' d') : Blurred (m ++ m') (d ++ d') := by
  induction h with
  | nil => exact h'
  | kept c _ ih => exact .kept c ih
  | lost n hc _ ih =>
    rw [List.append_assoc]
    exact .lost n hc ih

theorem reverse : Blurred m.reverse d.reverse := by
  induction h with
  | nil => exact .nil
  | kept c _ ih =>
    rw [List.reverse_cons, List.reverse_cons]
    exact ih.append (.kept c .nil)
  | lost n hc _ ih =>
    have hlost := ih.append (.lost n hc .nil)
    rwa [List.append_nil, ← List.reverse_replicate, ← List.reverse_append,
      ← List.reverse_cons] at hlost

end

/-- Characters are dropped up to the first one that is lost. -/
theorem dropWhile (hq : q replacement = false) (h : Blurred m d) :
    Blurred (m.dropWhile fun x => q x.1 && !x.2) (d.dropWhile q) := by
  induction h with
  | nil => exact .nil
  | kept c hd ih =>
    rw [List.dropWhile_cons, List.dropWhile_cons]
    cases hc : q c with
    | true => simpa [hc] using ih
    | false => simpa [hc] using Blurred.kept c hd
  | lost n hc hd _ =>
    rw [List.dropWhile_cons, Bool.not_true, Bool.and_false, if_neg Bool.false_ne_true,
      List.replicate_succ, List.cons_append, List.dropWhile_cons, hq, if_neg Bool.false_ne_true,
      ← List.cons_append, ← List.replicate_succ]
    exact .lost n hc hd

theorem lossy_reverse (m : List (Char × Bool)) : lossy m.reverse = lossy m := List.any_reverse

theorem lossy_dropWhile (q : Char → Bool) (m : List (Char × Bool)) :
    lossy (m.dropWhile fun x => q x.1 && !x.2) = lossy m := by
  induction m with
  | nil => rfl
  | cons x m ih =>
    rw [List.dropWhile_cons]
    split
    · next h =>
      rw [Bool.and_eq_true, Bool.not_eq_true'] at h
      rw [ih, lossy, lossy, List.any_cons, h.2, Bool.false_or]
    · rfl

/-- Dropping ASCII characters drops the same ones. -/
theorem map_dropWhile (hq : ∀ c, 0x80 ≤ c.toNat → q c = false) (h : Blurred m d) :
    (m.dropWhile fun x => q x.1 && !x.2).map Prod.fst = (m.map Prod.fst).dropWhile q := by
  induction h with
  | nil => rfl
  | kept c _ ih =>
    rw [List.map_cons, List.dropWhile_cons, List.dropWhile_cons, Bool.not_false, Bool.and_true]
    split
    · exact ih
    · rfl
  | lost n hc _ _ =>
    rw [List.map_cons, List.dropWhile_cons, List.dropWhile_cons, hq _ hc]
    rfl

/-- At least as much is left of the marked text. -/
theorem dropWhile_sublist (q : Char → Bool) (m : List (Char × Bool)) :
    List.Sublist ((m.map Prod.fst).dropWhile q)
      ((m.dropWhile fun x => q x.1 && !x.2).map Prod.fst) := by
  induction m with
  | nil => exact List.Sublist.refl _
  | cons x m ih =>
    rw [List.map_cons, List.dropWhile_cons, List.dropWhile_cons]
    by_cases hx : q x.1 = true
    · rw [if_pos hx]
      split
      · exact ih
      · exact (List.dropWhile_sublist q).cons x.1
    · rw [if_neg hx, if_neg (by simp [hx])]
      exact List.Sublist.refl _

theorem dropWhile_mono {s t : List Char} (h : s.Sublist t) :
    (s.dropWhile q).Sublist (t.dropWhile q) := by
  induction h with
  | slnil => exact List.Sublist.refl _
  | cons c h ih =>
    rw [List.dropWhile_cons]
    split
    · exact ih
    · exact ((List.dropWhile_sublist q).trans h).cons c
  | cons_cons c h ih =>
    rw [List.dropWhile_cons, List.dropWhile_cons]
    split
    · exact ih
    · exact h.cons_cons c

/-- A text of ASCII characters is found at the beginning of both or of neither. -/
theorem dropPrefix? {p : List Char} (hp : ∀ c ∈ p, c.toNat < 0x80) (h : Blurred m d) :
    (m.map Prod.fst).dropPrefix? p = none ∧ d.dropPrefix? p = none ∨
      ∃ m' d', (m.map Prod.fst).dropPrefix? p = some (m'.map Prod.fst) ∧
        d.dropPrefix? p = some d' ∧ Blurred m' d' ∧ lossy m' = lossy m := by
  induction p generalizing m d with
  | nil => exact .inr ⟨m, d, by simp, by simp, h, rfl⟩
  | cons a p ih =>
    have ha := hp a List.mem_cons_self
    cases h with
    | nil => exact .inl ⟨rfl, rfl⟩
    | kept c hd =>
      rw [List.map_cons, List.dropPrefix?, List.dropPrefix?]
      split
      · obtain hnone | ⟨m', d', hm, hd', hb, hl⟩ := ih (fun x hx => hp x (List.mem_cons_of_mem a hx)) hd
        · exact .inl hnone
        · refine .inr ⟨m', d', hm, hd', hb, ?_⟩
          rw [hl, lossy, lossy, List.any_cons, Bool.false_or]
      · exact .inl ⟨rfl, rfl⟩
    | lost n hc hd =>
      have hne : ∀ {c : Char}, 0x80 ≤ c.toNat → ¬ (c == a) = true := by
        intro c hc heq
        rw [beq_iff_eq] at heq
        rw [heq] at hc
        omega
      rw [List.map_cons, List.replicate_succ, List.cons_append, List.dropPrefix?, List.dropPrefix?,
        if_neg (hne hc), if_neg (hne (by decide))]
      exact .inl ⟨rfl, rfl⟩

end Blurred

end Verif.Utf8
