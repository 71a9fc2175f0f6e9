import EndaraRelay.ResourceUri
import Mathlib.Data.List.TakeWhile

/-!
# Localhost origins

`is_localhost_origin` of `server.rs`, which decides whether a browser page at an `Origin` may call
the relay, and the predicate of the CORS layer around it.

**The model.** `isLocalhostOrigin` strips `http://` or `https://`, cuts a host out of what is left
at the first `]` (when it starts with `[`) or at the first `:`, and compares it with three names.
`IsLocalhostOrigin` says which strings are meant: scheme, one of the three hosts, and an optional
port of decimal digits, with nothing after it.

**The slip.** The text behind the cut is never looked at, and a missing `]` is added before the
comparison. So `http://localhost:` is followed by anything, `http://[::1]` is followed by anything,
and `http://[::1` needs no bracket (`StrayOrigin`).

**Theorem (`isLocalhostOrigin_exact_iff`).** The test decides `IsLocalhostOrigin` for exactly the
strings that are not stray.
-/

namespace EndaraRelay

open Verif

/-- The first piece of `s.split(d)`. -/
def splitNext (d : Char) (s : List Char) : List Char := s.takeWhile fun c => c ≠ d

/-- `origin` behind `http://` or `https://`. -/
def withoutScheme (origin : String) : Option (List Char) :=
  (stripPrefix "http://".toList origin.toList).or (stripPrefix "https://".toList origin.toList)

/-- The host in front of the port, an IPv6 one in its brackets. -/
def originHost (hostPort : List Char) : List Char :=
  if hostPort.head? = some '[' then splitNext ']' hostPort ++ [']'] else splitNext ':' hostPort

def localhostNames : List String := ["localhost", "127.0.0.1", "[::1]"]

/-- Check whether an `Origin` header value is a localhost origin. -/
def isLocalhostOrigin (origin : String) : Bool :=
  match withoutScheme origin with
  | none => false
  | some hostPort => decide (String.ofList (originHost hostPort) ∈ localhostNames)

/-! ## Which origins are meant -/

/-- Nothing, or a colon and decimal digits to the end. -/
def IsOptionalPort (s : List Char) : Prop :=
  s = [] ∨ ∃ digits, digits ≠ [] ∧ (∀ c ∈ digits, c.isDigit = true) ∧ s = ':' :: digits

/-- Scheme, host, and an optional port with nothing after it. -/
def IsLocalhostOrigin (origin : String) : Prop :=
  ∃ scheme ∈ ["http", "https"], ∃ host ∈ localhostNames, ∃ port, IsOptionalPort port ∧
    origin = scheme ++ "://" ++ host ++ String.ofList port

/-- A localhost name with something else behind it than a port: a colon without a decimal port
behind a name, or behind `[::1` anything but a bracket and an optional port. -/
def StrayOrigin (origin : String) : Prop :=
  ∃ scheme ∈ ["http", "https"], ∃ rest,
    ((origin = scheme ++ "://localhost:" ++ String.ofList rest ∨
        origin = scheme ++ "://127.0.0.1:" ++ String.ofList rest) ∧
      ¬ IsOptionalPort (':' :: rest)) ∨
    (origin = scheme ++ "://[::1" ++ String.ofList rest ∧
      (rest = [] ∨ ∃ tail, rest = ']' :: tail ∧ ¬ IsOptionalPort tail))

/-! ## Behind the scheme -/

variable {origin : String} {s : List Char}

theorem withoutScheme_eq_some :
    withoutScheme origin = some s ↔
      ∃ scheme ∈ ["http", "https"], origin = scheme ++ "://" ++ String.ofList s := by
  constructor
  · intro h
    rw [withoutScheme, Option.or_eq_some_iff] at h
    obtain h | ⟨-, h⟩ := h
    · refine ⟨"http", by simp, ?_⟩
      rw [← String.toList_inj, append_of_stripPrefix h]
      simp
    · refine ⟨"https", by simp, ?_⟩
      rw [← String.toList_inj, append_of_stripPrefix h]
      simp
  · rintro ⟨scheme, hscheme, rfl⟩
    obtain rfl | rfl : scheme = "http" ∨ scheme = "https" := by simpa using hscheme
    · simp [withoutScheme, stripPrefix]
    · simp [withoutScheme, stripPrefix]

/-- What stands behind the scheme of an origin that is meant. -/
def IsLocalhostHostPort (s : List Char) : Prop :=
  ∃ host ∈ localhostNames, ∃ port, IsOptionalPort port ∧ s = host.toList ++ port

/-- What stands behind the scheme of a stray origin. -/
def StrayHostPort (s : List Char) : Prop :=
  ∃ rest,
    ((s = "localhost".toList ++ ':' :: rest ∨ s = "127.0.0.1".toList ++ ':' :: rest) ∧
      ¬ IsOptionalPort (':' :: rest)) ∨
    (s = "[::1".toList ++ rest ∧ (rest = [] ∨ ∃ tail, rest = ']' :: tail ∧ ¬ IsOptionalPort tail))

theorem isLocalhostOrigin_iff_hostPort :
    IsLocalhostOrigin origin ↔ ∃ s, withoutScheme origin = some s ∧ IsLocalhostHostPort s := by
  simp only [withoutScheme_eq_some]
  constructor
  · rintro ⟨scheme, hscheme, host, hhost, port, hport, rfl⟩
    refine ⟨host.toList ++ port, ⟨scheme, hscheme, ?_⟩, host, hhost, port, hport, rfl⟩
    simp [← String.toList_inj]
  · rintro ⟨_, ⟨scheme, hscheme, rfl⟩, host, hhost, port, hport, rfl⟩
    refine ⟨scheme, hscheme, host, hhost, port, hport, ?_⟩
    simp [← String.toList_inj]

theorem strayOrigin_iff_hostPort :
    StrayOrigin origin ↔ ∃ s, withoutScheme origin = some s ∧ StrayHostPort s := by
  simp only [withoutScheme_eq_some]
  constructor
  · rintro ⟨scheme, hscheme, rest, ⟨rfl | rfl, hport⟩ | ⟨rfl, hrest⟩⟩
    · refine ⟨_, ⟨scheme, hscheme, ?_⟩, rest, .inl ⟨.inl rfl, hport⟩⟩
      simp [← String.toList_inj]
    · refine ⟨_, ⟨scheme, hscheme, ?_⟩, rest, .inl ⟨.inr rfl, hport⟩⟩
      simp [← String.toList_inj]
    · refine ⟨_, ⟨scheme, hscheme, ?_⟩, rest, .inr ⟨rfl, hrest⟩⟩
      simp [← String.toList_inj]
  · rintro ⟨_, ⟨scheme, hscheme, rfl⟩, rest, ⟨rfl | rfl, hport⟩ | ⟨rfl, hrest⟩⟩
    · refine ⟨scheme, hscheme, rest, .inl ⟨.inl ?_, hport⟩⟩
      simp [← String.toList_inj]
    · refine ⟨scheme, hscheme, rest, .inl ⟨.inr ?_, hport⟩⟩
      simp [← String.toList_inj]
    · refine ⟨scheme, hscheme, rest, .inr ⟨?_, hrest⟩⟩
      simp [← String.toList_inj]

/-! ## The cut -/

/-- The first piece is `p` when the text is `p`, or `p` and the delimiter in front of the rest. -/
theorem splitNext_eq_iff {d : Char} {p s : List Char} (hp : d ∉ p) :
    splitNext d s = p ↔ s = p ∨ ∃ rest, s = p ++ d :: rest := by
  induction s generalizing p with
  | nil => simp [splitNext, eq_comm]
  | cons c s ih =>
    by_cases hc : c = d
    · subst hc
      cases p with
      | nil => simp [splitNext]
      | cons a p =>
        obtain ⟨ha, -⟩ : ¬ c = a ∧ c ∉ p := by simpa using hp
        simp [splitNext, ha]
    · have hcut : splitNext d (c :: s) = c :: splitNext d s := by simp [splitNext, hc]
      rw [hcut]
      cases p with
      | nil => simp [hc]
      | cons a p =>
        obtain ⟨-, hp'⟩ : ¬ d = a ∧ d ∉ p := by simpa using hp
        by_cases hca : c = a
        · subst hca
          simpa using ih hp'
        · simp [hca]

theorem ofList_mem_localhostNames {p : List Char} :
    String.ofList p ∈ localhostNames ↔
      p = "localhost".toList ∨ p = "127.0.0.1".toList ∨ p = "[::1]".toList := by
  simp [localhostNames, ← String.toList_inj]

theorem originHost_bracket_mem (s : List Char) :
    String.ofList (splitNext ']' s ++ [']']) ∈ localhostNames ↔ splitNext ']' s = "[::1".toList := by
  rw [ofList_mem_localhostNames]
  constructor
  · rintro (h | h | h)
    · simpa using congrArg List.getLast? h
    · simpa using congrArg List.getLast? h
    · have h : splitNext ']' s ++ [']'] = "[::1".toList ++ [']'] := h
      exact List.append_cancel_right h
  · intro h
    rw [h]
    exact .inr (.inr rfl)

theorem originHost_name_mem (s : List Char) :
    String.ofList (splitNext ':' s) ∈ localhostNames ↔
      splitNext ':' s = "localhost".toList ∨ splitNext ':' s = "127.0.0.1".toList := by
  have hcolon : ':' ∉ splitNext ':' s := fun h => by simpa using List.mem_takeWhile_imp h
  have hv6 : splitNext ':' s ≠ "[::1]".toList := fun h => hcolon (by rw [h]; decide)
  rw [ofList_mem_localhostNames]
  simp only [hv6, or_false]

theorem isLocalhostHostPort_iff :
    IsLocalhostHostPort s ↔ ∃ port, IsOptionalPort port ∧
      (s = "localhost".toList ++ port ∨ s = "127.0.0.1".toList ++ port ∨
        s = "[::1]".toList ++ port) := by
  constructor
  · rintro ⟨host, hhost, port, hport, rfl⟩
    obtain rfl | rfl | rfl : host = "localhost" ∨ host = "127.0.0.1" ∨ host = "[::1]" := by
      simpa [localhostNames] using hhost
    · exact ⟨port, hport, .inl rfl⟩
    · exact ⟨port, hport, .inr (.inl rfl)⟩
    · exact ⟨port, hport, .inr (.inr rfl)⟩
  · rintro ⟨port, hport, rfl | rfl | rfl⟩
    · exact ⟨"localhost", by decide, port, hport, rfl⟩
    · exact ⟨"127.0.0.1", by decide, port, hport, rfl⟩
    · exact ⟨"[::1]", by decide, port, hport, rfl⟩

/-- The bracketed host is accepted behind `[::1` alone or behind its bracket. -/
theorem originHost_mem_of_bracket {s : List Char} (hs : s.head? = some '[') :
    String.ofList (originHost s) ∈ localhostNames ↔ IsLocalhostHostPort s ∨ StrayHostPort s := by
  rw [originHost, if_pos hs, originHost_bracket_mem, splitNext_eq_iff (by decide),
    isLocalhostHostPort_iff]
  constructor
  · rintro (rfl | ⟨rest, rfl⟩)
    · exact .inr ⟨[], .inr ⟨rfl, .inl rfl⟩⟩
    · by_cases hport : IsOptionalPort rest
      · exact .inl ⟨rest, hport, .inr (.inr rfl)⟩
      · exact .inr ⟨']' :: rest, .inr ⟨rfl, .inr ⟨rest, rfl, hport⟩⟩⟩
  · rintro (⟨port, -, rfl | rfl | rfl⟩ | ⟨rest, ⟨rfl | rfl, -⟩ | ⟨rfl, rfl | ⟨tail, rfl, -⟩⟩⟩)
    · simp at hs
    · simp at hs
    · exact .inr ⟨port, rfl⟩
    · simp at hs
    · simp at hs
    · exact .inl rfl
    · exact .inr ⟨tail, rfl⟩

/-- The other hosts are accepted alone or in front of a colon. -/
theorem originHost_mem_of_name {s : List Char} (hs : s.head? ≠ some '[') :
    String.ofList (originHost s) ∈ localhostNames ↔ IsLocalhostHostPort s ∨ StrayHostPort s := by
  have hnil : IsOptionalPort [] := .inl rfl
  rw [originHost, if_neg hs, originHost_name_mem, splitNext_eq_iff (by decide),
    splitNext_eq_iff (by decide), isLocalhostHostPort_iff]
  constructor
  · rintro ((rfl | ⟨rest, rfl⟩) | (rfl | ⟨rest, rfl⟩))
    · exact .inl ⟨[], hnil, .inl rfl⟩
    · by_cases hport : IsOptionalPort (':' :: rest)
      · exact .inl ⟨':' :: rest, hport, .inl rfl⟩
      · exact .inr ⟨rest, .inl ⟨.inl rfl, hport⟩⟩
    · exact .inl ⟨[], hnil, .inr (.inl rfl)⟩
    · by_cases hport : IsOptionalPort (':' :: rest)
      · exact .inl ⟨':' :: rest, hport, .inr (.inl rfl)⟩
      · exact .inr ⟨rest, .inl ⟨.inr rfl, hport⟩⟩
  · rintro (⟨port, rfl | ⟨digits, -, -, rfl⟩, rfl | rfl | rfl⟩ | ⟨rest, ⟨rfl | rfl, -⟩ | ⟨rfl, -⟩⟩)
    · exact .inl (.inl rfl)
    · exact .inr (.inl rfl)
    · simp at hs
    · exact .inl (.inr ⟨digits, rfl⟩)
    · exact .inr (.inr ⟨digits, rfl⟩)
    · simp at hs
    · exact .inl (.inr ⟨rest, rfl⟩)
    · exact .inr (.inr ⟨rest, rfl⟩)
    · simp at hs

theorem originHost_mem_iff (s : List Char) :
    String.ofList (originHost s) ∈ localhostNames ↔ IsLocalhostHostPort s ∨ StrayHostPort s := by
  by_cases hs : s.head? = some '['
  · exact originHost_mem_of_bracket hs
  · exact originHost_mem_of_name hs

/-- No text is both: the host is the same in both readings, and so is what stands behind it. -/
theorem StrayHostPort.not_isLocalhostHostPort (h : StrayHostPort s) : ¬ IsLocalhostHostPort s := by
  rw [isLocalhostHostPort_iff]
  rintro ⟨port, hport, hs⟩
  obtain ⟨rest, ⟨rfl | rfl, hstray⟩ | ⟨rfl, rfl | ⟨tail, rfl, hstray⟩⟩⟩ := h
  · obtain rfl : ':' :: rest = port := by simpa using hs
    exact hstray hport
  · obtain rfl : ':' :: rest = port := by simpa using hs
    exact hstray hport
  · simp at hs
  · obtain rfl : tail = port := by simpa using hs
    exact hstray hport

/-! ## The test -/

/-- The test accepts the origins that are meant and the stray ones. -/
theorem isLocalhostOrigin_eq_true (origin : String) :
    isLocalhostOrigin origin = true ↔ IsLocalhostOrigin origin ∨ StrayOrigin origin := by
  rw [isLocalhostOrigin_iff_hostPort, strayOrigin_iff_hostPort, isLocalhostOrigin]
  cases withoutScheme origin with
  | none => simp
  | some s => simp [originHost_mem_iff]

theorem StrayOrigin.not_isLocalhostOrigin (h : StrayOrigin origin) : ¬ IsLocalhostOrigin origin := by
  rw [isLocalhostOrigin_iff_hostPort]
  rw [strayOrigin_iff_hostPort] at h
  rintro ⟨s, hs, hlocal⟩
  obtain ⟨t, ht, hstray⟩ := h
  obtain rfl : s = t := Option.some.inj (hs.symm.trans ht)
  exact hstray.not_isLocalhostHostPort hlocal

/-- **The test is exact** for the origins that are not stray, and for no other. -/
theorem isLocalhostOrigin_exact_iff (origin : String) :
    (isLocalhostOrigin origin = true ↔ IsLocalhostOrigin origin) ↔ ¬ StrayOrigin origin := by
  rw [isLocalhostOrigin_eq_true]
  constructor
  · intro h hstray
    exact hstray.not_isLocalhostOrigin (h.mp (.inr hstray))
  · intro hstray
    simp [hstray]

/-- A page at `http://localhost:.evil.example` passes for a page of this machine. -/
theorem isLocalhostOrigin_stray_port :
    ¬ ∀ origin, isLocalhostOrigin origin = true ↔ IsLocalhostOrigin origin := by
  intro h
  have hport : ¬ IsOptionalPort (':' :: ".evil.example".toList) := by
    rintro (h | ⟨digits, -, hdigits, h⟩)
    · cases h
    · obtain rfl : ".evil.example".toList = digits := by simpa using h
      exact absurd (hdigits '.' (by decide)) (by decide)
  have hstray : StrayOrigin "http://localhost:.evil.example" :=
    ⟨"http", by decide, ".evil.example".toList, .inl ⟨.inl (by decide), hport⟩⟩
  have haccepted := (isLocalhostOrigin_eq_true _).mpr (.inr hstray)
  exact hstray.not_isLocalhostOrigin ((h _).mp haccepted)

end EndaraRelay
