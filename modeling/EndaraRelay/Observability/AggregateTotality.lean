import EndaraRelay.Observability.Aggregate

/-!
# Aggregate queries that end

A request for the time series of the call log, from its three numbers to the end of `Store::aggregate`, with
every operation that may overflow or divide by zero. A build with overflow checks panics where one without
them wraps. The connection is locked from the division by the width on, and a panic there leaves its mutex
poisoned.

**SQL.** A time divided by a width of zero is `NULL`, which is no `i64`: with a row in the window the query is an
error, and without one the division in Rust comes next.

**Theorem (`aggregates_total_iff`).** A request is answered alike in both builds, with at most `limit` buckets of
the window, just when the default window fits before its end, the width fits, and either the window is empty
or its end is at most the last multiple of the width and `limit` widths from the start. Nothing in the code
sees to any of these.
-/

namespace EndaraRelay

open Verif Verif.Int64

/-! ## The request -/

/-- How a request ends. -/
inductive AggregateEnd where
  | answered (window rest perServer : List AggregateBucket)
  /-- An error of the database. -/
  | failed
  | panicked (locked : Bool)
  /-- The loop still runs when the fuel is used up. -/
  | running

/-- How the loop over the window ends. -/
inductive Fill where
  | done (out rest : List AggregateBucket)
  | panicked
  | running

def Fill.cons (a : AggregateBucket) : Fill → Fill
  | done out rest => .done (a :: out) rest
  | end_ => end_

/-- The bucket that the loop emits, an empty one where the query has none. -/
def windowBucket (global : List AggregateBucket) (start : Int) : AggregateBucket :=
  (global.find? fun a => a.bucketStart = start).getD { server := none, bucketStart := start }

/-- The loop over the window. -/
def fillWindow (checks : Bool) (bucketMs until_ : Int) : Nat → Int → List AggregateBucket → Fill
  | 0, _, _ => .running
  | fuel + 1, start, global =>
    if start < until_ then
      match arith checks (start + bucketMs) with
      | none => .panicked
      | some next =>
        (fillWindow checks bucketMs until_ fuel next (global.filter fun a => a.bucketStart ≠ start)).cons
          (windowBucket global start)
    else .done [] global

/-- `Store::aggregate`. -/
def storeAggregate (checks : Bool) (fuel : Nat) (rows : List CallRecord)
    (bucketSeconds since until_ : Int) : AggregateEnd :=
  match arith checks (max bucketSeconds 1 * 1000) with
  | none => .panicked false
  | some bucketMs =>
    -- the connection is locked from here on
    let inWindow := windowRows rows since until_
    if bucketMs = 0 ∧ ¬ inWindow.isEmpty then .failed
    else
      match (divide since bucketMs).bind fun q => arith checks (q * bucketMs) with
      | none => .panicked true
      | some start =>
        match fillWindow checks bucketMs until_ fuel start (globalBuckets bucketMs inWindow) with
        | .done window rest => .answered window rest (serverBuckets bucketMs inWindow)
        | .panicked => .panicked true
        | .running => .running

structure AggregatesQuery where
  bucketSeconds : Option I64
  since : Option I64
  until_ : Option I64

def aggregatesDefaultWindowMs : Int := 3600000

def aggregatesDefaultBucketSeconds : Int := 60

namespace AggregatesQuery

variable (q : AggregatesQuery) (now : I64)

def untilMs : Int := (q.until_.getD now).val

/-- The width that is asked for, at least a second. -/
def seconds : Int := max ((q.bucketSeconds.map (·.val)).getD aggregatesDefaultBucketSeconds) 1

/-- The start of the window, with what stands for one that is not asked for. -/
def sinceMs (default : Int) : Int := (q.since.map (·.val)).getD default

end AggregatesQuery

/-- `get_observability_aggregates`; the default start is computed even where it is not used. -/
def getObservabilityAggregates (checks : Bool) (fuel : Nat) (rows : List CallRecord) (now : I64)
    (q : AggregatesQuery) : AggregateEnd :=
  match arith checks (q.untilMs now - aggregatesDefaultWindowMs) with
  | none => .panicked false
  | some default => storeAggregate checks fuel rows q.seconds (q.sinceMs default) (q.untilMs now)

/-! ## What is asked -/

/-- **A request that is answered**: alike in both builds, so that nothing overflows, and with a bounded number
of buckets. -/
def TotalWithin (limit : Nat) (rows : List CallRecord) (now : I64) (q : AggregatesQuery) : Prop :=
  ∃ fuel window rest perServer, window.length ≤ limit ∧
    ∀ checks, getObservabilityAggregates checks fuel rows now q = .answered window rest perServer

/-- **The region where it is.** -/
def SafeQuery (limit : Nat) (now : I64) (q : AggregatesQuery) : Prop :=
  let width := q.seconds * 1000
  let start := bucketStart width (q.sinceMs (q.untilMs now - aggregatesDefaultWindowMs))
  aggregatesDefaultWindowMs - 9223372036854775808 ≤ q.untilMs now ∧
    q.seconds ≤ 9223372036854775 ∧
    (q.untilMs now ≤ start ∨
      q.untilMs now ≤ 9223372036854775807 / width * width ∧ q.untilMs now ≤ start + limit * width)

/-! ## The loop -/

section Loop

variable {bucketMs until_ start : Int} {global out rest : List AggregateBucket}

/-- Steps that fit end the loop, in either build. -/
theorem fillWindow_of_steps (hb : 0 < bucketMs) {m : Nat} (hm : until_ ≤ start + m * bucketMs)
    (hfits : start + m * bucketMs < 9223372036854775808) (hlow : -9223372036854775808 ≤ start) :
    ∃ out rest, out.length ≤ m ∧
      ∀ checks, fillWindow checks bucketMs until_ (m + 1) start global = .done out rest := by
  induction m generalizing start global with
  | zero =>
    have hend : until_ ≤ start := by simpa using hm
    exact ⟨[], global, le_rfl, fun checks => by rw [fillWindow, if_neg (not_lt.mpr hend)]⟩
  | succ m ih =>
    obtain hlt | hend := lt_or_ge start until_
    · have hsum : start + ((m + 1 : Nat) : Int) * bucketMs = start + bucketMs + m * bucketMs := by
        push_cast
        ring
      rw [hsum] at hm hfits
      have hpos : 0 ≤ (m : Int) * bucketMs := Int.mul_nonneg (Int.natCast_nonneg m) hb.le
      obtain ⟨out, rest, hlength, hfill⟩ :=
        @ih (start + bucketMs) (global.filter fun a => a.bucketStart ≠ start) hm hfits (by omega)
      refine ⟨windowBucket global start :: out, rest, Nat.succ_le_succ hlength, fun checks => ?_⟩
      rw [fillWindow, if_pos hlt, arith_of_inRange ⟨by omega, by omega⟩]
      simp only [hfill checks]
      rfl
    · exact ⟨[], global, Nat.zero_le _, fun checks => by rw [fillWindow, if_neg (not_lt.mpr hend)]⟩

theorem Fill.cons_eq_done_iff {a : AggregateBucket} {f : Fill} :
    f.cons a = .done out rest ↔ ∃ out', f = .done out' rest ∧ out = a :: out' := by
  cases f with
  | done out' rest' => simp [Fill.cons, eq_comm, and_comm]
  | panicked => simp [Fill.cons]
  | running => simp [Fill.cons]

/-- A loop that passes the checks has reached the end, one width for each bucket. -/
theorem steps_of_fillWindow {fuel : Nat} (hstart : InRange start)
    (h : fillWindow true bucketMs until_ fuel start global = .done out rest) :
    until_ ≤ start + out.length * bucketMs ∧ InRange (start + out.length * bucketMs) := by
  induction fuel generalizing start global out with
  | zero => cases h
  | succ fuel ih =>
    rw [fillWindow] at h
    split at h
    · cases hnext : arith true (start + bucketMs) with
      | none =>
        rw [hnext] at h
        cases h
      | some next =>
        rw [hnext] at h
        obtain ⟨hrange, rfl⟩ := arith_true_eq_some_iff.mp hnext
        obtain ⟨out', hout, rfl⟩ := Fill.cons_eq_done_iff.mp h
        have hsum : start + ((out'.length + 1 : Nat) : Int) * bucketMs =
            start + bucketMs + out'.length * bucketMs := by
          push_cast
          ring
        rw [List.length_cons, hsum]
        exact ih hrange hout
    · next hend =>
      cases h
      simp only [List.length_nil, Nat.cast_zero, Int.zero_mul, Int.add_zero]
      exact ⟨not_lt.mp hend, hstart⟩

end Loop

theorem exists_steps_iff {width until_ start : Int} (hb : 0 < width) (hdvd : width ∣ start)
    (hstart : start ≤ 9223372036854775807) (limit : Nat) :
    (∃ m : Nat, m ≤ limit ∧ until_ ≤ start + m * width ∧ start + m * width < 9223372036854775808) ↔
      until_ ≤ start ∨
        until_ ≤ 9223372036854775807 / width * width ∧ until_ ≤ start + limit * width := by
  obtain ⟨c, rfl⟩ := hdvd
  rw [Int.mul_comm width c] at hstart ⊢
  have hlast : ∀ k : Int, k * width ≤ 9223372036854775807 ↔ k ≤ 9223372036854775807 / width := fun k =>
    (Int.le_ediv_iff_mul_le hb).symm
  have hsteps : ∀ m : Nat, c * width + m * width = (c + m) * width := fun m => by ring
  constructor
  · rintro ⟨m, hm, hreach, hfits⟩
    refine .inr ⟨?_, ?_⟩
    · rw [hsteps] at hreach hfits
      exact hreach.trans (Int.mul_le_mul_of_nonneg_right ((hlast _).mp (by omega)) hb.le)
    · have hmono : (m : Int) * width ≤ limit * width :=
        Int.mul_le_mul_of_nonneg_right (Int.ofNat_le.mpr hm) hb.le
      omega
  · rintro (hend | ⟨hfits, hlimit⟩)
    · refine ⟨0, Nat.zero_le _, ?_, ?_⟩
      all_goals simp only [Nat.cast_zero, Int.zero_mul, Int.add_zero]; omega
    · have hc : c ≤ 9223372036854775807 / width := (hlast c).mp hstart
      obtain hle | hgt := le_or_gt (c + limit) (9223372036854775807 / width)
      · refine ⟨limit, le_rfl, hlimit, ?_⟩
        rw [hsteps]
        have := (hlast _).mpr hle
        omega
      · have hcast : ((9223372036854775807 / width - c).toNat : Int) = 9223372036854775807 / width - c :=
          Int.toNat_of_nonneg (by omega)
        refine ⟨(9223372036854775807 / width - c).toNat, by omega, ?_, ?_⟩
        all_goals
          rw [hsteps, hcast, add_sub_cancel]
        · exact hfits
        · have := (hlast _).mpr le_rfl
          omega

/-! ## The store -/

section Store

variable {rows : List CallRecord} {seconds since until_ : Int}

/-- The start of the window is found without a panic. -/
theorem start_eq {width : Int} (hb : 0 < width) (hsince : InRange since) (checks : Bool) :
    ((divide since width).bind fun q => arith checks (q * width)) = some (bucketStart width since) := by
  obtain ⟨hquotient, hproduct⟩ := inRange_tdiv hb hsince
  rw [divide, if_pos ⟨hb.ne', hquotient⟩]
  exact arith_of_inRange hproduct checks

variable {limit : Nat}

theorem storeAggregate_total (hpos : 1 ≤ seconds) (hfits : seconds ≤ 9223372036854775) (hsince : InRange since)
    (hsteps : ∃ m : Nat, m ≤ limit ∧ until_ ≤ bucketStart (seconds * 1000) since + m * (seconds * 1000) ∧
      bucketStart (seconds * 1000) since + m * (seconds * 1000) < 9223372036854775808) :
    ∃ fuel window rest perServer, window.length ≤ limit ∧
      ∀ checks, storeAggregate checks fuel rows seconds since until_ = .answered window rest perServer := by
  have hb : 0 < seconds * 1000 := by omega
  have hmax : max seconds 1 = seconds := by omega
  obtain ⟨m, hm, hreach, hend⟩ := hsteps
  have hstart := (inRange_tdiv hb hsince).2
  obtain ⟨window, rest, hlength, hfill⟩ := @fillWindow_of_steps (seconds * 1000) until_
    (bucketStart (seconds * 1000) since) (globalBuckets (seconds * 1000) (windowRows rows since until_)) hb m
    hreach hend hstart.1
  refine ⟨m + 1, window, rest, serverBuckets (seconds * 1000) (windowRows rows since until_),
    hlength.trans hm, fun checks => ?_⟩
  rw [storeAggregate, hmax, arith_of_inRange ⟨by omega, by omega⟩]
  simp only [hb.ne', false_and, if_false, start_eq hb hsince, hfill checks]

theorem steps_of_storeAggregate {fuel : Nat} {window rest perServer : List AggregateBucket}
    (hpos : 1 ≤ seconds) (hsince : InRange since)
    (h : storeAggregate true fuel rows seconds since until_ = .answered window rest perServer) :
    seconds ≤ 9223372036854775 ∧
      until_ ≤ bucketStart (seconds * 1000) since + window.length * (seconds * 1000) ∧
      bucketStart (seconds * 1000) since + window.length * (seconds * 1000) < 9223372036854775808 := by
  have hb : 0 < seconds * 1000 := by omega
  have hmax : max seconds 1 = seconds := by omega
  rw [storeAggregate, hmax] at h
  cases hwidth : arith true (seconds * 1000) with
  | none =>
    rw [hwidth] at h
    cases h
  | some bucketMs =>
    obtain ⟨hrange, rfl⟩ := arith_true_eq_some_iff.mp hwidth
    rw [hwidth] at h
    simp only [hb.ne', false_and, if_false, start_eq hb hsince] at h
    split at h
    · next hfill =>
      cases h
      obtain ⟨hreach, hend⟩ := steps_of_fillWindow (inRange_tdiv hb hsince).2 hfill
      unfold InRange at hrange hend
      exact ⟨by omega, hreach, hend.2⟩
    · cases h
    · cases h

end Store

/-! ## A build that does not check -/

section Unchecked

variable {rows : List CallRecord} {bucketMs since until_ start : Int} {global : List AggregateBucket}

/-- The loop of such a build, which only ends or runs on. -/
theorem fillWindow_false (fuel : Nat) :
    fillWindow false bucketMs until_ fuel start global =
      match zeroFill bucketMs until_ fuel start global with
      | some (out, rest) => .done out rest
      | none => .running := by
  induction fuel generalizing start global with
  | zero => rfl
  | succ fuel ih =>
    rw [fillWindow, zeroFill]
    by_cases hlt : start < until_
    · rw [if_pos hlt, if_pos hlt, arith_false]
      simp only [ih]
      cases zeroFill bucketMs until_ fuel (wrap (start + bucketMs))
          (global.filter fun a => a.bucketStart ≠ start) with
      | none => rfl
      | some r => rfl
    · rw [if_neg hlt, if_neg hlt]

/-- A width is a multiple of eight also after it wraps, so it is not the one divisor that overflows. -/
theorem wrap_width_ne (seconds : Int) : wrap (seconds * 1000) ≠ -1 := by
  unfold wrap
  omega

theorem wrap_width_eq_zero_iff (seconds : Int) :
    wrap (seconds * 1000) = 0 ↔ 2305843009213693952 ∣ seconds := by
  unfold wrap
  omega

theorem divide_isSome (hne : bucketMs ≠ 0) (hone : bucketMs ≠ -1) (hsince : InRange since) :
    divide since bucketMs = some (since.tdiv bucketMs) := by
  refine if_pos ⟨hne, ?_⟩
  have hquotient : (since.tdiv bucketMs).natAbs = since.natAbs / bucketMs.natAbs := Int.natAbs_tdiv _ _
  unfold InRange at hsince ⊢
  obtain rfl | hwide : bucketMs = 1 ∨ 2 ≤ bucketMs.natAbs := by omega
  · rw [Int.tdiv_one]
    exact hsince
  · have hhalf : since.natAbs / bucketMs.natAbs ≤ since.natAbs / 2 := Nat.div_le_div_left hwide Nat.two_pos
    omega

/-- **What poisons the store**: a width that wraps to zero, over a window without calls. -/
theorem release_poisons_iff (fuel : Nat) (rows : List CallRecord) (seconds until_ : Int) (hsince : InRange since) :
    storeAggregate false fuel rows seconds since until_ = .panicked true ↔
      2305843009213693952 ∣ max seconds 1 ∧ windowRows rows since until_ = [] := by
  rw [storeAggregate, arith_false, ← wrap_width_eq_zero_iff]
  by_cases hzero : wrap (max seconds 1 * 1000) = 0
  · simp only [hzero]
    cases hrows : windowRows rows since until_ with
    | nil => simp [divide]
    | cons r rows => simp
  · have hdivide := divide_isSome hzero (wrap_width_ne _) hsince
    simp only [hzero, false_and, if_false, hdivide, Option.bind_some, arith_false, fillWindow_false]
    cases zeroFill (wrap (max seconds 1 * 1000)) until_ fuel
        (wrap (since.tdiv (wrap (max seconds 1 * 1000)) * wrap (max seconds 1 * 1000)))
        (globalBuckets (wrap (max seconds 1 * 1000)) (windowRows rows since until_)) with
    | none => simp
    | some r => simp

theorem empty_window_poisons : storeAggregate false 1 [] 2305843009213693952 0 1 = .panicked true :=
  (release_poisons_iff 1 [] _ 1 (by decide)).2 ⟨by decide, rfl⟩

end Unchecked

/-! ## The requests that are answered -/

theorem one_le_seconds (q : AggregatesQuery) : 1 ≤ q.seconds := le_max_right _ _

/-- The start of a window is in range when the default is. -/
theorem inRange_sinceMs (q : AggregatesQuery) {default : Int} (h : InRange default) :
    InRange (q.sinceMs default) := by
  unfold AggregatesQuery.sinceMs
  cases q.since with
  | none => exact h
  | some since => exact since.2

theorem inRange_default (q : AggregatesQuery) (now : I64) :
    InRange (q.untilMs now - aggregatesDefaultWindowMs) ↔
      aggregatesDefaultWindowMs - 9223372036854775808 ≤ q.untilMs now := by
  have huntil : InRange (q.untilMs now) := (q.until_.getD now).2
  unfold InRange aggregatesDefaultWindowMs at *
  omega

/-- **Which requests are answered.** -/
theorem aggregates_total_iff (limit : Nat) (rows : List CallRecord) (now : I64) (q : AggregatesQuery) :
    TotalWithin limit rows now q ↔ SafeQuery limit now q := by
  have hpos := one_le_seconds q
  have hb : 0 < q.seconds * 1000 := by omega
  unfold TotalWithin SafeQuery
  rw [← inRange_default]
  constructor
  · rintro ⟨fuel, window, rest, perServer, hlength, hrun⟩
    have hchecked := hrun true
    unfold getObservabilityAggregates at hchecked
    cases hdefault : arith true (q.untilMs now - aggregatesDefaultWindowMs) with
    | none =>
      rw [hdefault] at hchecked
      cases hchecked
    | some default =>
      obtain ⟨hrange, rfl⟩ := arith_true_eq_some_iff.mp hdefault
      rw [hdefault] at hchecked
      have hsince := inRange_sinceMs q hrange
      obtain ⟨hfits, hreach, hend⟩ := steps_of_storeAggregate hpos hsince hchecked
      have hstart := (inRange_tdiv hb hsince).2
      exact ⟨hrange, hfits, (exists_steps_iff hb (Int.dvd_mul_left _ _) (Int.le_of_lt_add_one hstart.2) limit).mp
        ⟨window.length, hlength, hreach, hend⟩⟩
  · rintro ⟨hrange, hfits, hregion⟩
    have hsince := inRange_sinceMs q hrange
    have hstart := (inRange_tdiv hb hsince).2
    obtain ⟨fuel, window, rest, perServer, hlength, hrun⟩ :=
      @storeAggregate_total rows _ _ _ limit hpos hfits hsince
        ((exists_steps_iff hb (Int.dvd_mul_left _ _) (Int.le_of_lt_add_one hstart.2) limit).mpr hregion)
    refine ⟨fuel, window, rest, perServer, hlength, fun checks => ?_⟩
    rw [getObservabilityAggregates, arith_of_inRange hrange]
    exact hrun checks

def zeroWidthQuery : AggregatesQuery where
  bucketSeconds := some ⟨2305843009213693952, by decide⟩
  since := some ⟨0, by decide⟩
  until_ := some ⟨3600000, by decide⟩

/-- The division by the width panics with the connection locked, in the build that does not check. -/
theorem zero_width_poisons :
    (∀ fuel, getObservabilityAggregates false fuel [] ⟨0, by decide⟩ zeroWidthQuery = .panicked true) ∧
      ¬ ∃ limit, ∀ rows now q, TotalWithin limit rows now q := by
  have hpanics : ∀ fuel,
      getObservabilityAggregates false fuel [] ⟨0, by decide⟩ zeroWidthQuery = .panicked true := by
    intro fuel
    rfl
  refine ⟨hpanics, ?_⟩
  rintro ⟨limit, htotal⟩
  obtain ⟨fuel, window, rest, perServer, -, hrun⟩ := htotal [] ⟨0, by decide⟩ zeroWidthQuery
  have hanswered := hrun false
  rw [hpanics] at hanswered
  cases hanswered

end EndaraRelay
