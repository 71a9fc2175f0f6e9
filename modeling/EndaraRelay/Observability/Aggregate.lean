import Mathlib.Algebra.BigOperators.Group.List.Basic
import Mathlib.Algebra.Ring.Divisibility.Basic
import Mathlib.Data.List.Dedup
import Mathlib.Data.String.Basic
import Mathlib.Tactic.Ring
import EndaraRelay.Lib.Int64
import EndaraRelay.Lib.NearestRank
import EndaraRelay.Observability.Store

/-!
# The time series of the call log

`Store::aggregate`: counts and percentiles of the calls of a window, by time bucket, for all servers
together and for each by itself. The first series has a bucket for every step of the window.

**Buckets.** A bucket begins at a multiple of its width and lasts that long (`alignDown`). SQL and Rust
divide towards zero, so before the epoch a time goes to the bucket after its own (`bucketStart_eq`).

**The loop** (`zeroFill`) goes from the bucket of `since` by the width until it reaches `until`. The sum
wraps in a release build. Fuel stands for the loop running on; a run that ends does so with enough of it.

**Theorem (`aggregate_exact_iff`).** For a width that fits, and whatever the rows are, the series are the
exact ones (`AggregateExact`) just when the window does not begin before the epoch and some multiple of the
width at or after its end is an `i64`, or when the window has no time at which these matter.
-/

namespace EndaraRelay

open Verif Verif.Int64 Verif.NearestRank

/-- One time bucket of metrics. `server` is `none` for the global series. -/
structure AggregateBucket where
  server : Option String
  bucketStart : Int
  count : Nat := 0
  errorCount : Nat := 0
  p50Ms : Nat := 0
  p95Ms : Nat := 0
deriving DecidableEq

/-- `(ts_start / ?1) * ?1`, in SQL and in Rust. -/
def bucketStart (bucketMs ts : Int) : Int := ts.tdiv bucketMs * bucketMs

/-! ## The grouped queries -/

/-- `MAX(duration_ms, 0)`. -/
def duration (r : CallRecord) : Int := max r.durationMs 0

/-- A row of the `ranked` table. -/
structure RankedRow where
  dur : Int
  success : Bool
  rn : Nat
  n : Nat

/-- A partition, numbered in the order of durations. -/
def ranked (partition_ : List CallRecord) : List RankedRow :=
  ((partition_.insertionSort fun a b => duration a ≤ duration b).zipIdx 1).map fun (r, i) =>
    { dur := duration r, success := r.success, rn := i, n := partition_.length }

/-- `MAX(CASE WHEN rn = MAX(1, MIN(n, (p * n + 99) / 100)) THEN dur END)`. -/
def percentile (p : Nat) (rows : List RankedRow) : Option Int :=
  ((rows.filter fun row => row.rn = rank p row.n).map (·.dur)).max?

/-- The columns of a group. -/
def aggregateBucket (server : Option String) (start : Int) (partition_ : List CallRecord) : AggregateBucket where
  server := server
  bucketStart := start
  count := ((ranked partition_).map (·.n)).max?.getD 0
  errorCount := (ranked partition_).countP fun row => !row.success
  p50Ms := ((percentile 50 (ranked partition_)).getD 0).toNat
  p95Ms := ((percentile 95 (ranked partition_)).getD 0).toNat

/-- One bucket for each key that a row has, in the order of the keys. -/
def grouped {κ : Type} [LinearOrder κ] (key : CallRecord → Option κ)
    (bucket : κ → List CallRecord → AggregateBucket) (rows : List CallRecord) : List AggregateBucket :=
  ((rows.filterMap key).dedup.insertionSort (· ≤ ·)).map fun k =>
    bucket k (rows.filter fun r => key r = some k)

def globalKey (bucketMs : Int) (r : CallRecord) : Option Int := some (bucketStart bucketMs r.tsStart)

def serverKey (bucketMs : Int) (r : CallRecord) : Option (String ×ₗ Int) :=
  r.serverName.map fun server => toLex (server, bucketStart bucketMs r.tsStart)

def globalBuckets (bucketMs : Int) (rows : List CallRecord) : List AggregateBucket :=
  grouped (globalKey bucketMs) (aggregateBucket none) rows

def serverBuckets (bucketMs : Int) (rows : List CallRecord) : List AggregateBucket :=
  grouped (serverKey bucketMs) (fun k => aggregateBucket (some (ofLex k).1) (ofLex k).2) rows

/-! ## The series -/

/-- The loop over the window: the buckets it emits, and those of the map that it leaves there. -/
def zeroFill (bucketMs until_ : Int) :
    Nat → Int → List AggregateBucket → Option (List AggregateBucket × List AggregateBucket)
  | 0, _, _ => none
  | fuel + 1, start, global =>
    if start < until_ then
      (zeroFill bucketMs until_ fuel (wrap (start + bucketMs)) (global.filter fun a => a.bucketStart ≠ start)).map
        fun (out, rest) =>
          ((global.find? fun a => a.bucketStart = start).getD { server := none, bucketStart := start } :: out, rest)
    else some ([], global)

/-- `WHERE ts_start >= ?2 AND ts_start < ?3`. -/
def windowRows (rows : List CallRecord) (since until_ : Int) : List CallRecord :=
  rows.filter fun r => since ≤ r.tsStart ∧ r.tsStart < until_

/-- `Store::aggregate`. -/
def aggregate (fuel : Nat) (rows : List CallRecord) (bucketSeconds since until_ : Int) :
    Option (List AggregateBucket) :=
  let bucketMs := wrap (max bucketSeconds 1 * 1000)
  let perServer := serverBuckets bucketMs (windowRows rows since until_)
  let global := globalBuckets bucketMs (windowRows rows since until_)
  (zeroFill bucketMs until_ fuel (bucketStart bucketMs since) global).map fun (out, rest) =>
    out ++ rest ++ perServer

/-! ## What the series are -/

/-- The start of the bucket of a time: the last multiple of the width that is not after it. -/
def alignDown (bucketMs ts : Int) : Int := ts / bucketMs * bucketMs

/-- The percentile of the durations of some calls; zero when there are none. -/
def PercentileIs (p : Nat) (rows : List CallRecord) (ms : Nat) : Prop :=
  if rows = [] then ms = 0 else IsNearestRank p (rows.map duration) ms

/-- The metrics of the bucket are those of the rows. -/
structure Summarises (rows : List CallRecord) (a : AggregateBucket) : Prop where
  count : a.count = rows.length
  errorCount : a.errorCount = rows.countP fun r => !r.success
  p50 : PercentileIs 50 rows a.p50Ms
  p95 : PercentileIs 95 rows a.p95Ms

def globalSeries (out : List AggregateBucket) : List AggregateBucket := out.filter fun a => a.server.isNone

def serverSeries (out : List AggregateBucket) : List AggregateBucket := out.filter fun a => a.server.isSome

/-- The answer is the reference. -/
structure AggregateExact (rows : List CallRecord) (bucketMs since until_ : Int) (out : List AggregateBucket) :
    Prop where
  /-- The global series has each bucket of the aligned window once, in order. -/
  ascending : ((globalSeries out).map (·.bucketStart)).Pairwise (· < ·)
  covers : ∀ k, k ∈ (globalSeries out).map (·.bucketStart) ↔
    bucketMs ∣ k ∧ alignDown bucketMs since ≤ k ∧ k < until_
  global : ∀ a ∈ globalSeries out, Summarises
    ((windowRows rows since until_).filter fun r => alignDown bucketMs r.tsStart = a.bucketStart) a
  /-- Each server has each bucket in which it has a call once. -/
  nodup : ((serverSeries out).map fun a => (a.server, a.bucketStart)).Nodup
  groups : ∀ server k, (some server, k) ∈ (serverSeries out).map (fun a => (a.server, a.bucketStart)) ↔
    ∃ r ∈ windowRows rows since until_, r.serverName = some server ∧ alignDown bucketMs r.tsStart = k
  perServer : ∀ a ∈ serverSeries out, Summarises
    ((windowRows rows since until_).filter fun r =>
      r.serverName = a.server ∧ alignDown bucketMs r.tsStart = a.bucketStart) a
  total : ((globalSeries out).map (·.count)).sum = (windowRows rows since until_).length

/-! ## One group -/

theorem filter_zipIdx_eq {α : Type} (l : List α) (j k : Nat) :
    (l.zipIdx j).filter (fun x => x.2 = j + k) = (l[k]?.toList).map fun a => (a, j + k) := by
  induction l generalizing j k with
  | nil => rfl
  | cons a l ih =>
    rw [List.zipIdx_cons]
    cases k with
    | zero =>
      have hnone : (l.zipIdx (j + 1)).filter (fun x => x.2 = j + 0) = [] := by
        refine List.filter_eq_nil_iff.2 fun x hx => ?_
        have := List.le_snd_of_mem_zipIdx hx
        simp
        omega
      rw [List.filter_cons_of_pos (by simp), hnone]
      rfl
    | succ k =>
      rw [List.filter_cons_of_neg (by simp), List.getElem?_cons_succ, Nat.add_comm k 1, ← Nat.add_assoc]
      exact ih (j + 1) k

/-- The rows of a partition in the order of their durations. -/
def byDuration (partition_ : List CallRecord) : List CallRecord :=
  partition_.insertionSort fun a b => duration a ≤ duration b

theorem byDuration_perm (partition_ : List CallRecord) : (byDuration partition_).Perm partition_ :=
  List.perm_insertionSort _ _

theorem byDuration_sorted (partition_ : List CallRecord) :
    ((byDuration partition_).map duration).Pairwise fun a b => a ≤ b := by
  have htotal : Std.Total fun a b : CallRecord => duration a ≤ duration b :=
    ⟨fun a b => le_total (duration a) (duration b)⟩
  have htrans : IsTrans CallRecord fun a b => duration a ≤ duration b := ⟨fun _ _ _ hab hbc => hab.trans hbc⟩
  rw [List.pairwise_map]
  exact List.pairwise_insertionSort (fun a b => duration a ≤ duration b) partition_

theorem ranked_eq (partition_ : List CallRecord) :
    ranked partition_ = ((byDuration partition_).zipIdx 1).map fun x =>
      { dur := duration x.1, success := x.1.success, rn := x.2, n := partition_.length } := rfl

theorem max?_replicate {n : Nat} (h : 1 ≤ n) (a : Nat) : (List.replicate n a).max? = some a := by
  rw [List.max?_replicate_of_pos (Nat.pos_of_ne_zero (by omega))]

theorem count_ranked (partition_ : List CallRecord) :
    ((ranked partition_).map (·.n)).max?.getD 0 = partition_.length := by
  have hmap : (ranked partition_).map (·.n) = List.replicate partition_.length partition_.length := by
    rw [ranked_eq, List.map_map]
    refine List.eq_replicate_iff.2 ⟨?_, ?_⟩
    · rw [List.length_map, List.length_zipIdx, (byDuration_perm partition_).length_eq]
    · intro n hn
      obtain ⟨x, -, rfl⟩ := List.mem_map.1 hn
      rfl
  rw [hmap]
  by_cases h : 1 ≤ partition_.length
  · rw [max?_replicate h, Option.getD_some]
  · have hzero : partition_.length = 0 := by omega
    rw [hzero]
    rfl

theorem errorCount_ranked (partition_ : List CallRecord) :
    ((ranked partition_).countP fun row => !row.success) = partition_.countP fun r => !r.success := by
  rw [ranked_eq, List.countP_map]
  have hfst : ((byDuration partition_).zipIdx 1).countP (fun x => !x.1.success) =
      (byDuration partition_).countP fun r => !r.success := by
    conv_rhs => rw [← List.zipIdx_map_fst 1 (byDuration partition_), List.countP_map]
    rfl
  exact hfst.trans ((byDuration_perm partition_).countP_eq _)

/-- The only row that has the number of the percentile. -/
theorem percentile_ranked (p : Nat) {partition_ : List CallRecord} (hp : p ≤ 100) (hne : partition_ ≠ []) :
    ∃ d, percentile p (ranked partition_) = some d ∧ IsNearestRank p (partition_.map duration) d := by
  have hlength : 1 ≤ partition_.length := List.length_pos_iff.2 hne
  have hperm := byDuration_perm partition_
  have hrank := rank_le p hlength
  have hpos := rank_pos p partition_.length
  have hi : rank p partition_.length - 1 < (byDuration partition_).length := by
    rw [hperm.length_eq]
    omega
  have hrow : (ranked partition_).filter (fun row => row.rn = rank p row.n) =
      [{ dur := duration (byDuration partition_)[rank p partition_.length - 1],
         success := (byDuration partition_)[rank p partition_.length - 1].success,
         rn := rank p partition_.length, n := partition_.length }] := by
    have hplace : 1 + (rank p partition_.length - 1) = rank p partition_.length := by omega
    have hzip := filter_zipIdx_eq (byDuration partition_) 1 (rank p partition_.length - 1)
    rw [hplace, List.getElem?_eq_getElem hi] at hzip
    rw [ranked_eq, List.filter_map]
    show List.map _ (((byDuration partition_).zipIdx 1).filter fun x => x.2 = rank p partition_.length) = _
    rw [hzip]
    rfl
  refine ⟨duration (byDuration partition_)[rank p partition_.length - 1], ?_, ?_⟩
  · rw [percentile, hrow]
    rfl
  · have hsorted := byDuration_sorted partition_
    have hmap : ((byDuration partition_).map duration).length = partition_.length := by
      rw [List.length_map, hperm.length_eq]
    have hget := IsNearestRank.getElem hsorted hp (by rw [hmap]; omega)
    simp only [hmap, List.getElem_map] at hget
    exact hget.perm (hperm.map duration)

theorem percentileIs_ranked {p : Nat} (hp : p ≤ 100) (partition_ : List CallRecord) :
    PercentileIs p partition_ ((percentile p (ranked partition_)).getD 0).toNat := by
  unfold PercentileIs
  split
  · next h =>
    subst h
    rfl
  · next h =>
    obtain ⟨d, hd, hnearest⟩ := percentile_ranked p hp h
    obtain ⟨r, -, rfl⟩ := List.mem_map.1 hnearest.mem
    have hpos : 0 ≤ duration r := le_max_right _ _
    rw [hd, Option.getD_some, Int.toNat_of_nonneg hpos]
    exact hnearest

theorem summarises_aggregateBucket (server : Option String) (start : Int) (partition_ : List CallRecord) :
    Summarises partition_ (aggregateBucket server start partition_) where
  count := count_ranked partition_
  errorCount := errorCount_ranked partition_
  p50 := percentileIs_ranked (by decide) partition_
  p95 := percentileIs_ranked (by decide) partition_

theorem summarises_zero (start : Int) : Summarises [] { server := none, bucketStart := start } where
  count := rfl
  errorCount := rfl
  p50 := if_pos rfl |>.mpr rfl
  p95 := if_pos rfl |>.mpr rfl

/-! ## The groups of a query -/

variable {a : AggregateBucket} {fuel : Nat} {r : CallRecord}

section Grouped

variable {κ : Type} [LinearOrder κ] {key : CallRecord → Option κ} {bucket : κ → List CallRecord → AggregateBucket}
  {rows : List CallRecord}

theorem mem_grouped :
    a ∈ grouped key bucket rows ↔
      ∃ k, (∃ r ∈ rows, key r = some k) ∧ a = bucket k (rows.filter fun r => key r = some k) := by
  simp only [grouped, List.mem_map, List.mem_insertionSort, List.mem_dedup, List.mem_filterMap]
  exact exists_congr fun k => and_congr_right fun _ => eq_comm

/-- The keys of the groups, each once and in order. -/
theorem keys_grouped_strict {f : AggregateBucket → κ} (hf : ∀ k partition_, f (bucket k partition_) = k) :
    ((grouped key bucket rows).map f).Pairwise (· < ·) := by
  have hkeys : (grouped key bucket rows).map f = (rows.filterMap key).dedup.insertionSort (· ≤ ·) := by
    rw [grouped, List.map_map]
    exact (List.map_congr_left fun k _ => hf k _).trans (List.map_id _)
  rw [hkeys]
  have hsorted := List.pairwise_insertionSort (· ≤ ·) (rows.filterMap key).dedup
  have hnodup : ((rows.filterMap key).dedup.insertionSort (· ≤ ·)).Nodup :=
    (List.perm_insertionSort (· ≤ ·) _).nodup_iff.2 (List.nodup_dedup _)
  exact (hsorted.and hnodup).imp fun hle => lt_of_le_of_ne hle.1 hle.2

end Grouped

theorem sum_ite_eq_count {κ : Type} [DecidableEq κ] (x : κ) (ks : List κ) :
    (ks.map fun k => if x = k then 1 else 0).sum = ks.count x := by
  induction ks with
  | nil => rfl
  | cons k ks ih =>
    rw [List.map_cons, List.sum_cons, ih, List.count_cons, Nat.add_comm]
    by_cases h : x = k
    · simp [h]
    · simp [h, Ne.symm h]

/-- Rows counted by what they are mapped to, over values that take in all of them. -/
theorem sum_countP_eq_length {ρ κ : Type} [DecidableEq κ] (f : ρ → κ) {ks : List κ} (hks : ks.Nodup) {rows : List ρ}
    (h : ∀ r ∈ rows, f r ∈ ks) : (ks.map fun k => rows.countP fun r => f r = k).sum = rows.length := by
  induction rows with
  | nil => simp
  | cons r rows ih =>
    obtain ⟨hr, hrows⟩ := List.forall_mem_cons.1 h
    have hcons : ∀ k, ((r :: rows).countP fun r => f r = k) =
        (rows.countP fun r => f r = k) + if f r = k then 1 else 0 := by
      intro k
      rw [List.countP_cons]
      simp only [decide_eq_true_eq]
    simp only [hcons]
    rw [List.sum_map_add, ih hrows, sum_ite_eq_count, List.count_eq_one_of_mem hks hr, List.length_cons]

/-! ## The loop -/

/-- What the loop leaves when no sum wraps. -/
structure Filled (bucketMs until_ start : Int) (global out rest : List AggregateBucket) : Prop where
  ascending : (out.map (·.bucketStart)).Pairwise (· < ·)
  starts : ∀ k, k ∈ out.map (·.bucketStart) ↔ bucketMs ∣ k - start ∧ start ≤ k ∧ k < until_
  entries : ∀ a ∈ out, a = (global.find? fun g => g.bucketStart = a.bucketStart).getD
    { server := none, bucketStart := a.bucketStart }
  rest : ∀ a, a ∈ rest ↔ a ∈ global ∧ a.bucketStart ∉ out.map (·.bucketStart)

section Loop

variable {bucketMs until_ start : Int} {global out rest : List AggregateBucket}

theorem bucketStart_found (global : List AggregateBucket) (k : Int) :
    ((global.find? fun g => g.bucketStart = k).getD { server := none, bucketStart := k }).bucketStart = k := by
  cases h : global.find? fun g => g.bucketStart = k with
  | none => rfl
  | some a => exact of_decide_eq_true (List.find?_some h :)

theorem Filled.nil (h : until_ ≤ start) : Filled bucketMs until_ start global [] global where
  ascending := List.Pairwise.nil
  starts k := by
    simp only [List.map_nil, List.not_mem_nil, false_iff]
    omega
  entries := nofun
  rest a := by simp

theorem Filled.cons (hb : 0 < bucketMs) (h : start < until_)
    (hfilled : Filled bucketMs until_ (start + bucketMs) (global.filter fun a => a.bucketStart ≠ start) out rest) :
    Filled bucketMs until_ start global
      ((global.find? fun a => a.bucketStart = start).getD { server := none, bucketStart := start } :: out) rest := by
  have hhead := bucketStart_found global start
  have hlater : ∀ k ∈ out.map (·.bucketStart), start < k := fun k hk => by
    have := ((hfilled.starts k).1 hk).2.1
    omega
  refine ⟨?_, fun k => ?_, ?_, fun a => ?_⟩
  · rw [List.map_cons, hhead, List.pairwise_cons]
    exact ⟨hlater, hfilled.ascending⟩
  · rw [List.map_cons, hhead, List.mem_cons, hfilled.starts]
    have hdvd : bucketMs ∣ k - (start + bucketMs) ↔ bucketMs ∣ k - start := by
      rw [← Int.sub_sub]
      exact dvd_sub_self_right
    rw [hdvd]
    constructor
    · rintro (rfl | ⟨hk, hle, hlt⟩)
      · exact ⟨by simp, le_refl _, h⟩
      · exact ⟨hk, by omega, hlt⟩
    · rintro ⟨hk, hle, hlt⟩
      obtain heq | hgt := eq_or_lt_of_le hle
      · exact .inl heq.symm
      · have := Int.le_of_dvd (by omega) hk
        exact .inr ⟨hk, by omega, hlt⟩
  · refine List.forall_mem_cons.2 ⟨by rw [hhead], fun a ha => ?_⟩
    have hne : start ≠ a.bucketStart := (hlater _ (List.mem_map_of_mem ha)).ne
    have hfind : ((global.filter fun g => g.bucketStart ≠ start).find? fun g => g.bucketStart = a.bucketStart) =
        global.find? fun g => g.bucketStart = a.bucketStart := by
      rw [List.find?_filter]
      congr 1
      funext g
      by_cases hg : g.bucketStart = a.bucketStart
      · simp [hg, hne.symm]
      · simp [hg]
    rw [← hfind]
    exact hfilled.entries a ha
  · rw [hfilled.rest, List.mem_filter, decide_eq_true_eq, List.map_cons, hhead, List.mem_cons, not_or, and_assoc]

/-- With no wrap on the way the loop ends. -/
theorem exists_zeroFill (hb : 0 < bucketMs) {m : Nat} (hm : until_ ≤ start + m * bucketMs)
    (hrange : start + m * bucketMs < 9223372036854775808) (hlow : -9223372036854775808 ≤ start) :
    ∃ fuel out rest, zeroFill bucketMs until_ fuel start global = some (out, rest) ∧
      Filled bucketMs until_ start global out rest := by
  induction m generalizing start global with
  | zero =>
    have hend : until_ ≤ start := by simpa using hm
    exact ⟨1, [], global, by rw [zeroFill, if_neg (not_lt.2 hend)], .nil hend⟩
  | succ m ih =>
    obtain hlt | hend := lt_or_ge start until_
    · have hsum : start + ((m + 1 : Nat) : Int) * bucketMs = start + bucketMs + m * bucketMs := by
        push_cast
        ring
      rw [hsum] at hm hrange
      have hpos : 0 ≤ (m : Int) * bucketMs := Int.mul_nonneg (Int.natCast_nonneg m) hb.le
      obtain ⟨fuel, out, rest, hfill, hfilled⟩ :=
        @ih (start + bucketMs) (global.filter fun a => a.bucketStart ≠ start) hm hrange (by omega)
      refine ⟨fuel + 1, _, rest, ?_, hfilled.cons hb hlt⟩
      rw [zeroFill, if_pos hlt, wrap_of_inRange ⟨by omega, by omega⟩, hfill]
      rfl
    · exact ⟨1, [], global, by rw [zeroFill, if_neg (not_lt.2 hend)], .nil hend⟩

theorem zeroFill_cons (h : zeroFill bucketMs until_ fuel start global = some (out, rest))
    (hlt : start < until_) :
    ∃ fuel' out', fuel = fuel' + 1 ∧
      out = (global.find? fun a => a.bucketStart = start).getD { server := none, bucketStart := start } :: out' ∧
      zeroFill bucketMs until_ fuel' (wrap (start + bucketMs)) (global.filter fun a => a.bucketStart ≠ start) =
        some (out', rest) := by
  cases fuel with
  | zero => cases h
  | succ fuel =>
    rw [zeroFill, if_pos hlt] at h
    obtain ⟨⟨out', rest'⟩, hrest, heq⟩ := Option.map_eq_some_iff.1 h
    cases heq
    exact ⟨fuel, out', rfl, rfl, hrest⟩

theorem zeroFill_of_le (h : zeroFill bucketMs until_ fuel start global = some (out, rest))
    (hend : until_ ≤ start) : out = [] := by
  cases fuel with
  | zero => cases h
  | succ fuel =>
    rw [zeroFill, if_neg (not_lt.2 hend)] at h
    cases h
    rfl

/-- An ascending series has not wrapped. -/
theorem reaches_of_ascending (hb : 0 < bucketMs) (hrange : InRange bucketMs) (hstart : InRange start)
    (h : zeroFill bucketMs until_ fuel start global = some (out, rest))
    (hasc : (out.map (·.bucketStart)).Pairwise (· < ·)) (hlt : start < until_) :
    ∃ m : Nat, until_ ≤ start + m * bucketMs ∧ start + m * bucketMs < 9223372036854775808 := by
  induction fuel generalizing start global out with
  | zero => cases h
  | succ fuel ih =>
    obtain ⟨fuel', out', hfuel, rfl, hnext⟩ := zeroFill_cons h hlt
    cases hfuel
    rw [List.map_cons, bucketStart_found, List.pairwise_cons] at hasc
    unfold InRange at hrange hstart
    obtain hfits | hwraps := lt_or_ge (start + bucketMs) 9223372036854775808
    · rw [wrap_of_inRange ⟨by omega, hfits⟩] at hnext
      obtain hlt' | hend := lt_or_ge (start + bucketMs) until_
      · obtain ⟨m, hm, hfit⟩ := ih ⟨by omega, hfits⟩ hnext hasc.2 hlt'
        refine ⟨m + 1, ?_, ?_⟩
        all_goals
          push_cast
          rw [add_mul, one_mul]
          omega
      · exact ⟨1, by simpa using hend, by simpa using hfits⟩
    · -- the sum is below the bucket it was made from, and is emitted
      have hwrap : wrap (start + bucketMs) < start := by
        unfold wrap
        omega
      obtain ⟨-, out'', -, rfl, -⟩ := zeroFill_cons hnext (by omega)
      have := hasc.1 _ (List.mem_map_of_mem List.mem_cons_self)
      rw [bucketStart_found] at this
      omega

/-- With nothing in the map, every bucket is an empty one. -/
theorem zeroFill_nil (h : zeroFill bucketMs until_ fuel start [] = some (out, rest)) :
    rest = [] ∧ ∀ a ∈ out, a.server = none := by
  induction fuel generalizing start out with
  | zero => cases h
  | succ fuel ih =>
    rw [zeroFill] at h
    split at h
    · obtain ⟨⟨out', rest'⟩, hrest, heq⟩ := Option.map_eq_some_iff.1 h
      cases heq
      obtain ⟨hnil, hserver⟩ := ih hrest
      exact ⟨hnil, List.forall_mem_cons.2 ⟨rfl, hserver⟩⟩
    · cases h
      exact ⟨rfl, nofun⟩

end Loop

/-! ## Buckets of times -/

section Alignment

variable {bucketMs : Int} (hb : 0 < bucketMs)

include hb

theorem bucketStart_eq (ts : Int) :
    bucketStart bucketMs ts = alignDown bucketMs ts + if 0 ≤ ts ∨ bucketMs ∣ ts then 0 else bucketMs := by
  rw [bucketStart, alignDown, Int.tdiv_eq_ediv]
  split
  · rw [Int.add_zero, Int.add_zero]
  · rw [Int.sign_eq_one_of_pos hb, Int.add_mul, Int.one_mul]

theorem alignDown_le (ts : Int) : alignDown bucketMs ts ≤ ts := Int.ediv_mul_le ts hb.ne'

theorem lt_alignDown_add (ts : Int) : ts < alignDown bucketMs ts + bucketMs := by
  have := Int.lt_ediv_add_one_mul_self ts hb
  rwa [Int.add_mul, Int.one_mul] at this

theorem alignDown_nonneg {ts : Int} (h : 0 ≤ ts) : 0 ≤ alignDown bucketMs ts :=
  Int.mul_nonneg (Int.ediv_nonneg h hb.le) hb.le

/-- A time goes to its own bucket from the epoch on and where buckets begin, and to the next one otherwise. -/
theorem bucketStart_cases (ts : Int) :
    (0 ≤ ts ∨ bucketMs ∣ ts) ∧ bucketStart bucketMs ts = alignDown bucketMs ts ∨
      ts < 0 ∧ ¬ bucketMs ∣ ts ∧ bucketStart bucketMs ts = alignDown bucketMs ts + bucketMs := by
  rw [bucketStart_eq hb]
  by_cases h : 0 ≤ ts ∨ bucketMs ∣ ts
  · rw [if_pos h, Int.add_zero]
    exact .inl ⟨h, rfl⟩
  · rw [if_neg h]
    rw [not_or, Int.not_le] at h
    exact .inr ⟨h.1, h.2, rfl⟩

theorem alignDown_mono {ts ts' : Int} (h : ts ≤ ts') : alignDown bucketMs ts ≤ alignDown bucketMs ts' :=
  Int.mul_le_mul_of_nonneg_right (Int.ediv_le_ediv hb h) hb.le

theorem alignDown_eq_of_dvd {ts k : Int} (hk : bucketMs ∣ k) (hle : k ≤ ts) (hlt : ts < k + bucketMs) :
    alignDown bucketMs ts = k := by
  obtain ⟨c, rfl⟩ := hk
  have hdiv : ts / bucketMs = c := by
    refine (Int.ediv_eq_iff_of_pos hb).2 ⟨?_, ?_⟩
    · rwa [Int.mul_comm]
    · rwa [Int.mul_comm c]
  rw [alignDown, hdiv, Int.mul_comm]

end Alignment

theorem dvd_alignDown (bucketMs ts : Int) : bucketMs ∣ alignDown bucketMs ts := Int.dvd_mul_left _ _

/-! ## Exact series -/

section Exact

variable {rows : List CallRecord} {bucketMs since until_ : Int}

theorem mem_windowRows :
    r ∈ windowRows rows since until_ ↔ r ∈ rows ∧ since ≤ r.tsStart ∧ r.tsStart < until_ := by
  rw [windowRows, List.mem_filter, decide_eq_true_eq]

theorem mem_globalBuckets :
    a ∈ globalBuckets bucketMs rows ↔ (∃ r ∈ rows, bucketStart bucketMs r.tsStart = a.bucketStart) ∧
      a = aggregateBucket none a.bucketStart
        (rows.filter fun r => bucketStart bucketMs r.tsStart = a.bucketStart) := by
  rw [globalBuckets, mem_grouped]
  simp only [globalKey, Option.some.injEq]
  constructor
  · rintro ⟨k, hr, rfl⟩
    exact ⟨hr, rfl⟩
  · rintro ⟨hr, ha⟩
    exact ⟨_, hr, ha⟩

theorem serverKey_eq_some_iff {k : String ×ₗ Int} :
    serverKey bucketMs r = some k ↔
      r.serverName = some (ofLex k).1 ∧ bucketStart bucketMs r.tsStart = (ofLex k).2 := by
  rw [serverKey, Option.map_eq_some_iff]
  constructor
  · rintro ⟨server, hserver, rfl⟩
    exact ⟨hserver, rfl⟩
  · rintro ⟨hserver, hstart⟩
    exact ⟨_, hserver, by rw [hstart]; rfl⟩

theorem mem_serverBuckets :
    a ∈ serverBuckets bucketMs rows ↔ ∃ server,
      (∃ r ∈ rows, r.serverName = some server ∧ bucketStart bucketMs r.tsStart = a.bucketStart) ∧
      a = aggregateBucket (some server) a.bucketStart
        (rows.filter fun r => r.serverName = some server ∧ bucketStart bucketMs r.tsStart = a.bucketStart) := by
  rw [serverBuckets, mem_grouped]
  simp only [serverKey_eq_some_iff]
  constructor
  · rintro ⟨k, hr, rfl⟩
    exact ⟨_, hr, rfl⟩
  · rintro ⟨server, hr, ha⟩
    exact ⟨toLex (server, a.bucketStart), hr, ha⟩

theorem server_of_mem_serverBuckets : ∀ a ∈ serverBuckets bucketMs rows, a.server.isSome := by
  intro a ha
  obtain ⟨server, -, heq⟩ := mem_serverBuckets.1 ha
  rw [heq]
  rfl

theorem globalSeries_append {out servers : List AggregateBucket} (hout : ∀ a ∈ out, a.server = none)
    (hservers : ∀ a ∈ servers, a.server.isSome) : globalSeries (out ++ servers) = out := by
  rw [globalSeries, List.filter_append, List.filter_eq_self.2, List.filter_eq_nil_iff.2, List.append_nil]
  · intro a ha
    have := hservers a ha
    simpa [Option.isSome_iff_ne_none] using this
  · intro a ha
    rw [hout a ha]
    rfl

theorem serverSeries_append {out servers : List AggregateBucket} (hout : ∀ a ∈ out, a.server = none)
    (hservers : ∀ a ∈ servers, a.server.isSome) : serverSeries (out ++ servers) = servers := by
  rw [serverSeries, List.filter_append, List.filter_eq_nil_iff.2, List.filter_eq_self.2, List.nil_append]
  · exact hservers
  · intro a ha
    rw [hout a ha]
    exact Bool.false_ne_true

section Agree

variable {window out rest : List AggregateBucket}
  (hagree : ∀ r ∈ rows, bucketStart bucketMs r.tsStart = alignDown bucketMs r.tsStart)

include hagree

/-- A bucket of the loop is the group of its rows, or has none. -/
theorem entry_summarises {start : Int}
    (hfilled : Filled bucketMs until_ start (globalBuckets bucketMs rows) out rest) :
    ∀ a ∈ out, a.server = none ∧
      Summarises (rows.filter fun r => alignDown bucketMs r.tsStart = a.bucketStart) a := by
  intro a ha
  have hkeys : (rows.filter fun r => alignDown bucketMs r.tsStart = a.bucketStart) =
      rows.filter fun r => bucketStart bucketMs r.tsStart = a.bucketStart :=
    List.filter_congr fun r hr => by rw [hagree r hr]
  have heq := hfilled.entries a ha
  rw [hkeys]
  cases hfind : (globalBuckets bucketMs rows).find? fun g => g.bucketStart = a.bucketStart with
  | none =>
    rw [hfind, Option.getD_none] at heq
    have hnone : (rows.filter fun r => bucketStart bucketMs r.tsStart = a.bucketStart) = [] := by
      refine List.filter_eq_nil_iff.2 fun r hr hkey => ?_
      have hmem : aggregateBucket none a.bucketStart
          (rows.filter fun r => bucketStart bucketMs r.tsStart = a.bucketStart) ∈ globalBuckets bucketMs rows :=
        mem_globalBuckets.2 ⟨⟨r, hr, of_decide_eq_true hkey⟩, rfl⟩
      exact List.find?_eq_none.1 hfind _ hmem (decide_eq_true rfl)
    rw [hnone, heq]
    exact ⟨rfl, summarises_zero _⟩
  | some g =>
    rw [hfind, Option.getD_some] at heq
    subst heq
    obtain ⟨-, ha⟩ := mem_globalBuckets.1 (List.mem_of_find?_eq_some hfind)
    rw [ha]
    exact ⟨rfl, summarises_aggregateBucket _ _ _⟩

theorem serverBuckets_summarise :
    ∀ a ∈ serverBuckets bucketMs rows, Summarises
      (rows.filter fun r => r.serverName = a.server ∧ alignDown bucketMs r.tsStart = a.bucketStart) a := by
  intro a ha
  obtain ⟨server, -, heq⟩ := mem_serverBuckets.1 ha
  have hkeys : (rows.filter fun r => r.serverName = some server ∧ alignDown bucketMs r.tsStart = a.bucketStart) =
      rows.filter fun r => r.serverName = some server ∧ bucketStart bucketMs r.tsStart = a.bucketStart :=
    List.filter_congr fun r hr => by rw [hagree r hr]
  have hserver : a.server = some server := by
    rw [heq]
    rfl
  rw [hserver, hkeys, heq]
  exact summarises_aggregateBucket _ _ _

theorem serverBuckets_groups (server : String) (k : Int) :
    (some server, k) ∈ (serverBuckets bucketMs rows).map (fun a => (a.server, a.bucketStart)) ↔
      ∃ r ∈ rows, r.serverName = some server ∧ alignDown bucketMs r.tsStart = k := by
  constructor
  · intro h
    obtain ⟨a, ha, heq⟩ := List.mem_map.1 h
    obtain ⟨server', ⟨r, hr, hname, hstart⟩, ha⟩ := mem_serverBuckets.1 ha
    have hserver : some server' = some server := by
      rw [ha] at heq
      exact (Prod.mk.inj heq).1
    refine ⟨r, hr, hname.trans hserver, ?_⟩
    rw [← hagree r hr, hstart]
    exact (Prod.mk.inj heq).2
  · rintro ⟨r, hr, hname, hstart⟩
    rw [← hagree r hr] at hstart
    have hmem : aggregateBucket (some server) k
        (rows.filter fun r => r.serverName = some server ∧ bucketStart bucketMs r.tsStart = k) ∈
        serverBuckets bucketMs rows :=
      mem_serverBuckets.2 ⟨server, ⟨r, hr, hname, hstart⟩, rfl⟩
    exact List.mem_map.2 ⟨_, hmem, rfl⟩

end Agree

theorem serverBuckets_nodup (bucketMs : Int) (rows : List CallRecord) :
    ((serverBuckets bucketMs rows).map fun a => (a.server, a.bucketStart)).Nodup := by
  have hstrict : ((serverBuckets bucketMs rows).map fun a =>
      toLex (a.server.getD "", a.bucketStart)).Pairwise (· < ·) :=
    keys_grouped_strict fun k _ => rfl
  refine List.Nodup.of_map (fun key : Option String × Int => toLex (key.1.getD "", key.2)) ?_
  rw [List.map_map]
  exact hstrict.imp fun h => h.ne

/-- When no row of the window is put into another bucket than its own, the series are exact. -/
theorem aggregateExact_of_filled {out rest : List AggregateBucket} (hb : 0 < bucketMs)
    (hagree : ∀ r ∈ windowRows rows since until_, bucketStart bucketMs r.tsStart = alignDown bucketMs r.tsStart)
    (hstart : ∀ k, bucketMs ∣ k - bucketStart bucketMs since ∧ bucketStart bucketMs since ≤ k ∧ k < until_ ↔
      bucketMs ∣ k ∧ alignDown bucketMs since ≤ k ∧ k < until_)
    (hfilled : Filled bucketMs until_ (bucketStart bucketMs since)
      (globalBuckets bucketMs (windowRows rows since until_)) out rest) :
    AggregateExact rows bucketMs since until_
      (out ++ rest ++ serverBuckets bucketMs (windowRows rows since until_)) := by
  have hcovers : ∀ k, k ∈ out.map (·.bucketStart) ↔ bucketMs ∣ k ∧ alignDown bucketMs since ≤ k ∧ k < until_ :=
    fun k => (hfilled.starts k).trans (hstart k)
  have hrow : ∀ r ∈ windowRows rows since until_, alignDown bucketMs r.tsStart ∈ out.map (·.bucketStart) := by
    intro r hr
    obtain ⟨-, hsince, huntil⟩ := mem_windowRows.1 hr
    exact (hcovers _).2 ⟨dvd_alignDown _ _, alignDown_mono hb hsince,
      lt_of_le_of_lt (alignDown_le hb _) huntil⟩
  -- nothing is left to append after the loop
  have hrest : rest = [] := by
    refine List.eq_nil_iff_forall_not_mem.2 fun a ha => ?_
    obtain ⟨hglobal, hout⟩ := (hfilled.rest a).1 ha
    obtain ⟨⟨r, hr, heq⟩, -⟩ := mem_globalBuckets.1 hglobal
    rw [← heq, hagree r hr] at hout
    exact hout (hrow r hr)
  have hentry := entry_summarises hagree hfilled
  have hout : ∀ a ∈ out, a.server = none := fun a ha => (hentry a ha).1
  have hglobal : globalSeries (out ++ rest ++ serverBuckets bucketMs (windowRows rows since until_)) = out := by
    rw [hrest, List.append_nil]
    exact globalSeries_append hout server_of_mem_serverBuckets
  have hserver : serverSeries (out ++ rest ++ serverBuckets bucketMs (windowRows rows since until_)) =
      serverBuckets bucketMs (windowRows rows since until_) := by
    rw [hrest, List.append_nil]
    exact serverSeries_append hout server_of_mem_serverBuckets
  have htotal : (out.map (·.count)).sum = (windowRows rows since until_).length := by
    have hcounts : out.map (·.count) = (out.map (·.bucketStart)).map fun k =>
        (windowRows rows since until_).countP fun r => alignDown bucketMs r.tsStart = k := by
      rw [List.map_map]
      exact List.map_congr_left fun a ha => (hentry a ha).2.count.trans List.countP_eq_length_filter.symm
    rw [hcounts]
    exact sum_countP_eq_length _ (hfilled.ascending.imp fun h => h.ne) hrow
  constructor
  · rw [hglobal]
    exact hfilled.ascending
  · rw [hglobal]
    exact hcovers
  · rw [hglobal]
    exact fun a ha => (hentry a ha).2
  · rw [hserver]
    exact serverBuckets_nodup _ _
  · rw [hserver]
    exact serverBuckets_groups hagree
  · rw [hserver]
    exact serverBuckets_summarise hagree
  · rw [hglobal]
    exact htotal

end Exact

/-! ## When the series are exact -/

/-- The windows for which nothing goes wrong: none before the epoch, with an end that the loop reaches; none
with a bucket in it; and a single time that begins a bucket. -/
def ExactWindow (bucketMs since until_ : Int) : Prop :=
  (0 ≤ since ∧ ∃ k, bucketMs ∣ k ∧ until_ ≤ k ∧ k < 9223372036854775808) ∨
    until_ ≤ alignDown bucketMs since ∨
    since < 0 ∧ bucketMs ∣ since ∧ until_ = since + 1

section Window

variable {bucketMs since until_ : Int}

/-- A multiple of the width at or after the end is reached in steps of the width. -/
theorem exists_steps (hb : 0 < bucketMs) {start k : Int} (hstart : bucketMs ∣ start) (hk : bucketMs ∣ k)
    (hlt : start < until_) (hle : until_ ≤ k) : ∃ m : Nat, k = start + m * bucketMs := by
  obtain ⟨c, hc⟩ := Int.dvd_sub hk hstart
  have hpos : 0 ≤ c := by
    by_contra hneg
    have := Int.mul_le_mul_of_nonneg_left (show c ≤ 0 by omega) hb.le
    omega
  refine ⟨c.toNat, ?_⟩
  rw [Int.toNat_of_nonneg hpos, Int.mul_comm]
  omega

theorem exists_filled (hb : 0 < bucketMs) (hrange : InRange bucketMs) (hsince : InRange since)
    (h : ExactWindow bucketMs since until_) (global : List AggregateBucket) :
    ∃ fuel out rest, zeroFill bucketMs until_ fuel (bucketStart bucketMs since) global = some (out, rest) ∧
      Filled bucketMs until_ (bucketStart bucketMs since) global out rest := by
  have hle := alignDown_le hb since
  have hlt := lt_alignDown_add hb since
  have hcases := bucketStart_cases hb since
  unfold InRange at hrange hsince
  have hlow : -9223372036854775808 ≤ bucketStart bucketMs since := by
    by_cases hpos : 0 ≤ since
    · have := alignDown_nonneg hb hpos
      omega
    · obtain ⟨hdvd, heq⟩ | ⟨-, -, heq⟩ := hcases
      · have := alignDown_eq_of_dvd hb (hdvd.resolve_left hpos) (le_refl _) (by omega)
        omega
      · omega
  have hsteps : ∃ m : Nat, until_ ≤ bucketStart bucketMs since + m * bucketMs ∧
      bucketStart bucketMs since + m * bucketMs < 9223372036854775808 := by
    obtain ⟨hpos, k, hk, huntil, hfits⟩ | hempty | ⟨hneg, hdvd, huntil⟩ := h
    · obtain hend | hgo := le_or_gt until_ (bucketStart bucketMs since)
      · exact ⟨0, by simpa using hend, by simp only [Nat.cast_zero, Int.zero_mul]; omega⟩
      · have hdvd : bucketMs ∣ bucketStart bucketMs since := Int.dvd_mul_left _ _
        obtain ⟨m, rfl⟩ := exists_steps hb hdvd hk hgo huntil
        exact ⟨m, huntil, hfits⟩
    · exact ⟨0, by simp only [Nat.cast_zero, Int.zero_mul]; omega, by simp only [Nat.cast_zero, Int.zero_mul]; omega⟩
    · have halign := alignDown_eq_of_dvd hb hdvd (le_refl since) (by omega)
      have hstart : bucketStart bucketMs since = since := by
        obtain ⟨-, heq⟩ | ⟨-, hnot, -⟩ := hcases
        · rw [heq, halign]
        · exact absurd hdvd hnot
      rw [hstart]
      exact ⟨1, by simp only [Nat.cast_one, Int.one_mul]; omega, by simp only [Nat.cast_one, Int.one_mul]; omega⟩
  obtain ⟨m, hm, hfits⟩ := hsteps
  exact exists_zeroFill hb hm hfits hlow

theorem agree_of_exactWindow (hb : 0 < bucketMs) (h : ExactWindow bucketMs since until_) {rows : List CallRecord} :
    ∀ r ∈ windowRows rows since until_, bucketStart bucketMs r.tsStart = alignDown bucketMs r.tsStart := by
  intro r hr
  obtain ⟨-, hsince, huntil⟩ := mem_windowRows.1 hr
  have hle := alignDown_le hb since
  have hcases := bucketStart_cases hb r.tsStart
  obtain ⟨hpos, -⟩ | hempty | ⟨-, hdvd, hone⟩ := h
  · omega
  · omega
  · have hts : r.tsStart = since := by omega
    rw [hts] at hcases ⊢
    obtain ⟨-, heq⟩ | ⟨-, hnot, -⟩ := hcases
    · exact heq
    · exact absurd hdvd hnot

theorem starts_of_exactWindow (hb : 0 < bucketMs) (h : ExactWindow bucketMs since until_) (k : Int) :
    bucketMs ∣ k - bucketStart bucketMs since ∧ bucketStart bucketMs since ≤ k ∧ k < until_ ↔
      bucketMs ∣ k ∧ alignDown bucketMs since ≤ k ∧ k < until_ := by
  have hdvd : bucketMs ∣ k - bucketStart bucketMs since ↔ bucketMs ∣ k :=
    dvd_sub_left (Int.dvd_mul_left _ _)
  rw [hdvd]
  obtain ⟨-, heq⟩ | ⟨hneg, hnot, heq⟩ := bucketStart_cases hb since
  · rw [heq]
  · -- the loop begins one bucket late, and must have had none to emit
    have hempty : until_ ≤ alignDown bucketMs since := by
      obtain ⟨hpos, -⟩ | hempty | ⟨-, hdvd, -⟩ := h
      · omega
      · exact hempty
      · exact absurd hdvd hnot
    constructor
    · rintro ⟨-, hle, hlt⟩
      omega
    · rintro ⟨-, hle, hlt⟩
      omega

/-- A call at a time. -/
def callAt (tsStart : Int) : CallRecord := { tool := "fs__read", tsStart }

/-- Before the epoch a call after the start of a bucket is counted in the next one. -/
theorem not_exact_before_epoch (hb : 1 < bucketMs) (hneg : since < 0) (hdvd : bucketMs ∣ since)
    (hone : since + 1 < until_) {out rest servers : List AggregateBucket}
    (hfill : zeroFill bucketMs until_ fuel (bucketStart bucketMs since)
      (globalBuckets bucketMs (windowRows [callAt (since + 1)] since until_)) = some (out, rest)) :
    ¬ AggregateExact [callAt (since + 1)] bucketMs since until_ (out ++ rest ++ servers) := by
  intro hexact
  have hpos : 0 < bucketMs := by omega
  have hwidth := Int.le_of_dvd (by omega) ((Int.dvd_neg).2 hdvd)
  have hwindow : windowRows [callAt (since + 1)] since until_ = [callAt (since + 1)] :=
    List.filter_eq_self.2 fun r hr => by
      rw [List.mem_singleton.1 hr, decide_eq_true_eq]
      exact ⟨by show since ≤ since + 1; omega, hone⟩
  have hstart : bucketStart bucketMs since = since := by
    obtain ⟨-, heq⟩ | ⟨-, hnot, -⟩ := bucketStart_cases hpos since
    · rw [heq, alignDown_eq_of_dvd hpos hdvd (le_refl _) (by omega)]
    · exact absurd hdvd hnot
  have halign : alignDown bucketMs (since + 1) = since :=
    alignDown_eq_of_dvd hpos hdvd (by omega) (by omega)
  have hnext : bucketStart bucketMs (since + 1) = since + bucketMs := by
    obtain ⟨hor, -⟩ | ⟨-, -, heq⟩ := bucketStart_cases hpos (since + 1)
    · have hdvd' := hor.resolve_left (by omega)
      have := Int.le_of_dvd Int.one_pos ((Int.dvd_add_right hdvd).1 hdvd')
      omega
    · rw [heq, halign]
  rw [hstart, hwindow] at hfill
  obtain ⟨-, out', -, rfl, -⟩ := zeroFill_cons hfill (by omega)
  have hnone : (globalBuckets bucketMs [callAt (since + 1)]).find? (fun a => a.bucketStart = since) = none := by
    refine List.find?_eq_none.2 fun a ha hkey => ?_
    obtain ⟨⟨r, hr, heq⟩, -⟩ := mem_globalBuckets.1 ha
    rw [List.mem_singleton.1 hr, of_decide_eq_true hkey] at heq
    have : bucketStart bucketMs (since + 1) = since := heq
    omega
  rw [hnone, Option.getD_none] at hexact
  have hcount := (hexact.global { server := none, bucketStart := since }
    (List.mem_filter.2 ⟨by simp, rfl⟩)).count
  have hkept : [callAt (since + 1)].filter (fun r => alignDown bucketMs r.tsStart = since) =
      [callAt (since + 1)] :=
    List.filter_eq_self.2 fun r hr => by
      rw [List.mem_singleton.1 hr]
      exact decide_eq_true halign
  rw [hwindow, hkept] at hcount
  cases hcount

theorem exactWindow_of_series (hb : 1 < bucketMs) (hrange : InRange bucketMs) (hsince : InRange since)
    (h : ∀ rows : List CallRecord, ∃ fuel out rest,
      zeroFill bucketMs until_ fuel (bucketStart bucketMs since)
        (globalBuckets bucketMs (windowRows rows since until_)) = some (out, rest) ∧
      AggregateExact rows bucketMs since until_
        (out ++ rest ++ serverBuckets bucketMs (windowRows rows since until_))) :
    ExactWindow bucketMs since until_ := by
  have hpos : 0 < bucketMs := by omega
  by_cases hempty : until_ ≤ alignDown bucketMs since
  · exact .inr (.inl hempty)
  -- without rows the series is the one of the loop
  obtain ⟨fuel, out, rest, hfill, hexact⟩ := h []
  have hnil : globalBuckets bucketMs (windowRows [] since until_) = [] := rfl
  have hnil' : serverBuckets bucketMs (windowRows [] since until_) = [] := rfl
  rw [hnil] at hfill
  obtain ⟨rfl, hservers⟩ := zeroFill_nil hfill
  have hseries : globalSeries (out ++ [] ++ serverBuckets bucketMs (windowRows [] since until_)) = out := by
    rw [hnil', List.append_nil, globalSeries_append hservers (List.forall_mem_nil _)]
  have hcovers := hexact.covers
  have hasc := hexact.ascending
  rw [hseries] at hcovers hasc
  have hfirst : alignDown bucketMs since ∈ out.map (·.bucketStart) :=
    (hcovers _).2 ⟨dvd_alignDown _ _, le_refl _, by omega⟩
  have hlt : bucketStart bucketMs since < until_ := by
    obtain hlt | hend := lt_or_ge (bucketStart bucketMs since) until_
    · exact hlt
    · rw [zeroFill_of_le hfill hend] at hfirst
      cases hfirst
  -- it ascends from its first bucket, which is then that of `since`
  have hstart : (0 ≤ since ∨ bucketMs ∣ since) ∧ bucketStart bucketMs since = alignDown bucketMs since := by
    obtain ⟨-, out', -, rfl, -⟩ := zeroFill_cons hfill hlt
    rw [List.map_cons, bucketStart_found] at hasc hfirst
    have hle : bucketStart bucketMs since ≤ alignDown bucketMs since := by
      obtain heq | hmem := List.mem_cons.1 hfirst
      · exact heq.ge
      · exact ((List.pairwise_cons.1 hasc).1 _ hmem).le
    obtain hsame | ⟨-, -, heq⟩ := bucketStart_cases hpos since
    · exact hsame
    · omega
  obtain ⟨hdvd, heq⟩ := hstart
  by_cases hneg : 0 ≤ since
  · have hle := alignDown_le hpos since
    have hlow := alignDown_nonneg hpos hneg
    unfold InRange at hsince
    obtain ⟨m, hm, hfits⟩ := reaches_of_ascending hpos hrange ⟨by omega, by omega⟩ hfill hasc hlt
    exact .inl ⟨hneg, _, Int.dvd_add (Int.dvd_mul_left _ _) (Int.dvd_mul_left _ _), hm, hfits⟩
  · have hdvd := hdvd.resolve_left hneg
    by_cases hone : until_ = since + 1
    · exact .inr (.inr ⟨by omega, hdvd, hone⟩)
    · have halign := alignDown_eq_of_dvd hpos hdvd (le_refl since) (by omega)
      obtain ⟨fuel, out, rest, hfill, hexact⟩ := h [callAt (since + 1)]
      exact absurd hexact (not_exact_before_epoch hb (by omega) hdvd (by omega) hfill)

end Window

section Exactness

variable {bucketSeconds since until_ : Int}

theorem inRange_width (hwidth : bucketSeconds ≤ 9223372036854775) : InRange (max bucketSeconds 1 * 1000) := by
  unfold InRange
  omega

theorem exactWindow_of_exact (hwidth : bucketSeconds ≤ 9223372036854775) (hsince : InRange since)
    (h : ∀ rows, ∃ fuel out, aggregate fuel rows bucketSeconds since until_ = some out ∧
      AggregateExact rows (max bucketSeconds 1 * 1000) since until_ out) :
    ExactWindow (max bucketSeconds 1 * 1000) since until_ := by
  have hrange := inRange_width hwidth
  refine exactWindow_of_series (by omega) hrange hsince fun rows => ?_
  obtain ⟨fuel, out, hout, hexact⟩ := h rows
  rw [aggregate, wrap_of_inRange hrange] at hout
  obtain ⟨⟨out', rest⟩, hfill, rfl⟩ := Option.map_eq_some_iff.1 hout
  exact ⟨fuel, out', rest, hfill, hexact⟩

/-- **The series are exact just for these windows**, whatever the rows are. -/
theorem aggregate_exact_iff (hwidth : bucketSeconds ≤ 9223372036854775) (hsince : InRange since) :
    (∀ rows, ∃ fuel out, aggregate fuel rows bucketSeconds since until_ = some out ∧
      AggregateExact rows (max bucketSeconds 1 * 1000) since until_ out) ↔
      ExactWindow (max bucketSeconds 1 * 1000) since until_ := by
  refine ⟨exactWindow_of_exact hwidth hsince, fun h rows => ?_⟩
  have hrange := inRange_width hwidth
  have hb : 0 < max bucketSeconds 1 * 1000 := by omega
  obtain ⟨fuel, out, rest, hfill, hfilled⟩ := exists_filled hb hrange hsince h
    (globalBuckets (max bucketSeconds 1 * 1000) (windowRows rows since until_))
  refine ⟨fuel, out ++ rest ++ serverBuckets (max bucketSeconds 1 * 1000) (windowRows rows since until_), ?_, ?_⟩
  · rw [aggregate, wrap_of_inRange hrange, hfill]
    rfl
  · exact aggregateExact_of_filled hb (agree_of_exactWindow hb h) (starts_of_exactWindow hb h) hfilled

/-- The hour after the epoch, by minutes. -/
theorem aggregate_exact_firstHour :
    ExactWindow 60000 0 3600000 ∧
    ∀ rows, ∃ fuel out, aggregate fuel rows 60 0 3600000 = some out ∧ AggregateExact rows 60000 0 3600000 out :=
  have hwindow : ExactWindow 60000 0 3600000 := .inl ⟨le_refl _, 3600000, by decide, le_refl _, by decide⟩
  ⟨hwindow, (aggregate_exact_iff (by decide) ⟨by decide, by decide⟩).2 hwindow⟩

/-- A window from before the epoch lacks its first bucket, and one to the last time of all never ends. -/
theorem aggregate_inexact :
    (¬ ∀ rows, ∃ fuel out, aggregate fuel rows 60 (-90000) 60000 = some out ∧
      AggregateExact rows 60000 (-90000) 60000 out) ∧
    ¬ ∀ rows, ∃ fuel out, aggregate fuel rows 60 9223372036851175807 9223372036854775807 = some out ∧
      AggregateExact rows 60000 9223372036851175807 9223372036854775807 out := by
  constructor
  · intro h
    obtain ⟨hpos, -⟩ | hempty | ⟨-, hdvd, -⟩ := exactWindow_of_exact (by decide) ⟨by decide, by decide⟩ h
    · exact absurd hpos (by decide)
    · exact absurd hempty (by decide)
    · exact absurd hdvd (by decide)
  · intro h
    have hwindow : ExactWindow 60000 9223372036851175807 9223372036854775807 :=
      exactWindow_of_exact (by decide) ⟨by decide, by decide⟩ h
    obtain ⟨-, k, hk, huntil, hfits⟩ | hempty | ⟨hneg, -, -⟩ := hwindow
    · omega
    · have := alignDown_le (show (0 : Int) < 60000 by decide) 9223372036851175807
      omega
    · omega

end Exactness

end EndaraRelay
