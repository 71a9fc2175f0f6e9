import EndaraRelay.Lib.Int64
import EndaraRelay.Observability.Store

/-!
# Retention

`Store::enforce_retention` and `Store::enforce_size_cap`, which a task of `main.rs` calls every minute with
the two settings. The size of the database is what SQLite answers at each measurement, whatever that is.

**Units.** Days become milliseconds and megabytes become bytes before they are compared with anything.
The settings are `u64`, the comparisons `i64`. `main.rs` caps the days at the largest `i64`, and the
multiplication after that leaves the range; the megabytes are multiplied as a `u64`, and the cast after that
changes the sign.

**Theorem (`retention_exact_iff`).** For every clock reading and every pair of settings the two functions
delete what they must and nothing else just when the cutoff is at least the smallest `i64` (or comes back to
it by accident) and the megabytes are fewer than `2^43`.

A row set is a `CallLog`: its ids are distinct, so `(ts_start, id)` orders it strictly.
-/

namespace EndaraRelay

open Verif Verif.Keyset Verif.Int64

/-- `DELETE FROM calls WHERE ...`, with the number of rows deleted. -/
def CallLog.delete (log : CallLog) (condition : CallRecord → Bool) : CallLog × Nat :=
  ({ rows := log.rows.filter fun r => !condition r
     nextId := log.nextId
     assigned := fun r hr => log.assigned r (List.mem_of_mem_filter hr)
     nodup := log.nodup.sublist (List.filter_sublist.map _) },
   log.rows.countP condition)

/-- The wall clock in milliseconds; nothing is read when it is before the epoch. -/
def nowMs : Option Nat → Int
  | none => 0
  | some sinceEpoch => wrap sinceEpoch

/-! ## Days -/

/-- The retention window as the task hands it on: capped, for a cast would wrap. -/
def retentionDays (recordRetentionDays : UInt64) : Int :=
  if recordRetentionDays.toNat < 9223372036854775808 then recordRetentionDays.toNat else 9223372036854775807

/-- `Store::enforce_retention`. A release build wraps where a debug build panics. -/
def enforceRetention (now days : Int) (log : CallLog) : CallLog × Nat :=
  let cutoff := wrap (now - wrap (max days 0 * 86400000))
  log.delete fun r => r.tsStart < cutoff

/-! ## Megabytes -/

/-- The outcome of `Store::enforce_size_cap`. -/
structure SizeCapResult where
  evicted : Bool
  deletedRows : Nat
  oldestRetainedTs : Option Int

/-- The cap in bytes: a saturating product, cast to `i64`. -/
def maxBytes (maxMb : UInt64) : Int := wrap (min (maxMb.toNat * 1048576) 18446744073709551615 : Nat)

/-- The ids of the oldest 256 rows. -/
def oldestIds (log : CallLog) : List (Option Int) :=
  ((ascending rowKey log.rows).take 256).map (·.id)

def deleteOldest (log : CallLog) : CallLog × Nat := log.delete fun r => r.id ∈ oldestIds log

/-- What one round leaves. -/
def dropOldest (log : CallLog) : CallLog := (deleteOldest log).1

theorem length_delete (log : CallLog) (condition : CallRecord → Bool) :
    (log.delete condition).1.rows.length + (log.delete condition).2 = log.rows.length := by
  rw [CallLog.delete, Nat.add_comm, List.countP_eq_length_filter]
  exact List.length_eq_length_filter_add condition |>.symm

/-- The loop. `size` is the answer to the measurement of a round. -/
def evictLoop (size : Nat → CallLog → Nat) (maxBytes : Int) (round : Nat) (log : CallLog) (deletedRows : Nat)
    (evicted : Bool) : CallLog × Nat × Bool :=
  if (size round log : Int) ≤ maxBytes then (log, deletedRows, evicted)
  else if (deleteOldest log).2 = 0 then ((deleteOldest log).1, deletedRows, evicted)
  else evictLoop size maxBytes (round + 1) (deleteOldest log).1 (deletedRows + (deleteOldest log).2) true
termination_by log.rows.length
decreasing_by
  have := length_delete log fun r => r.id ∈ oldestIds log
  rw [← deleteOldest] at this
  omega

def enforceSizeCap (size : Nat → CallLog → Nat) (maxMb : UInt64) (log : CallLog) : CallLog × SizeCapResult :=
  let (log', deletedRows, evicted) := evictLoop size (maxBytes maxMb) 0 log 0 false
  (log', { evicted, deletedRows, oldestRetainedTs := (log'.rows.map (·.tsStart)).min? })

/-! ## What must be deleted -/

/-- The rows older than the window go and the others stay. -/
def RetentionExact (now : Int) (recordRetentionDays : UInt64) : Prop :=
  ∀ log : CallLog, (∀ r ∈ log.rows, InRange r.tsStart) →
    (enforceRetention now (retentionDays recordRetentionDays) log).1.rows =
      log.rows.filter fun r => now - recordRetentionDays.toNat * 86400000 ≤ r.tsStart

/-- `log'` is what is left of `log` after rounds that each found the database above the cap. -/
structure Evicts (size : Nat → CallLog → Nat) (cap : Int) (log log' : CallLog) : Prop where
  onlyWhileLarger : ∃ rounds, log' = dropOldest^[rounds] log ∧
    (∀ k < rounds, cap < size k (dropOldest^[k] log)) ∧
    ((size rounds log' : Int) ≤ cap ∨ log'.rows = [])
  oldestFirst : ∀ r ∈ log.rows, r ∉ log'.rows → ∀ r' ∈ log'.rows, rowKey r < rowKey r'

/-- The database is brought under the cap. -/
def SizeCapExact (maxMb : UInt64) : Prop :=
  ∀ size log, Evicts size (maxMb.toNat * 1048576) log (enforceSizeCap size maxMb log).1

/-! ## The cutoff -/

variable {log : CallLog} {r : CallRecord} {rounds : Nat}

theorem mem_delete {condition : CallRecord → Bool} :
    r ∈ (log.delete condition).1.rows ↔ r ∈ log.rows ∧ condition r = false := by
  rw [CallLog.delete, List.mem_filter, Bool.not_eq_true']

theorem enforceRetention_rows (now : Int) (days : UInt64) (log : CallLog) :
    (enforceRetention now (retentionDays days) log).1.rows =
      log.rows.filter fun r => wrap (now - retentionDays days * 86400000) ≤ r.tsStart := by
  have hpos : max (retentionDays days) 0 = retentionDays days := by
    refine max_eq_left ?_
    unfold retentionDays
    split <;> omega
  rw [enforceRetention, hpos]
  refine List.filter_congr fun r _ => ?_
  rw [wrap_sub_wrap, ← decide_not, decide_eq_decide, Int.not_lt]

/-- A log with one row of a given time. -/
def oneRow (tsStart : Int) : CallLog := CallLog.empty.insert { tool := "fs__read", tsStart }

theorem retentionExact_iff {now : Int} (hnow : InRange now) (days : UInt64) :
    RetentionExact now days ↔
      -9223372036854775808 ≤ now - days.toNat * 86400000 ∨
        (now - retentionDays days * 86400000 + 9223372036854775808) % 18446744073709551616 = 0 := by
  have hcutoff := inRange_wrap (now - retentionDays days * 86400000)
  unfold InRange at hnow hcutoff
  constructor
  · intro h
    by_contra hnot
    rw [not_or, ← wrap_eq_min_iff] at hnot
    -- a row at the least time of all is younger than the window, and goes
    have hrow := h (oneRow (-9223372036854775808)) (by
      intro r hr
      rw [List.mem_singleton.1 hr]
      decide)
    rw [enforceRetention_rows] at hrow
    have hkept : (oneRow (-9223372036854775808)).rows.filter
        (fun r => now - days.toNat * 86400000 ≤ r.tsStart) = (oneRow (-9223372036854775808)).rows := by
      refine List.filter_eq_self.2 fun r hr => ?_
      rw [List.mem_singleton.1 hr, decide_eq_true_eq]
      show now - days.toNat * 86400000 ≤ -9223372036854775808
      omega
    rw [hkept, List.filter_eq_self] at hrow
    have := of_decide_eq_true (hrow _ List.mem_cons_self)
    have hts : wrap (now - retentionDays days * 86400000) ≤ -9223372036854775808 := this
    omega
  · intro h log hlog
    rw [enforceRetention_rows]
    refine List.filter_congr fun r hr => ?_
    obtain ⟨hlow, -⟩ := hlog r hr
    rw [decide_eq_decide]
    by_cases hwindow : -9223372036854775808 ≤ now - days.toNat * 86400000
    · have hdays : retentionDays days = days.toNat := by
        unfold retentionDays
        rw [if_pos (by omega)]
      rw [hdays, wrap_of_inRange ⟨hwindow, by omega⟩]
    · have hmin := (wrap_eq_min_iff _).2 (h.resolve_left hwindow)
      rw [hmin]
      constructor
      · intro _
        omega
      · intro _
        exact hlow

/-! ## The loop -/

theorem mem_dropOldest :
    r ∈ (dropOldest log).rows ↔ r ∈ log.rows ∧ r ∉ (ascending rowKey log.rows).take 256 := by
  rw [dropOldest, deleteOldest, mem_delete, decide_eq_false_iff_not]
  refine and_congr_right fun hr => not_congr ⟨fun hid => ?_, List.mem_map_of_mem⟩
  obtain ⟨r', hr', hid'⟩ := List.mem_map.1 hid
  have hmem : r' ∈ log.rows := mem_ascending.1 (List.mem_of_mem_take hr')
  exact List.inj_on_of_nodup_map log.nodup hmem hr hid' ▸ hr'

/-- A round that deletes nothing finds an empty table. -/
theorem rows_eq_nil_of_deleteOldest (h : (deleteOldest log).2 = 0) : log.rows = [] := by
  by_contra hne
  have hpos : 0 < ((ascending rowKey log.rows).take 256).length := by
    rw [List.length_take, length_ascending]
    exact Nat.lt_min.2 ⟨by decide, List.length_pos_iff.2 hne⟩
  obtain ⟨r, hr⟩ := List.exists_mem_of_length_pos hpos
  have hmem : r ∈ log.rows := mem_ascending.1 (List.mem_of_mem_take hr)
  have hcount := List.countP_eq_zero.1 h r hmem
  exact hcount (decide_eq_true (List.mem_map_of_mem hr))

theorem mem_of_mem_iterate_dropOldest (h : r ∈ (dropOldest^[rounds] log).rows) : r ∈ log.rows := by
  induction rounds generalizing log with
  | zero => exact h
  | succ rounds ih =>
    rw [Function.iterate_succ_apply] at h
    exact (mem_dropOldest.1 (ih h)).1

/-- What some rounds delete is older than what they leave. -/
theorem lt_of_iterate_dropOldest {r r' : CallRecord} (hr : r ∈ log.rows)
    (hgone : r ∉ (dropOldest^[rounds] log).rows) (hkept : r' ∈ (dropOldest^[rounds] log).rows) :
    rowKey r < rowKey r' := by
  induction rounds generalizing log with
  | zero => exact absurd hr hgone
  | succ rounds ih =>
    rw [Function.iterate_succ_apply] at hgone hkept
    by_cases hfirst : r ∈ (dropOldest log).rows
    · exact ih hfirst hgone hkept
    · have hchunk : r ∈ (ascending rowKey log.rows).take 256 := by
        by_contra hnot
        exact hfirst (mem_dropOldest.2 ⟨hr, hnot⟩)
      obtain ⟨hr', hout⟩ := mem_dropOldest.1 (mem_of_mem_iterate_dropOldest hkept)
      exact lt_of_mem_take_ascending (rowKey_nodup log) hchunk hr' hout

/-- Rounds go on while the database is larger than the cap and there are rows. -/
theorem evictLoop_rounds (size : Nat → CallLog → Nat) (maxBytes : Int) (round : Nat) (log : CallLog)
    (deletedRows : Nat) (evicted : Bool) :
    ∃ rounds, (evictLoop size maxBytes round log deletedRows evicted).1 = dropOldest^[rounds] log ∧
      (∀ k < rounds, maxBytes < size (round + k) (dropOldest^[k] log)) ∧
      ((size (round + rounds) (dropOldest^[rounds] log) : Int) ≤ maxBytes ∨
        (dropOldest^[rounds] log).rows = []) := by
  fun_induction evictLoop size maxBytes round log deletedRows evicted with
  | case1 round log deletedRows evicted hfits => exact ⟨0, rfl, nofun, .inl hfits⟩
  | case2 round log deletedRows evicted hfits hnone =>
    refine ⟨1, rfl, fun k hk => ?_, .inr ?_⟩
    · obtain rfl : k = 0 := Nat.lt_one_iff.1 hk
      exact Int.not_le.1 hfits
    · have hnil := rows_eq_nil_of_deleteOldest hnone
      refine List.eq_nil_iff_forall_not_mem.2 fun r hr => ?_
      have hmem := (mem_dropOldest.1 hr).1
      rw [hnil] at hmem
      cases hmem
  | case3 round log deletedRows evicted hfits hsome ih =>
    obtain ⟨rounds, hresult, hlarger, hend⟩ := ih
    refine ⟨rounds + 1, hresult, fun k hk => ?_, ?_⟩
    · cases k with
      | zero => exact Int.not_le.1 hfits
      | succ k =>
        have := hlarger k (Nat.lt_of_succ_lt_succ hk)
        rwa [Nat.add_right_comm, Nat.add_assoc] at this
    · rw [Nat.add_right_comm, Nat.add_assoc] at hend
      exact hend

theorem evicts_evictLoop (size : Nat → CallLog → Nat) (cap : Int) (log : CallLog) :
    Evicts size cap log (evictLoop size cap 0 log 0 false).1 := by
  obtain ⟨rounds, hresult, hlarger, hend⟩ := evictLoop_rounds size cap 0 log 0 false
  rw [hresult]
  simp only [Nat.zero_add] at hlarger hend
  exact ⟨⟨rounds, rfl, hlarger, hend⟩, fun r hr hgone r' hkept => lt_of_iterate_dropOldest hr hgone hkept⟩

/-! ## The cap -/

theorem enforceSizeCap_fst (size : Nat → CallLog → Nat) (maxMb : UInt64) (log : CallLog) :
    (enforceSizeCap size maxMb log).1 = (evictLoop size (maxBytes maxMb) 0 log 0 false).1 := by
  rw [enforceSizeCap]

theorem sizeCapExact_iff (maxMb : UInt64) : SizeCapExact maxMb ↔ maxMb.toNat < 8796093022208 := by
  constructor
  · intro h
    by_contra hlarge
    -- the cap is negative, so one row goes though the database has one page
    have hlt := maxMb.toNat_lt
    have hneg : maxBytes maxMb < 0 := by
      unfold maxBytes wrap
      omega
    obtain ⟨rounds, hresult, -, hend⟩ := evictLoop_rounds (fun _ _ => 4096) (maxBytes maxMb) 0 (oneRow 0) 0 false
    have hnil : (dropOldest^[rounds] (oneRow 0)).rows = [] := hend.resolve_left (by omega)
    obtain ⟨rounds', heq, hlarger, -⟩ := (h (fun _ _ => 4096) (oneRow 0)).onlyWhileLarger
    rw [enforceSizeCap_fst, hresult] at heq
    have hrows : (dropOldest^[rounds'] (oneRow 0)).rows = [] := heq ▸ hnil
    cases rounds' with
    | zero => cases hrows
    | succ rounds' =>
      have := hlarger 0 (Nat.succ_pos _)
      omega
  · intro h size log
    have hcap : maxBytes maxMb = maxMb.toNat * 1048576 := by
      unfold maxBytes
      rw [wrap_of_inRange]
      · omega
      · unfold InRange
        omega
    have hevicts := evicts_evictLoop size (maxBytes maxMb) log
    rw [hcap] at hevicts
    rw [enforceSizeCap_fst, hcap]
    exact hevicts

theorem inRange_nowMs (sinceEpoch : Option Nat) : InRange (nowMs sinceEpoch) := by
  cases sinceEpoch with
  | none => exact ⟨by decide, by decide⟩
  | some ms => exact inRange_wrap ms

/-- **Retention deletes only what it must**, for the settings whose limits survive the conversion and no
others. -/
theorem retention_exact_iff (sinceEpoch : Option Nat) (recordRetentionDays maxDbSizeMb : UInt64) :
    RetentionExact (nowMs sinceEpoch) recordRetentionDays ∧ SizeCapExact maxDbSizeMb ↔
      (-9223372036854775808 ≤ nowMs sinceEpoch - recordRetentionDays.toNat * 86400000 ∨
        (nowMs sinceEpoch - retentionDays recordRetentionDays * 86400000 + 9223372036854775808) %
          18446744073709551616 = 0) ∧
      maxDbSizeMb.toNat < 8796093022208 :=
  and_congr (retentionExact_iff (inRange_nowMs sinceEpoch) _) (sizeCapExact_iff _)

/-- With windows that never end, both limits turn into ones that everything exceeds. -/
theorem unlimited_settings_delete :
    ¬ RetentionExact (nowMs (some 1767225600000)) 9223372036854775807 ∧ ¬ SizeCapExact 8796093022208 := by
  constructor
  · have hnow : nowMs (some 1767225600000) = 1767225600000 :=
      wrap_of_inRange ⟨by omega, by omega⟩
    have htoNat : (9223372036854775807 : UInt64).toNat = 9223372036854775807 := rfl
    have hdays : retentionDays 9223372036854775807 = 9223372036854775807 := by
      rw [retentionDays, htoNat, if_pos (by omega)]
      rfl
    rw [retentionExact_iff (inRange_nowMs _), hnow, hdays, htoNat]
    omega
  · have htoNat : (8796093022208 : UInt64).toNat = 8796093022208 := rfl
    rw [sizeCapExact_iff, htoNat]
    exact Nat.lt_irrefl _

end EndaraRelay
