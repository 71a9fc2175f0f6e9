import Mathlib.Data.List.TakeWhile
import Mathlib.Data.Prod.Lex
import EndaraRelay.Lib.Keyset
import EndaraRelay.Lib.Like
import EndaraRelay.Lib.Transition

/-!
# The call log

`observability/store.rs`: one row for each proxied tool call, and `Store::query`, which reads the rows
that pass a filter, newest first, one page after the other. The SQL of the query is written out: a
comparison with NULL excludes the row, `LIKE` ignores the case of ASCII letters and reads texts up to
their first NUL character, `(ts_start, id) < (?, ?)` is lexicographic. Statements that fail return no
page and are left out.

**Theorem (`keyset_paging_exact`).** Whatever is inserted between the pages, following the cursors to
the end delivers the rows that were there at the first page and pass the filter, each once, in
descending order of `(ts_start, id)`; of the rows inserted in the meantime, none is delivered twice or
out of place. Every page before the last is full.
-/

namespace EndaraRelay

open Verif Verif.Keyset Verif.Like

/-- The metadata of one proxied call. -/
structure CallRecord where
  id : Option Int := none
  requestUid : Option String := none
  endpoint : Option String := none
  serverName : Option String := none
  serverType : Option String := none
  transport : Option String := none
  profile : Option String := none
  clientName : Option String := none
  clientVersion : Option String := none
  clientUserAgent : Option String := none
  clientOrigin : Option String := none
  tool : String
  tsStart : Int
  tsEnd : Int := 0
  durationMs : Int := 0
  success : Bool := true
  errorMessage : Option String := none
  requestBytes : Int := 0
  responseBytes : Int := 0
  streamed : Bool := false
deriving DecidableEq, Repr

/-- All fields are ANDed; `none` means unconstrained. -/
structure QueryFilter where
  serverName : Option String := none
  tool : Option String := none
  success : Option Bool := none
  requestUid : Option String := none
  since : Option Int := none
  until_ : Option Int := none
deriving DecidableEq, Repr

/-! ## The SQL of a query -/

/-- The case folding of `LIKE`: ASCII letters only. -/
def foldAscii (c : Char) : Char := if 'A' ≤ c ∧ c ≤ 'Z' then Char.ofNat (c.toNat + 32) else c

/-- A text as `LIKE` reads it: up to the first NUL character. -/
def cText (s : String) : List Char := s.toList.takeWhile fun c => c ≠ Char.ofNat 0

/-- `text LIKE pattern ESCAPE '\'`. -/
def sqlLike (pattern text : String) : Bool := likeMatch foldAscii (cText pattern) (cText text)

/-- The pattern for texts that contain the value. -/
def likeContains (value : String) : String := String.ofList ('%' :: (literal value.toList ++ ['%']))

/-- A condition on a column: NULL does not meet it. -/
def column {α : Type} (value : Option α) (condition : α → Bool) : Bool := value.any condition

/-- The conditions a filter adds to the `WHERE` clause. -/
def QueryFilter.selects (filter : QueryFilter) (r : CallRecord) : Bool :=
  (filter.serverName.all fun s => column r.serverName (sqlLike (likeContains s))) &&
    (filter.tool.all fun t => sqlLike (likeContains t) r.tool) &&
    (filter.success.all fun s => r.success = s) &&
    (filter.requestUid.all fun u => column r.requestUid fun v => v = u) &&
    (filter.since.all fun since => decide (since ≤ r.tsStart)) &&
    (filter.until_.all fun until_ => decide (r.tsStart < until_))

/-- `(ts_start, id)`, compared as a row value. -/
abbrev RowKey := Int ×ₗ Int

def rowKey (r : CallRecord) : RowKey := toLex (r.tsStart, r.id.getD 0)

/-- `LIMIT`; a negative one is none. -/
def sqlLimit {α : Type} (limit : Int) (rows : List α) : List α :=
  if limit < 0 then rows else rows.take limit.toNat

/-- `Store::query`, on the rows of the table. -/
def query (rows : List CallRecord) (filter : QueryFilter) (limit : Int) (cursor : Option RowKey) :
    List CallRecord :=
  sqlLimit limit (descending rowKey ((rows.filter filter.selects).filter (isBelow rowKey cursor)))

/-- The cursor of the next page, when the page filled the limit. -/
def nextCallsCursor (limit : Int) (rows : List CallRecord) : Option RowKey :=
  if (rows.length : Int) ≥ limit then
    rows.getLast?.bind fun r => r.id.map fun id => toLex (r.tsStart, id)
  else none

/-! ## The table -/

/-- Rows with the ids that `AUTOINCREMENT` gave them. -/
structure CallLog where
  rows : List CallRecord
  nextId : Int
  assigned : ∀ r ∈ rows, ∃ id, r.id = some id ∧ id < nextId
  nodup : (rows.map (·.id)).Nodup

def CallLog.empty : CallLog where
  rows := []
  nextId := 1
  assigned := by simp
  nodup := by simp

/-- Insert one record under the next id. -/
def CallLog.insert (log : CallLog) (r : CallRecord) : CallLog where
  rows := log.rows ++ [{ r with id := some log.nextId }]
  nextId := log.nextId + 1
  assigned := by
    intro r' hr'
    obtain hr' | hr' := List.mem_append.1 hr'
    · obtain ⟨id, hid, hlt⟩ := log.assigned r' hr'
      exact ⟨id, hid, by omega⟩
    · rw [List.mem_singleton.1 hr']
      exact ⟨log.nextId, rfl, by omega⟩
  nodup := by
    rw [List.map_append, List.nodup_append]
    refine ⟨log.nodup, List.nodup_singleton _, fun id hid id' hid' heq => ?_⟩
    obtain ⟨r', hr', rfl⟩ := List.mem_map.1 hid
    obtain ⟨id₀, hid₀, hlt⟩ := log.assigned r' hr'
    rw [heq, List.mem_singleton.1 hid'] at hid₀
    obtain rfl : log.nextId = id₀ := Option.some.inj hid₀
    exact absurd hlt (lt_irrefl _)

def CallLog.insertBatch (log : CallLog) (records : List CallRecord) : CallLog :=
  records.foldl CallLog.insert log

/-! ## Paging -/

/-- A reader that follows the cursors. `present` is what the table held at the first page. -/
structure PagingState where
  log : CallLog
  present : List CallRecord
  pages : List (List CallRecord)
  cursor : Option RowKey
  finished : Bool

inductive PagingAction where
  | insertBatch (records : List CallRecord)
  | nextPage

variable (filter : QueryFilter) (limit : Int)

def paging : System PagingState PagingAction where
  init s := s.present = s.log.rows ∧ s.pages = [] ∧ s.cursor = none ∧ s.finished = false
  step s
    | .insertBatch records => some { s with log := s.log.insertBatch records }
    | .nextPage =>
      if s.finished then none
      else
        let page := query s.log.rows filter limit s.cursor
        let next := nextCallsCursor limit page
        some { s with pages := s.pages ++ [page], cursor := next, finished := next.isNone }

/-! ## Filters -/

/-- The texts a filter value without NUL characters selects are those that contain it, letter case
aside. -/
theorem sqlLike_likeContains {s : String} (hs : Char.ofNat 0 ∉ s.toList) (text : String) :
    sqlLike (likeContains s) text = true ↔
      s.toList.map foldAscii <:+: (cText text).map foldAscii := by
  have hpattern : cText (likeContains s) = '%' :: (literal s.toList ++ ['%']) := by
    rw [cText, likeContains, String.toList_ofList, List.takeWhile_eq_self_iff]
    intro c hc
    rw [decide_eq_true_eq]
    rintro rfl
    simp only [List.mem_cons, List.mem_append, literal, List.mem_flatMap, List.not_mem_nil,
      or_false] at hc
    obtain hc | ⟨d, hd, hc⟩ | hc := hc
    · exact absurd hc (by decide)
    · split at hc
      · simp only [List.mem_cons, List.not_mem_nil, or_false] at hc
        obtain hc | rfl := hc
        · exact absurd hc (by decide)
        · exact hs hd
      · rw [List.mem_singleton.1 hc] at hs
        exact hs hd
    · exact absurd hc (by decide)
  rw [sqlLike, hpattern, likeMatch_contains]

theorem selects_percent : sqlLike (likeContains "5%") "at 5%" = true :=
  (sqlLike_likeContains (by decide) _).2 ⟨"at ".toList, [], by decide⟩

/-! ## Every run of the reader -/

theorem insertBatch_rows (log : CallLog) (records : List CallRecord) :
    log.rows ⊆ (log.insertBatch records).rows := by
  induction records generalizing log with
  | nil => exact List.Subset.refl _
  | cons r records ih =>
    exact List.Subset.trans (List.subset_append_left log.rows _) (ih (log.insert r))

theorem rowKey_nodup (log : CallLog) : (log.rows.map rowKey).Nodup := by
  refine List.Nodup.of_map (fun k : RowKey => (ofLex k).2) ?_
  rw [List.map_map]
  have hid : ∀ r ∈ log.rows, ((fun k : RowKey => (ofLex k).2) ∘ rowKey) r = (r.id.getD 0) := fun _ _ => rfl
  rw [List.map_congr_left hid]
  have hids := log.nodup
  rw [List.Nodup, List.pairwise_map] at hids ⊢
  refine hids.imp_of_mem fun {a b} ha hb hne heq => hne ?_
  obtain ⟨id, hid, -⟩ := log.assigned a ha
  obtain ⟨id', hid', -⟩ := log.assigned b hb
  rw [hid, hid'] at heq ⊢
  exact congrArg some heq

/-- The rows of the table that a filter selects have distinct keys. -/
theorem selected_nodup (log : CallLog) :
    ((log.rows.filter filter.selects).map rowKey).Nodup :=
  (rowKey_nodup log).sublist (List.filter_sublist.map rowKey)

variable {filter limit}

theorem query_eq_page (hlimit : 1 ≤ limit) (rows : List CallRecord) (cursor : Option RowKey) :
    query rows filter limit cursor = page rowKey limit.toNat cursor (rows.filter filter.selects) := by
  unfold query sqlLimit
  rw [if_neg (by omega)]
  rfl

theorem nextCallsCursor_eq (hlimit : 1 ≤ limit) {page : List CallRecord}
    (hids : ∀ r ∈ page, ∃ id, r.id = some id) :
    nextCallsCursor limit page = nextCursor rowKey limit.toNat page := by
  unfold nextCallsCursor nextCursor
  have hlength : (page.length : Int) ≥ limit ↔ limit.toNat ≤ page.length := by omega
  simp only [hlength]
  split
  · cases hlast : page.getLast? with
    | none => rfl
    | some r =>
      obtain ⟨id, hid⟩ := hids r (List.mem_of_getLast? hlast)
      simp [rowKey, hid]
  · rfl

/-- What a reader has been given so far. -/
def PagingState.delivered (s : PagingState) : List CallRecord := s.pages.flatten

variable (filter limit) in
structure PagingInv (s : PagingState) : Prop where
  present : s.present ⊆ s.log.rows
  presentKeys : (s.present.map rowKey).Nodup
  delivery : Delivery rowKey (s.present.filter filter.selects) (s.log.rows.filter filter.selects)
    s.delivered s.cursor s.finished
  full : s.finished = false → s.delivered.length = s.pages.length * limit.toNat

theorem pagingInv_init {s : PagingState} (h : (paging filter limit).init s) :
    PagingInv filter limit s := by
  obtain ⟨hpresent, hpages, hcursor, hfinished⟩ := h
  have hdelivered : s.delivered = [] := by rw [PagingState.delivered, hpages, List.flatten_nil]
  refine ⟨hpresent ▸ List.Subset.refl _, hpresent ▸ rowKey_nodup s.log, ?_, fun _ => ?_⟩
  · rw [hdelivered, hcursor, hfinished]
    exact Delivery.start
  · rw [hdelivered, hpages]
    simp

theorem pagingInv_step (hlimit : 1 ≤ limit) {s s' : PagingState} {a : PagingAction}
    (h : PagingInv filter limit s) (hst : (paging filter limit).step s a = some s') :
    PagingInv filter limit s' := by
  cases a with
  | insertBatch records =>
    cases hst
    have hgrow := insertBatch_rows s.log records
    exact ⟨List.Subset.trans h.present hgrow, h.presentKeys,
      h.delivery.grow fun r hr => List.mem_filter.2
        ⟨hgrow (List.mem_of_mem_filter hr), List.of_mem_filter hr⟩, h.full⟩
  | nextPage =>
    simp only [paging] at hst
    split at hst
    · cases hst
    · next hfinished =>
      cases hst
      have hopen : s.finished = false := by simpa using hfinished
      have hdelivery := h.delivery
      rw [hopen] at hdelivery
      have hids : ∀ r ∈ query s.log.rows filter limit s.cursor, ∃ id, r.id = some id := by
        intro r hr
        rw [query_eq_page hlimit] at hr
        obtain ⟨id, hid, -⟩ := s.log.assigned r (List.mem_of_mem_filter (isBelow_of_mem_page hr).1)
        exact ⟨id, hid⟩
      have hsub : s.present.filter filter.selects ⊆ s.log.rows.filter filter.selects := fun r hr =>
        List.mem_filter.2 ⟨h.present (List.mem_of_mem_filter hr), List.of_mem_filter hr⟩
      have hnext := hdelivery.next (n := limit.toNat) (by omega) (selected_nodup filter s.log) hsub
      rw [← query_eq_page hlimit] at hnext
      refine ⟨h.present, h.presentKeys, ?_, fun hfull => ?_⟩
      · rw [nextCallsCursor_eq hlimit hids]
        show Delivery rowKey _ _ (s.pages ++ [_]).flatten _ _
        rw [List.flatten_append, List.flatten_singleton]
        exact hnext
      · -- The page filled the limit, or there would be no cursor.
        have hlen : (query s.log.rows filter limit s.cursor).length = limit.toNat := by
          have hle : (query s.log.rows filter limit s.cursor).length ≤ limit.toNat := by
            rw [query_eq_page hlimit]
            exact List.length_take_le _ _
          have hge : limit.toNat ≤ (query s.log.rows filter limit s.cursor).length := by
            dsimp only at hfull
            rw [nextCallsCursor_eq hlimit hids, nextCursor] at hfull
            split at hfull
            · next hge => exact hge
            · cases hfull
          omega
        show (s.pages ++ [_]).flatten.length = (s.pages ++ [_]).length * _
        rw [List.flatten_append, List.flatten_singleton, List.length_append, List.length_append, hlen,
          Nat.add_mul]
        have := h.full hopen
        rw [PagingState.delivered] at this
        simp [this]

theorem pagingInv_reachable (hlimit : 1 ≤ limit) {s : PagingState}
    (h : (paging filter limit).Reachable s) : PagingInv filter limit s :=
  h.invariant (fun _ => pagingInv_init) fun _ _ _ hinv _ hst => pagingInv_step hlimit hinv hst

variable (filter limit) in
/-- What following the cursors delivers. -/
structure PagingExact (s : PagingState) : Prop where
  /-- In order, and no row twice. -/
  strict : s.delivered.Pairwise fun a b => rowKey b < rowKey a
  /-- Only rows of the table that the filter selects. -/
  stored : ∀ r ∈ s.delivered, r ∈ s.log.rows ∧ filter.selects r = true
  /-- At the end, the rows that were there at the first page, without exception. -/
  complete : s.finished = true →
    (s.delivered.filter fun r => r ∈ s.present) = descending rowKey (s.present.filter filter.selects)
  /-- At the end, with nothing inserted, these and no others. -/
  exact : s.finished = true → s.log.rows = s.present →
    s.delivered = descending rowKey (s.present.filter filter.selects)
  /-- Until the end every page is full, so it comes after as many pages as the rows can fill. -/
  progress : s.finished = false →
    s.pages.length * limit.toNat ≤ (s.log.rows.filter filter.selects).length

/-- **Paging is exact**, for every table, filter and page size, whatever is inserted meanwhile. -/
theorem keyset_paging_exact (hlimit : 1 ≤ limit) {s : PagingState}
    (h : (paging filter limit).Reachable s) : PagingExact filter limit s := by
  obtain ⟨hpresent, hkeys, hdelivery, hfull⟩ := pagingInv_reachable hlimit h
  have hselected : ((s.present.filter filter.selects).map rowKey).Nodup :=
    hkeys.sublist (List.filter_sublist.map rowKey)
  have hcomplete : s.finished = true →
      (s.delivered.filter fun r => r ∈ s.present.filter filter.selects) =
        descending rowKey (s.present.filter filter.selects) := by
    intro hfinished
    rw [hfinished] at hdelivery
    exact hdelivery.exact hselected
  have hin : ∀ r ∈ s.delivered, (r ∈ s.present.filter filter.selects ↔ r ∈ s.present) := by
    intro r hr
    rw [List.mem_filter]
    exact ⟨And.left, fun hmem => ⟨hmem, List.of_mem_filter (hdelivery.stored r hr)⟩⟩
  refine ⟨hdelivery.strict, fun r hr => List.mem_filter.1 (hdelivery.stored r hr),
    fun hfinished => ?_, fun hfinished hsame => ?_, fun hopen => ?_⟩
  · rw [← hcomplete hfinished]
    exact List.filter_congr fun r hr => by simp only [hin r hr]
  · rw [← hcomplete hfinished, List.filter_eq_self.2]
    intro r hr
    rw [decide_eq_true_eq, ← hsame]
    exact hdelivery.stored r hr
  · rw [← hfull hopen]
    have hnodup : s.delivered.Nodup := hdelivery.strict.imp fun hlt heq => by
      subst heq
      exact lt_irrefl _ hlt
    exact (List.subperm_of_subset hnodup fun r hr => hdelivery.stored r hr).length_le

/-- Three calls, two of them at one time, one of another server. -/
def threeCalls : CallLog := CallLog.empty.insertBatch [
  { serverName := some "A_b", tool := "a__t", tsStart := 7 },
  { serverName := some "axb", tool := "a__t", tsStart := 8 },
  { serverName := some "a_B", tool := "a__u", tsStart := 7 }]

/-- Pages of one row, and a call that comes late but started before the others. -/
def interruptedReader : List PagingAction := [
  .nextPage,
  .insertBatch [{ serverName := some "a_b", tool := "a__v", tsStart := 3 }],
  .nextPage, .nextPage, .nextPage]

theorem interruptedReader_exact :
    ∃ s, (paging { serverName := some "a_b" } 1).run ⟨threeCalls, threeCalls.rows, [], none, false⟩
        interruptedReader = some s ∧
      s.delivered.map (·.id) = [some 3, some 1, some 4] ∧
      PagingExact { serverName := some "a_b" } 1 s := by
  have hrun : (paging { serverName := some "a_b" } 1).run
      ⟨threeCalls, threeCalls.rows, [], none, false⟩ interruptedReader = some _ := rfl
  refine ⟨_, hrun, rfl, keyset_paging_exact (by decide) (System.Reachable.run ?_ hrun)⟩
  exact System.Reachable.init ⟨rfl, rfl, rfl, rfl⟩

end EndaraRelay
