import EndaraRelay.Lib.Table
import EndaraRelay.Lib.Transition
import EndaraRelay.Lib.Utf8

/-!
# The payload store

`observability/payloads.rs`: requests and responses are kept in memory under the id of the request,
for a window of time and within a budget of bytes. The map holds the entries, a queue their order of
insertion, and a counter their bytes.

A step of the system is one operation, under the lock, at an instant that is not before the one of the
last step. `inserted` is history: what was last inserted under an id.

**Theorem (`payload_store_bounds`).** In every reachable state the three structures agree, the budget
is kept unless a single entry is held, and every stored payload is the inserted one, or the part of it
before a character boundary within the limit. `get` returns no entry older than the window
(`get_within_window`).
-/

namespace EndaraRelay

open Verif Verif.Utf8

/-- A captured pair of request and response. -/
structure StoredPayloads where
  request : String
  response : String
  requestTruncated : Bool
  responseTruncated : Bool
  streamed : Bool
  capturedAtMs : Int
deriving DecidableEq, Repr

structure PayloadEntry where
  payloads : StoredPayloads
  instant : Nat
  size : Nat
deriving DecidableEq, Repr

/-- What the lock protects. -/
structure PayloadBuffer where
  entries : Table String PayloadEntry
  order : List String
  totalBytes : Nat

/-- The settings of a store. -/
structure PayloadLimits where
  window : Nat
  budgetBytes : Nat
  maxPayloadBytes : Nat

/-- `str::len`. -/
def strLen (s : String) : Nat := byteLength s.toList

/-- Cut a serialized payload at the last character boundary within the limit. -/
def truncatePayload (maxPayloadBytes : Nat) (s : String) : String × Bool :=
  if strLen s ≤ maxPayloadBytes then (s, false)
  else (String.ofList (takeBytes s.toList (floorCharBoundary s.toList maxPayloadBytes)), true)

/-- The bytes a removal gives back. -/
def sizeAt (entries : Table String PayloadEntry) (uid : String) : Nat :=
  match entries.lookup uid with
  | some old => old.size
  | none => 0

def isExpired (window now : Nat) (entries : Table String PayloadEntry) (front : String) : Bool :=
  match entries.lookup front with
  | some e => decide (now - e.instant > window)
  | none => true

/-- Drop entries from the front of the queue while they are older than the window. -/
def evictExpired (window now : Nat) :
    List String → Table String PayloadEntry → Nat → PayloadBuffer
  | [], entries, totalBytes => ⟨entries, [], totalBytes⟩
  | front :: order, entries, totalBytes =>
    if isExpired window now entries front then
      evictExpired window now order (entries.erase front) (totalBytes - sizeAt entries front)
    else ⟨entries, front :: order, totalBytes⟩

/-- Drop entries from the front of the queue while the budget is exceeded, but not the last one. -/
def evictOverBudget (budgetBytes : Nat) :
    List String → Table String PayloadEntry → Nat → PayloadBuffer
  | [], entries, totalBytes => ⟨entries, [], totalBytes⟩
  | key :: order, entries, totalBytes =>
    if totalBytes > budgetBytes ∧ order.length + 1 > 1 then
      evictOverBudget budgetBytes order (entries.erase key) (totalBytes - sizeAt entries key)
    else ⟨entries, key :: order, totalBytes⟩

namespace PayloadBuffer

def empty : PayloadBuffer := ⟨∅, [], 0⟩

def evictExpired (limits : PayloadLimits) (now : Nat) (b : PayloadBuffer) : PayloadBuffer :=
  EndaraRelay.evictExpired limits.window now b.order b.entries b.totalBytes

def evictOverBudget (limits : PayloadLimits) (b : PayloadBuffer) : PayloadBuffer :=
  EndaraRelay.evictOverBudget limits.budgetBytes b.order b.entries b.totalBytes

/-- Take an entry out of the map and the counter. -/
def removeEntry (b : PayloadBuffer) (uid : String) : PayloadBuffer :=
  ⟨b.entries.erase uid, b.order, b.totalBytes - sizeAt b.entries uid⟩

/-- The entry `insertAt` makes of two serialized payloads. -/
def newEntry (limits : PayloadLimits) (uid request response : String) (streamed : Bool)
    (capturedAtMs : Int) (instant : Nat) : PayloadEntry :=
  let (request, requestTruncated) := truncatePayload limits.maxPayloadBytes request
  let (response, responseTruncated) := truncatePayload limits.maxPayloadBytes response
  { payloads := ⟨request, response, requestTruncated, responseTruncated, streamed, capturedAtMs⟩
    instant := instant
    size := strLen request + strLen response + strLen uid }

/-- Insert an entry, in place of the one that has its id, and evict. -/
def insertAt (limits : PayloadLimits) (uid : String) (entry : PayloadEntry) (b : PayloadBuffer) :
    PayloadBuffer :=
  let b := if (b.entries.lookup uid).isSome then
      { b.removeEntry uid with order := b.order.filter (· ≠ uid) } else b
  let b : PayloadBuffer :=
    ⟨b.entries.insert uid entry, b.order ++ [uid], b.totalBytes + entry.size⟩
  (b.evictExpired limits entry.instant).evictOverBudget limits

/-- Fetch the payloads of an id, evicting expired entries first. -/
def get (limits : PayloadLimits) (now : Nat) (uid : String) (b : PayloadBuffer) :
    Option StoredPayloads × PayloadBuffer :=
  let b := b.evictExpired limits now
  ((b.entries.lookup uid).map (·.payloads), b)

/-- Drop every entry whose id passes. -/
def removeWhere (predicate : String → Bool) (b : PayloadBuffer) : PayloadBuffer :=
  let b := (b.entries.keys.filter predicate).foldl removeEntry b
  { b with order := b.order.filter fun uid => (b.entries.lookup uid).isSome }

end PayloadBuffer

/-! ## The system -/

variable {Value : Type}

inductive PayloadOp (Value : Type) where
  | insert (uid : String) (request response : Value) (streamed : Bool) (capturedAtMs : Int)
  | get (uid : String)
  | sweepExpired
  | purgeAll
  | removeWhere (predicate : String → Bool)

/-- An insertion: history. -/
structure Inserted (Value : Type) where
  request : Value
  response : Value
  streamed : Bool
  capturedAtMs : Int
  instant : Nat

structure PayloadState (Value : Type) where
  buffer : PayloadBuffer
  now : Nat
  inserted : String → Option (Inserted Value)

variable (serialize : Value → String) (limits : PayloadLimits)

/-- The buffer after an operation at an instant. -/
def PayloadBuffer.after (instant : Nat) (op : PayloadOp Value) (b : PayloadBuffer) : PayloadBuffer :=
  match op with
  | .insert uid request response streamed capturedAtMs =>
    b.insertAt limits uid
      (newEntry limits uid (serialize request) (serialize response) streamed capturedAtMs instant)
  | .get uid => (b.get limits instant uid).2
  | .sweepExpired => b.evictExpired limits instant
  | .purgeAll => .empty
  | .removeWhere predicate => b.removeWhere predicate

/-- What was inserted last under each id, after an operation. -/
def insertedAfter (instant : Nat) (op : PayloadOp Value) (inserted : String → Option (Inserted Value)) :
    String → Option (Inserted Value) :=
  match op with
  | .insert uid request response streamed capturedAtMs =>
    Function.update inserted uid (some ⟨request, response, streamed, capturedAtMs, instant⟩)
  | _ => inserted

def payloadStore : System (PayloadState Value) (Nat × PayloadOp Value) where
  init s := s.buffer = .empty ∧ s.inserted = fun _ => none
  step s a :=
    if s.now ≤ a.1 then
      some ⟨s.buffer.after serialize limits a.1 a.2, a.1, insertedAfter a.1 a.2 s.inserted⟩
    else none

/-! ## Map, queue and counter -/

variable {b : PayloadBuffer} {order : List String} {entries : Table String PayloadEntry}
  {totalBytes : Nat} {s : PayloadState Value}

namespace PayloadBuffer

/-- The queue lists every entry once and in the order of the instants, and the counter counts the
entries. -/
structure Accounted (b : PayloadBuffer) : Prop where
  nodup : b.order.Nodup
  listed : ∀ uid ∈ b.entries, uid ∈ b.order
  total : b.totalBytes = b.entries.sumOf (·.size)
  sorted : b.order.Pairwise fun u v => ∀ e f, b.entries.lookup u = some e →
    b.entries.lookup v = some f → e.instant ≤ f.instant

/-- The queue lists nothing else. -/
structure Consistent (b : PayloadBuffer) : Prop extends b.Accounted where
  held : ∀ uid ∈ b.order, uid ∈ b.entries

/-- What an operation that only drops entries does. -/
structure Drops (b b' : PayloadBuffer) : Prop where
  entries : ∀ uid e, b'.entries.lookup uid = some e → b.entries.lookup uid = some e
  total : b'.totalBytes ≤ b.totalBytes
  order : b'.order.Sublist b.order

theorem Drops.refl (b : PayloadBuffer) : b.Drops b := ⟨fun _ _ h => h, Nat.le_refl _, List.Sublist.refl _⟩

theorem Drops.trans {b b' b'' : PayloadBuffer} (h : b.Drops b') (h' : b'.Drops b'') : b.Drops b'' where
  entries := fun uid e he => h.entries uid e (h'.entries uid e he)
  total := Nat.le_trans h'.total h.total
  order := h'.order.trans h.order

theorem sumOf_erase_size (entries : Table String PayloadEntry) (k : String) :
    entries.sumOf (·.size) - sizeAt entries k = (entries.erase k).sumOf (·.size) := by
  unfold sizeAt
  cases hk : entries.lookup k with
  | some e =>
    rw [AList.sumOf_erase _ hk]
    exact Nat.add_sub_cancel_left _ _
  | none =>
    have hkeys : k ∉ entries.entries.keys := fun hmem => AList.lookup_eq_none.1 hk hmem
    show _ - 0 = (List.kerase k entries.entries).foldr _ 0
    rw [List.kerase_of_notMem_keys hkeys]
    rfl

theorem Accounted.removeEntry (h : b.Accounted) (uid : String) :
    (b.removeEntry uid).Accounted where
  nodup := h.nodup
  listed := fun u hu => h.listed u (AList.mem_erase.1 hu).2
  total := by
    show b.totalBytes - _ = _
    rw [h.total]
    exact sumOf_erase_size b.entries uid
  sorted := h.sorted.imp fun hle e f he hf =>
    hle e f (AList.lookup_of_erase he).2 (AList.lookup_of_erase hf).2

theorem drops_removeEntry (b : PayloadBuffer) (uid : String) : b.Drops (b.removeEntry uid) where
  entries := fun _ _ h => (AList.lookup_of_erase h).2
  total := Nat.sub_le _ _
  order := List.Sublist.refl _

theorem Accounted.retain (h : b.Accounted) {p : String → Bool}
    (hp : ∀ uid ∈ b.order, p uid = true ↔ uid ∈ b.entries) :
    PayloadBuffer.Consistent { b with order := b.order.filter p } where
  nodup := h.nodup.filter _
  listed := fun uid huid => List.mem_filter.2 ⟨h.listed uid huid, (hp uid (h.listed uid huid)).2 huid⟩
  total := h.total
  sorted := h.sorted.filter _
  held := fun uid huid => (hp uid (List.mem_of_mem_filter huid)).1 (List.of_mem_filter huid)

/-- Taking the front of the queue out of all three. -/
theorem Consistent.tail {front : String}
    (h : PayloadBuffer.Consistent ⟨entries, front :: order, totalBytes⟩) :
    PayloadBuffer.Consistent ⟨entries.erase front, order, totalBytes - sizeAt entries front⟩ := by
  have hacc := h.toAccounted.removeEntry front
  have hfront : front ∉ order := (List.nodup_cons.1 h.nodup).1
  refine ⟨⟨(List.nodup_cons.1 h.nodup).2, fun uid huid => ?_, hacc.total,
    (List.pairwise_cons.1 hacc.sorted).2⟩, fun uid huid => ?_⟩
  · obtain ⟨hne, huid⟩ := AList.mem_erase.1 huid
    exact (List.mem_cons.1 (h.listed uid huid)).resolve_left hne
  · have hne : uid ≠ front := fun heq => hfront (heq ▸ huid)
    exact AList.mem_erase.2 ⟨hne, h.held uid (List.mem_cons_of_mem _ huid)⟩

theorem drops_tail (front : String) (order : List String) (entries : Table String PayloadEntry)
    (totalBytes : Nat) : PayloadBuffer.Drops ⟨entries, front :: order, totalBytes⟩
      ⟨entries.erase front, order, totalBytes - sizeAt entries front⟩ where
  entries := fun _ _ h => (AList.lookup_of_erase h).2
  total := Nat.sub_le _ _
  order := List.sublist_cons_self _ _

/-! ### Eviction -/

theorem Consistent.evictExpired_loop {window now : Nat}
    (h : PayloadBuffer.Consistent ⟨entries, order, totalBytes⟩) :
    (EndaraRelay.evictExpired window now order entries totalBytes).Consistent ∧
      PayloadBuffer.Drops ⟨entries, order, totalBytes⟩
        (EndaraRelay.evictExpired window now order entries totalBytes) ∧
      ∀ uid e, (EndaraRelay.evictExpired window now order entries totalBytes).entries.lookup uid =
        some e → now - e.instant ≤ window := by
  induction order generalizing entries totalBytes with
  | nil =>
    refine ⟨h, Drops.refl _, fun uid e he => ?_⟩
    have huid := h.listed uid (AList.lookup_isSome.1 (he ▸ rfl))
    cases huid
  | cons front order ih =>
    rw [EndaraRelay.evictExpired]
    split
    · obtain ⟨hcons, hdrops, hfresh⟩ := ih h.tail
      exact ⟨hcons, (drops_tail front order entries totalBytes).trans hdrops, hfresh⟩
    · next hexpired =>
      -- The front is not expired, and no entry is older than the front.
      refine ⟨h, Drops.refl _, fun uid e he => ?_⟩
      obtain ⟨e₀, he₀⟩ := Option.isSome_iff_exists.1
        (AList.lookup_isSome.2 (h.held front List.mem_cons_self))
      have hfront : now - e₀.instant ≤ window := by
        rw [isExpired, he₀] at hexpired
        simpa using hexpired
      have hle : e₀.instant ≤ e.instant := by
        obtain rfl | hmem := List.mem_cons.1 (h.listed uid (AList.lookup_isSome.1 (he ▸ rfl)))
        · obtain rfl : e₀ = e := Option.some.inj (he₀.symm.trans he)
          exact Nat.le_refl _
        · exact (List.pairwise_cons.1 h.sorted).1 uid hmem e₀ e he₀ he
      omega

theorem Consistent.evictOverBudget_loop {budgetBytes : Nat}
    (h : PayloadBuffer.Consistent ⟨entries, order, totalBytes⟩) :
    (EndaraRelay.evictOverBudget budgetBytes order entries totalBytes).Consistent ∧
      PayloadBuffer.Drops ⟨entries, order, totalBytes⟩
        (EndaraRelay.evictOverBudget budgetBytes order entries totalBytes) ∧
      ((EndaraRelay.evictOverBudget budgetBytes order entries totalBytes).totalBytes ≤ budgetBytes ∨
        (EndaraRelay.evictOverBudget budgetBytes order entries totalBytes).order.length ≤ 1) := by
  induction order generalizing entries totalBytes with
  | nil => exact ⟨h, Drops.refl _, Or.inr (Nat.zero_le 1)⟩
  | cons key order ih =>
    rw [EndaraRelay.evictOverBudget]
    split
    · obtain ⟨hcons, hdrops, hbudget⟩ := ih h.tail
      exact ⟨hcons, (drops_tail key order entries totalBytes).trans hdrops, hbudget⟩
    · next hstop =>
      refine ⟨h, Drops.refl _, ?_⟩
      show totalBytes ≤ budgetBytes ∨ order.length + 1 ≤ 1
      omega

variable {b : PayloadBuffer} (limits : PayloadLimits)

theorem Consistent.evictExpired (h : b.Consistent) (now : Nat) :
    (b.evictExpired limits now).Consistent ∧ b.Drops (b.evictExpired limits now) ∧
      ∀ uid e, (b.evictExpired limits now).entries.lookup uid = some e →
        now - e.instant ≤ limits.window :=
  Consistent.evictExpired_loop h

theorem Consistent.evictOverBudget (h : b.Consistent) :
    (b.evictOverBudget limits).Consistent ∧ b.Drops (b.evictOverBudget limits) ∧
      ((b.evictOverBudget limits).totalBytes ≤ limits.budgetBytes ∨
        (b.evictOverBudget limits).order.length ≤ 1) :=
  Consistent.evictOverBudget_loop h

/-! ### Insertion and removal -/

/-- Queue up an entry that is not older than the others. -/
theorem Consistent.push (h : b.Consistent) {uid : String} {entry : PayloadEntry}
    (hnew : uid ∉ b.entries) (hlast : ∀ u e, b.entries.lookup u = some e → e.instant ≤ entry.instant) :
    PayloadBuffer.Consistent
      ⟨b.entries.insert uid entry, b.order ++ [uid], b.totalBytes + entry.size⟩ := by
  have hother {u : String} (hu : u ∈ b.order) : u ≠ uid := fun heq => hnew (heq ▸ h.held u hu)
  refine ⟨⟨?_, fun u hu => ?_, ?_, ?_⟩, fun u hu => ?_⟩
  · exact List.nodup_append.2 ⟨h.nodup, List.nodup_singleton uid, fun u hu v hv =>
      (List.mem_singleton.1 hv) ▸ hother hu⟩
  · obtain rfl | hu := (AList.mem_insert b.entries).1 hu
    · exact List.mem_append_right _ List.mem_cons_self
    · exact List.mem_append_left _ (h.listed u hu)
  · show b.totalBytes + entry.size = _
    rw [AList.sumOf_insert _ hnew, h.total]
    exact Nat.add_comm _ _
  · refine List.pairwise_append.2 ⟨h.sorted.imp_of_mem fun hu hv hle e f he hf => ?_,
      List.pairwise_singleton _ _, fun u hu v hv e f he hf => ?_⟩
    · rw [AList.lookup_insert_ne (hother hu)] at he
      rw [AList.lookup_insert_ne (hother hv)] at hf
      exact hle e f he hf
    · obtain rfl := List.mem_singleton.1 hv
      rw [AList.lookup_insert_ne (hother hu)] at he
      rw [AList.lookup_insert] at hf
      cases hf
      exact hlast u e he
  · refine (AList.mem_insert b.entries).2 ?_
    obtain hu | hu := List.mem_append.1 hu
    · exact Or.inr (h.held u hu)
    · exact Or.inl (List.mem_singleton.1 hu)

/-- The buffer before the new entry is queued: the one that has its id is gone. -/
theorem Consistent.clear (h : b.Consistent) (uid : String) :
    ∃ b', b' = (if (b.entries.lookup uid).isSome then
        { b.removeEntry uid with order := b.order.filter (· ≠ uid) } else b) ∧
      b'.Consistent ∧ b.Drops b' ∧ uid ∉ b'.entries := by
  refine ⟨_, rfl, ?_⟩
  by_cases huid : (b.entries.lookup uid).isSome = true
  · rw [if_pos huid]
    refine ⟨(h.toAccounted.removeEntry uid).retain fun u hu => ?_, ?_, ?_⟩
    · show _ ↔ u ∈ b.entries.erase uid
      rw [AList.mem_erase, decide_eq_true_eq]
      exact ⟨fun hne => ⟨hne, h.held u hu⟩, And.left⟩
    · exact ⟨(drops_removeEntry b uid).entries, (drops_removeEntry b uid).total,
        List.filter_sublist⟩
    · exact fun hmem => (AList.mem_erase.1 hmem).1 rfl
  · rw [if_neg huid]
    exact ⟨h, Drops.refl b, fun hmem => huid (AList.lookup_isSome.2 hmem)⟩

/-- **Insertion.** Every entry afterwards was there before or is the new one. -/
theorem Consistent.insertAt (h : b.Consistent) (uid : String) {entry : PayloadEntry}
    (hlast : ∀ u e, b.entries.lookup u = some e → e.instant ≤ entry.instant) :
    (b.insertAt limits uid entry).Consistent ∧
      (∀ u e, (b.insertAt limits uid entry).entries.lookup u = some e →
        if u = uid then e = entry else b.entries.lookup u = some e) ∧
      ((b.insertAt limits uid entry).totalBytes ≤ limits.budgetBytes ∨
        (b.insertAt limits uid entry).order.length ≤ 1) := by
  obtain ⟨b', hb', hcons, hdrops, hnew⟩ := h.clear uid
  have hpush := hcons.push hnew fun u e he => hlast u e (hdrops.entries u e he)
  obtain ⟨hexpired, hdrops₁, -⟩ := hpush.evictExpired limits entry.instant
  obtain ⟨hbudget, hdrops₂, hbound⟩ := hexpired.evictOverBudget limits
  unfold PayloadBuffer.insertAt
  rw [← hb']
  refine ⟨hbudget, fun u e he => ?_, hbound⟩
  have hlookup := hdrops₁.entries u e (hdrops₂.entries u e he)
  dsimp only at hlookup
  by_cases hu : u = uid
  · rw [if_pos hu]
    rw [hu, AList.lookup_insert] at hlookup
    exact (Option.some.inj hlookup).symm
  · rw [if_neg hu]
    rw [AList.lookup_insert_ne hu] at hlookup
    exact hdrops.entries u e hlookup

theorem foldl_removeEntry (uids : List String) (h : b.Accounted) :
    (uids.foldl PayloadBuffer.removeEntry b).Accounted ∧
      b.Drops (uids.foldl PayloadBuffer.removeEntry b) := by
  induction uids generalizing b with
  | nil => exact ⟨h, Drops.refl b⟩
  | cons uid uids ih =>
    obtain ⟨hacc, hdrops⟩ := ih (h.removeEntry uid)
    exact ⟨hacc, (drops_removeEntry b uid).trans hdrops⟩

theorem Consistent.removeWhere (h : b.Consistent) (predicate : String → Bool) :
    (b.removeWhere predicate).Consistent ∧ b.Drops (b.removeWhere predicate) := by
  obtain ⟨hacc, hdrops⟩ := foldl_removeEntry (b.entries.keys.filter predicate) h.toAccounted
  refine ⟨hacc.retain fun uid _ => AList.lookup_isSome, hdrops.entries, hdrops.total, ?_⟩
  exact List.filter_sublist.trans hdrops.order

end PayloadBuffer

/-! ## Truncation -/

/-- A stored payload: the serialized one, or the part before a character boundary within the limit. -/
structure IsCutOf (maxPayloadBytes : Nat) (payload stored : String) (truncated : Bool) : Prop where
  isPrefix : stored.toList <+: payload.toList
  limit : strLen stored ≤ maxPayloadBytes
  boundary : isCharBoundary payload.toList (strLen stored) = true
  whole : truncated = false → stored = payload
  tooLong : truncated = true → maxPayloadBytes < strLen payload

theorem isCutOf_truncatePayload (maxPayloadBytes : Nat) (s : String) :
    IsCutOf maxPayloadBytes s (truncatePayload maxPayloadBytes s).1
      (truncatePayload maxPayloadBytes s).2 := by
  unfold truncatePayload
  split
  · next hfits =>
    exact ⟨List.prefix_rfl, hfits, isCharBoundary_of_isPrefix List.prefix_rfl, fun _ => rfl, nofun⟩
  · next hlong =>
    have hcut : strLen (String.ofList (takeBytes s.toList (floorCharBoundary s.toList maxPayloadBytes))) =
        floorCharBoundary s.toList maxPayloadBytes := by
      rw [strLen, String.toList_ofList, byteLength_takeBytes (isCharBoundary_floor _ _)]
    refine ⟨?_, ?_, ?_, nofun, fun _ => Nat.lt_of_not_le hlong⟩
    · rw [String.toList_ofList]
      exact takeBytes_isPrefix _ _
    · rw [hcut]
      exact floorCharBoundary_le _ _
    · rw [hcut]
      exact isCharBoundary_floor _ _

/-! ## Every run -/

/-- The entry that an insertion stored. -/
def Inserted.entry (uid : String) (ins : Inserted Value) : PayloadEntry :=
  PayloadBuffer.newEntry limits uid (serialize ins.request) (serialize ins.response) ins.streamed
    ins.capturedAtMs ins.instant

structure StoreInv (s : PayloadState Value) : Prop where
  consistent : s.buffer.Consistent
  budget : s.buffer.totalBytes ≤ limits.budgetBytes ∨ s.buffer.order.length ≤ 1
  stored : ∀ uid e, s.buffer.entries.lookup uid = some e →
    ∃ ins, s.inserted uid = some ins ∧ ins.instant ≤ s.now ∧ e = ins.entry serialize limits uid

theorem storeInv_init (h : (payloadStore serialize limits).init s) : StoreInv serialize limits s := by
  obtain ⟨hbuffer, -⟩ := h
  constructor
  · rw [hbuffer]
    exact ⟨⟨List.nodup_nil, nofun, rfl, List.Pairwise.nil⟩, nofun⟩
  · rw [hbuffer]
    exact Or.inl (Nat.zero_le _)
  · intro uid e he
    rw [hbuffer] at he
    cases he

/-- An operation that only drops entries. -/
theorem StoreInv.drops {instant : Nat} (h : StoreInv serialize limits s) (hnow : s.now ≤ instant)
    (hcons : b.Consistent) (hdrops : s.buffer.Drops b) :
    StoreInv serialize limits ⟨b, instant, s.inserted⟩ where
  consistent := hcons
  budget := h.budget.imp (Nat.le_trans hdrops.total) (Nat.le_trans hdrops.order.length_le)
  stored := fun uid e he => by
    obtain ⟨ins, hins, hpast, heq⟩ := h.stored uid e (hdrops.entries uid e he)
    exact ⟨ins, hins, Nat.le_trans hpast hnow, heq⟩

theorem StoreInv.insert (h : StoreInv serialize limits s) (uid : String) (ins : Inserted Value)
    (hnow : s.now ≤ ins.instant) :
    StoreInv serialize limits
      ⟨s.buffer.insertAt limits uid (ins.entry serialize limits uid), ins.instant,
        Function.update s.inserted uid (some ins)⟩ := by
  have hlast : ∀ u e, s.buffer.entries.lookup u = some e →
      e.instant ≤ (ins.entry serialize limits uid).instant := by
    intro u e he
    obtain ⟨ins', -, hpast, rfl⟩ := h.stored u e he
    exact Nat.le_trans hpast hnow
  obtain ⟨hcons, hentries, hbudget⟩ := h.consistent.insertAt limits uid hlast
  refine ⟨hcons, hbudget, fun u e he => ?_⟩
  have hcase := hentries u e he
  show ∃ ins', Function.update s.inserted uid (some ins) u = some ins' ∧ _
  by_cases hu : u = uid
  · rw [if_pos hu] at hcase
    subst hu
    exact ⟨ins, Function.update_self .., Nat.le_refl _, hcase⟩
  · rw [if_neg hu] at hcase
    obtain ⟨ins', hins', hpast, heq⟩ := h.stored u e hcase
    refine ⟨ins', ?_, Nat.le_trans hpast hnow, heq⟩
    rw [Function.update_of_ne hu]
    exact hins'

theorem storeInv_step {s s' : PayloadState Value} {a : Nat × PayloadOp Value}
    (h : StoreInv serialize limits s) (hst : (payloadStore serialize limits).step s a = some s') :
    StoreInv serialize limits s' := by
  obtain ⟨instant, op⟩ := a
  simp only [payloadStore, Option.ite_none_right_eq_some, Option.some.injEq] at hst
  obtain ⟨hnow, rfl⟩ := hst
  cases op with
  | insert uid request response streamed capturedAtMs =>
    exact h.insert serialize limits uid ⟨request, response, streamed, capturedAtMs, instant⟩ hnow
  | get uid =>
    obtain ⟨hcons, hdrops, -⟩ := h.consistent.evictExpired limits instant
    exact h.drops serialize limits hnow hcons hdrops
  | sweepExpired =>
    obtain ⟨hcons, hdrops, -⟩ := h.consistent.evictExpired limits instant
    exact h.drops serialize limits hnow hcons hdrops
  | purgeAll =>
    exact ⟨⟨⟨List.nodup_nil, nofun, rfl, List.Pairwise.nil⟩, nofun⟩, Or.inl (Nat.zero_le _), nofun⟩
  | removeWhere predicate =>
    obtain ⟨hcons, hdrops⟩ := h.consistent.removeWhere predicate
    exact h.drops serialize limits hnow hcons hdrops

theorem storeInv_reachable (h : (payloadStore serialize limits).Reachable s) :
    StoreInv serialize limits s :=
  h.invariant (fun _ => storeInv_init serialize limits)
    fun _ _ _ hinv _ hst => storeInv_step serialize limits hinv hst

/-- What was stored of an insertion. -/
structure StoredAs (ins : Inserted Value) (payloads : StoredPayloads) : Prop where
  request : IsCutOf limits.maxPayloadBytes (serialize ins.request) payloads.request
    payloads.requestTruncated
  response : IsCutOf limits.maxPayloadBytes (serialize ins.response) payloads.response
    payloads.responseTruncated

theorem storedAs_entry (uid : String) (ins : Inserted Value) :
    StoredAs serialize limits ins (ins.entry serialize limits uid).payloads :=
  ⟨isCutOf_truncatePayload _ _, isCutOf_truncatePayload _ _⟩

/-- What holds of the store at every moment. -/
structure StoreBounds (s : PayloadState Value) : Prop where
  order_nodup : s.buffer.order.Nodup
  order_perm : s.buffer.order.Perm s.buffer.entries.keys
  total_bytes : s.buffer.totalBytes = s.buffer.entries.sumOf (·.size)
  sizes : ∀ uid e, s.buffer.entries.lookup uid = some e →
    e.size = strLen e.payloads.request + strLen e.payloads.response + strLen uid
  budget : s.buffer.totalBytes ≤ limits.budgetBytes ∨ ∃ uid, s.buffer.order = [uid]
  payloads : ∀ uid e, s.buffer.entries.lookup uid = some e →
    ∃ ins, s.inserted uid = some ins ∧ StoredAs serialize limits ins e.payloads
  get_within_window : ∀ instant uid payloads, s.now ≤ instant →
    (s.buffer.get limits instant uid).1 = some payloads →
      ∃ ins, s.inserted uid = some ins ∧ instant - ins.instant ≤ limits.window ∧
        StoredAs serialize limits ins payloads

/-- **Bounds of the payload store**, in every reachable state. -/
theorem payload_store_bounds {s : PayloadState Value}
    (h : (payloadStore serialize limits).Reachable s) : StoreBounds serialize limits s := by
  have hinv := storeInv_reachable serialize limits h
  have hcons := hinv.consistent
  refine ⟨hcons.nodup, ?_, hcons.total, fun uid e he => ?_, ?_, fun uid e he => ?_,
    fun instant uid payloads hnow hget => ?_⟩
  · refine (List.perm_ext_iff_of_nodup hcons.nodup s.buffer.entries.keys_nodup).2 fun uid => ?_
    exact ⟨hcons.held uid, hcons.listed uid⟩
  · obtain ⟨ins, -, -, rfl⟩ := hinv.stored uid e he
    rfl
  · obtain hle | hlen := hinv.budget
    · exact Or.inl hle
    · cases horder : s.buffer.order with
      | nil =>
        -- An empty queue leaves no entry and so no bytes.
        refine Or.inl ?_
        have hkeys : s.buffer.entries.entries = [] := by
          apply List.eq_nil_iff_forall_not_mem.2
          intro e he
          have hmem : e.1 ∈ s.buffer.entries := List.mem_keys_of_mem he
          have := hcons.listed e.1 hmem
          rw [horder] at this
          cases this
        rw [hcons.total, AList.sumOf, hkeys]
        exact Nat.zero_le _
      | cons uid order =>
        rw [horder] at hlen
        obtain rfl : order = [] := List.eq_nil_of_length_eq_zero (by simpa using hlen)
        exact Or.inr ⟨uid, rfl⟩
  · obtain ⟨ins, hins, -, rfl⟩ := hinv.stored uid e he
    exact ⟨ins, hins, storedAs_entry serialize limits uid ins⟩
  · obtain ⟨-, hdrops, hfresh⟩ := hcons.evictExpired limits instant
    obtain ⟨e, he, rfl⟩ := Option.map_eq_some_iff.1 hget
    obtain ⟨ins, hins, -, heq⟩ := hinv.stored uid e (hdrops.entries uid e he)
    have hwindow := hfresh uid e he
    subst heq
    exact ⟨ins, hins, hwindow, storedAs_entry serialize limits uid ins⟩

/-- Two numbers inserted under one id, the second too long, and a third that does not fit the budget
beside it. -/
def threeInsertions : List (Nat × PayloadOp Nat) :=
  [(0, .insert "a" 1 2 false 0), (5, .insert "a" 1234567 2 true 0), (5, .insert "b" 3 4 false 0)]

def smallLimits : PayloadLimits := ⟨10, 6, 4⟩

def emptyStore : PayloadState Nat := ⟨.empty, 0, fun _ => none⟩

theorem threeInsertions_bounds :
    ∃ s, (payloadStore toString smallLimits).run emptyStore threeInsertions = some s ∧
      s.buffer.order = ["b"] ∧ StoreBounds toString smallLimits s := by
  have hrun : (payloadStore toString smallLimits).run emptyStore threeInsertions = some _ := rfl
  refine ⟨_, hrun, rfl, payload_store_bounds toString smallLimits (System.Reachable.run ?_ hrun)⟩
  exact System.Reachable.init ⟨rfl, rfl⟩

end EndaraRelay
