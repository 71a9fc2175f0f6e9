import Mathlib.Algebra.Group.Nat.Defs
import EndaraRelay.Http.Adapter
import EndaraRelay.Lib.Lru

/-!
# The store of session identities

`SessionIdentityStore` of `server.rs`, the cache of what an `initialize` said about its client. Two
maps are linked by sequence stamps: `entries` from a session id to the identity, the dialect and the
stamp of the last use, and `recency` from a stamp to the session id.

**The invariant** (`Stamped`). For a list of entries, the most recently used first: `entries` finds
what the list finds, `recency` finds a key under its stamp and nothing else, and the stamps descend
along the list.

**Theorem (`sessionIdentities_refine_lru`).** The store answers as the bounded map of `Lib.Lru` does,
as long as the stamps do not run out. So it holds no more than its capacity, and finds for a session
id what was inserted last until as many others as it has room for have been touched.

- Removing a key takes it out of the list (`Stamped.remove`), the eviction loop cuts the list
  (`Stamped.evict`), and a new stamp puts a key in front (`Stamped.push`).
-/

namespace EndaraRelay

open Verif
open Http (ProtocolVersion)

/-- What a client says about itself. -/
structure ClientIdentity where
  name : Option String
  version : Option String
  userAgent : Option String
  origin : Option String
deriving DecidableEq

/-- `session_id → (identity, dialect, stamp)`, and `stamp → session_id`. -/
structure SessionIdentityStore where
  capacity : Nat
  nextSeq : Nat
  entries : Table String (ClientIdentity × ProtocolVersion × Nat)
  recency : Table Nat String

/-- `saturating_add(1)` on a `u64`. -/
def saturatingSucc (n : Nat) : Nat := min (n + 1) (2 ^ 64 - 1)

/-- `BTreeMap::pop_first`: the entry of the smallest key. -/
def popFirst {β : Type} (t : Table Nat β) : Option ((Nat × β) × Table Nat β) :=
  match t.keys.min? with
  | none => none
  | some k => (t.lookup k).map fun b => ((k, b), t.erase k)

theorem popFirst_length {β : Type} {t rest : Table Nat β} {e : Nat × β}
    (h : popFirst t = some (e, rest)) : rest.keys.length < t.keys.length := by
  unfold popFirst at h
  split at h
  · cases h
  · next k hk =>
    obtain ⟨b, -, hb⟩ := Option.map_eq_some_iff.mp h
    cases hb
    have hmem : k ∈ t.keys := List.min?_mem hk
    rw [AList.keys_erase, List.length_erase_of_mem hmem]
    have hpos := List.length_pos_of_mem hmem
    omega

namespace SessionIdentityStore

def withCapacity (capacity : Nat) : SessionIdentityStore := ⟨max capacity 1, 0, ∅, ∅⟩

def len (s : SessionIdentityStore) : Nat := s.entries.keys.length

/-- `while entries.len() >= capacity`: the least recently used entries go. -/
def evict (s : SessionIdentityStore) : SessionIdentityStore :=
  if s.capacity ≤ s.len then
    match _h : popFirst s.recency with
    | none => s
    | some ((_, evictKey), recency) =>
      evict { s with recency, entries := s.entries.erase evictKey }
  else s
termination_by s.recency.keys.length
decreasing_by exact popFirst_length _h

/-- Forget an entry that is about to be replaced; its identity is handed back. -/
def remove (s : SessionIdentityStore) (sessionId : String) :
    SessionIdentityStore × Option ClientIdentity :=
  match s.entries.lookup sessionId with
  | some (prevId, _, prevSeq) =>
    ({ s with entries := s.entries.erase sessionId, recency := s.recency.erase prevSeq }, some prevId)
  | none => (s, none)

/-- Insert or refresh an entry with the dialect of the inbound peer. -/
def insertWithDialect (s : SessionIdentityStore) (sessionId : String) (identity : ClientIdentity)
    (dialect : ProtocolVersion) : SessionIdentityStore × Option ClientIdentity :=
  let newSeq := s.nextSeq
  let s := { s with nextSeq := saturatingSucc s.nextSeq }
  let (s, previous) := s.remove sessionId
  let s := s.evict
  ({ s with
      recency := s.recency.insert newSeq sessionId
      entries := s.entries.insert sessionId (identity, dialect, newSeq) },
    previous)

/-- Insert or refresh an entry with the default dialect. -/
def insert (s : SessionIdentityStore) (sessionId : String) (identity : ClientIdentity) :
    SessionIdentityStore × Option ClientIdentity :=
  s.insertWithDialect sessionId identity .v20250326

/-- The identity of a session, which becomes the most recently used one. -/
def get (s : SessionIdentityStore) (sessionId : String) :
    SessionIdentityStore × Option ClientIdentity :=
  match s.entries.lookup sessionId with
  | none => (s, none)
  | some (identity, dialect, prevSeq) =>
    ({ s with
        nextSeq := saturatingSucc s.nextSeq
        recency := (s.recency.erase prevSeq).insert s.nextSeq sessionId
        entries := s.entries.insert sessionId (identity, dialect, s.nextSeq) },
      some identity)

/-- The dialect of a session; its recency stays as it is. -/
def dialect (s : SessionIdentityStore) (sessionId : String) : Option ProtocolVersion :=
  (s.entries.lookup sessionId).map fun e => e.2.1

end SessionIdentityStore

/-! ## Lists of entries behind a store -/

/-- What a session id stands for. -/
abbrev Session := ClientIdentity × ProtocolVersion

/-- The store holds the entries of the list, with stamps below `n` that descend along it. -/
structure Stamped (n : Nat) (stamp : String → Nat) (s : SessionIdentityStore)
    (es : List (String × Session)) : Prop where
  nodup : (es.map Prod.fst).Nodup
  entries : ∀ id, s.entries.lookup id = (es.lookup id).map fun v => (v.1, v.2, stamp id)
  recency : ∀ seq id, s.recency.lookup seq = some id ↔ id ∈ es.map Prod.fst ∧ stamp id = seq
  order : (es.map Prod.fst).Pairwise fun a b => stamp b < stamp a
  fresh : ∀ id ∈ es.map Prod.fst, stamp id < n

variable {id : String} {v : Session}

namespace Stamped

variable {n : Nat} {stamp : String → Nat} {s : SessionIdentityStore} {es : List (String × Session)}

theorem mem_keys (h : Stamped n stamp s es) (id : String) :
    id ∈ s.entries.keys ↔ id ∈ es.map Prod.fst := by
  rw [← AList.mem_keys, ← AList.lookup_isSome, h.entries, Option.isSome_map, List.lookup_isSome_iff]
  simp

theorem len_eq (h : Stamped n stamp s es) : s.len = es.length := by
  have hperm : s.entries.keys.Perm (es.map Prod.fst) :=
    (List.perm_ext_iff_of_nodup s.entries.nodupKeys h.nodup).mpr h.mem_keys
  rw [SessionIdentityStore.len, hperm.length_eq, List.length_map]

theorem stamp_inj (h : Stamped n stamp s es) {a b : String} (ha : a ∈ es.map Prod.fst)
    (hb : b ∈ es.map Prod.fst) (hab : stamp a = stamp b) : a = b := by
  have hsome := (h.recency (stamp b) a).mpr ⟨ha, hab⟩
  rw [(h.recency (stamp b) b).mpr ⟨hb, rfl⟩] at hsome
  exact (Option.some.inj hsome).symm

/-- Taking a key out of both maps takes it out of the list. -/
theorem erase (h : Stamped n stamp s es) (hid : id ∈ es.map Prod.fst) :
    Stamped n stamp { s with entries := s.entries.erase id, recency := s.recency.erase (stamp id) }
      (es.filter fun e => e.1 ≠ id) := by
  have hkeys : (es.filter fun e => e.1 ≠ id).map Prod.fst =
      (es.map Prod.fst).filter fun x => x ≠ id := by
    rw [List.filter_map]
    rfl
  have hsub : ((es.map Prod.fst).filter fun x => x ≠ id).Sublist (es.map Prod.fst) :=
    List.filter_sublist
  refine ⟨?_, ?_, ?_, ?_, ?_⟩
  · rw [hkeys]
    exact h.nodup.sublist hsub
  · intro x
    by_cases hx : x = id
    · subst hx
      have hnone : (es.filter fun e => e.1 ≠ x).lookup x = none := by
        rw [List.lookup_eq_none_iff]
        intro e he
        obtain ⟨-, hne⟩ := List.mem_filter.mp he
        have hne : e.1 ≠ x := by simpa using hne
        simpa using hne.symm
      rw [hnone, AList.lookup_erase]
      rfl
    · have hkeep : ∀ e ∈ es, e.1 = x → decide (e.1 ≠ id) = true := by
        rintro e - rfl
        simpa using hx
      rw [lookup_filter hkeep, AList.lookup_erase_ne hx, h.entries]
  · intro seq x
    rw [hkeys, List.mem_filter]
    by_cases hseq : seq = stamp id
    · subst hseq
      rw [AList.lookup_erase]
      constructor
      · nofun
      · rintro ⟨⟨hx, hne⟩, hstamp⟩
        exact absurd (h.stamp_inj hx hid hstamp) (by simpa using hne)
    · rw [AList.lookup_erase_ne hseq, h.recency]
      constructor
      · rintro ⟨hx, rfl⟩
        have hne : x ≠ id := fun hne => hseq (congrArg stamp hne)
        exact ⟨⟨hx, by simpa using hne⟩, rfl⟩
      · rintro ⟨⟨hx, -⟩, hstamp⟩
        exact ⟨hx, hstamp⟩
  · rw [hkeys]
    exact h.order.sublist hsub
  · intro x hx
    rw [hkeys] at hx
    exact h.fresh x (hsub.subset hx)

theorem filter_eq_self {es : List (String × Session)} (hid : id ∉ es.map Prod.fst) :
    (es.filter fun e => e.1 ≠ id) = es := by
  rw [List.filter_eq_self]
  intro e he
  simpa using fun hne : e.1 = id => hid (hne ▸ List.mem_map_of_mem he)

theorem remove (h : Stamped n stamp s es) (id : String) :
    Stamped n stamp (s.remove id).1 (es.filter fun e => e.1 ≠ id) ∧
      (s.remove id).2 = (es.lookup id).map Prod.fst ∧ (s.remove id).1.capacity = s.capacity ∧
      (s.remove id).1.nextSeq = s.nextSeq := by
  have hlookup := h.entries id
  rw [SessionIdentityStore.remove]
  cases hid : es.lookup id with
  | none =>
    rw [hid] at hlookup
    have hnot : id ∉ es.map Prod.fst := by
      rw [List.mem_map]
      rintro ⟨e, he, rfl⟩
      simpa using List.lookup_eq_none_iff.mp hid e he
    rw [hlookup, filter_eq_self hnot]
    exact ⟨h, rfl, rfl, rfl⟩
  | some v =>
    rw [hid] at hlookup
    rw [hlookup]
    exact ⟨h.erase (List.mem_map_of_mem (mem_of_lookup hid)), rfl, rfl, rfl⟩

/-- The smallest stamp is that of the last entry. -/
theorem popFirst_recency {k : String} (h : Stamped n stamp s (es ++ [(k, v)])) :
    popFirst s.recency = some ((stamp k, k), s.recency.erase (stamp k)) := by
  have hk : k ∈ (es ++ [(k, v)]).map Prod.fst := by simp
  have hfind := (h.recency (stamp k) k).mpr ⟨hk, rfl⟩
  have hmin : s.recency.keys.min? = some (stamp k) := by
    rw [List.min?_eq_some_iff]
    refine ⟨AList.mem_keys.mp (AList.lookup_isSome.mp (by simp [hfind])), fun seq hseq => ?_⟩
    have hsome := AList.lookup_isSome.mpr (AList.mem_keys.mpr hseq)
    obtain ⟨x, hx⟩ := Option.isSome_iff_exists.mp hsome
    obtain ⟨hmem, rfl⟩ := (h.recency seq x).mp hx
    rw [List.map_append, List.mem_append] at hmem
    obtain hfront | hlast := hmem
    · have horder := h.order
      rw [List.map_append, List.pairwise_append] at horder
      exact (horder.2.2 x hfront k (by simp)).le
    · obtain rfl : x = k := by simpa using hlast
      exact le_rfl
  simp only [popFirst, hmin, hfind, Option.map_some]

/-- The eviction loop leaves room for one entry. -/
theorem evict (h : Stamped n stamp s es) (hcap : 0 < s.capacity) :
    Stamped n stamp s.evict (es.take (s.capacity - 1)) ∧ s.evict.capacity = s.capacity ∧
      s.evict.nextSeq = s.nextSeq := by
  induction es using List.reverseRecOn generalizing s with
  | nil =>
    have hroom : ¬ s.capacity ≤ s.len := by
      rw [h.len_eq, List.length_nil]
      omega
    rw [SessionIdentityStore.evict, if_neg hroom, List.take_nil]
    exact ⟨h, rfl, rfl⟩
  | append_singleton es e ih =>
    obtain ⟨k, v⟩ := e
    have hlen : s.len = es.length + 1 := by
      rw [h.len_eq, List.length_append, List.length_singleton]
    by_cases hfull : s.capacity ≤ s.len
    · have hk : k ∈ (es ++ [(k, v)]).map Prod.fst := by simp
      have hrest := h.erase hk
      have hnot : k ∉ es.map Prod.fst := by
        have hnd := h.nodup
        rw [List.map_append, List.nodup_append] at hnd
        exact fun hk => hnd.2.2 k hk k (by simp) rfl
      have hcut : ((es ++ [(k, v)]).filter fun e => e.1 ≠ k) = es := by
        rw [List.filter_append, filter_eq_self hnot]
        simp
      rw [hcut] at hrest
      rw [SessionIdentityStore.evict, if_pos hfull, List.take_append_of_le_length (by omega)]
      split
      · next hnone =>
        rw [h.popFirst_recency] at hnone
        cases hnone
      · next key recency hsome =>
        rw [h.popFirst_recency] at hsome
        cases hsome
        exact ih hrest hcap
    · have hroom : (es ++ [(k, v)]).length ≤ s.capacity - 1 := by
        rw [List.length_append, List.length_singleton]
        omega
      rw [SessionIdentityStore.evict, if_neg hfull, List.take_of_length_le hroom]
      exact ⟨h, rfl, rfl⟩

theorem push (h : Stamped n stamp s es) (hid : id ∉ es.map Prod.fst) (v : Session) :
    Stamped (n + 1) (fun x => if x = id then n else stamp x)
      { s with
        recency := s.recency.insert n id
        entries := s.entries.insert id (v.1, v.2, n) } ((id, v) :: es) := by
  have hne : ∀ x ∈ es.map Prod.fst, x ≠ id := fun x hx hxid => hid (hxid ▸ hx)
  refine ⟨?_, ?_, ?_, ?_, ?_⟩
  · rw [List.map_cons, List.nodup_cons]
    exact ⟨hid, h.nodup⟩
  · intro x
    by_cases hx : x = id
    · subst hx
      rw [AList.lookup_insert, List.lookup_cons_self]
      simp
    · have hbeq : (x == id) = false := beq_false_of_ne hx
      rw [AList.lookup_insert_ne hx, List.lookup_cons, hbeq, h.entries]
      simp [hx]
  · intro seq x
    rw [List.map_cons, List.mem_cons]
    by_cases hseq : seq = n
    · subst hseq
      rw [AList.lookup_insert]
      constructor
      · intro hx
        obtain rfl : id = x := Option.some.inj hx
        exact ⟨.inl rfl, if_pos rfl⟩
      · rintro ⟨rfl | hx, hstamp⟩
        · rfl
        · rw [if_neg (hne x hx)] at hstamp
          exact absurd hstamp (h.fresh x hx).ne
    · rw [AList.lookup_insert_ne hseq, h.recency]
      constructor
      · rintro ⟨hx, rfl⟩
        exact ⟨.inr hx, if_neg (hne x hx)⟩
      · rintro ⟨rfl | hx, hstamp⟩
        · rw [if_pos rfl] at hstamp
          exact absurd hstamp.symm hseq
        · rw [if_neg (hne x hx)] at hstamp
          exact ⟨hx, hstamp⟩
  · rw [List.map_cons, List.pairwise_cons]
    constructor
    · intro x hx
      rw [if_pos rfl, if_neg (hne x hx)]
      exact h.fresh x hx
    · refine h.order.imp_of_mem ?_
      intro a b ha hb hab
      rw [if_neg (hne a ha), if_neg (hne b hb)]
      exact hab
  · intro x hx
    rw [List.map_cons, List.mem_cons] at hx
    obtain rfl | hx := hx
    · rw [if_pos rfl]
      exact Nat.lt_succ_self n
    · rw [if_neg (hne x hx)]
      exact Nat.lt_succ_of_lt (h.fresh x hx)

/-- Only what the two maps find matters. -/
theorem of_lookup (h : Stamped n stamp s es) {t : SessionIdentityStore}
    (hentries : ∀ id, t.entries.lookup id = s.entries.lookup id)
    (hrecency : ∀ seq, t.recency.lookup seq = s.recency.lookup seq) : Stamped n stamp t es := by
  refine ⟨h.nodup, fun id => ?_, fun seq id => ?_, h.order, h.fresh⟩
  · rw [hentries, h.entries]
  · rw [hrecency, h.recency]

end Stamped

/-! ## One operation -/

/-- The operations of the store; `dialect` reads without use. -/
inductive SessionOp where
  | insert (sessionId : String) (identity : ClientIdentity)
  | insertWithDialect (sessionId : String) (identity : ClientIdentity) (dialect : ProtocolVersion)
  | get (sessionId : String)
  | dialect (sessionId : String)

inductive SessionAnswer where
  | identity (identity : Option ClientIdentity)
  | dialect (dialect : Option ProtocolVersion)
deriving DecidableEq

def SessionIdentityStore.step (s : SessionIdentityStore) :
    SessionOp → SessionIdentityStore × SessionAnswer
  | .insert id identity => ((s.insert id identity).1, .identity (s.insert id identity).2)
  | .insertWithDialect id identity dialect =>
    ((s.insertWithDialect id identity dialect).1,
      .identity (s.insertWithDialect id identity dialect).2)
  | .get id => ((s.get id).1, .identity (s.get id).2)
  | .dialect id => (s, .dialect (s.dialect id))

def SessionIdentityStore.run (s : SessionIdentityStore) (ops : List SessionOp) :
    SessionIdentityStore :=
  ops.foldl (fun s op => (s.step op).1) s

def SessionIdentityStore.answers (s : SessionIdentityStore) : List SessionOp → List SessionAnswer
  | [] => []
  | op :: ops => (s.step op).2 :: answers (s.step op).1 ops

/-- What the operation asks of a bounded map. -/
def SessionOp.use : SessionOp → Use String Session
  | .insert id identity => .insert id (identity, .v20250326)
  | .insertWithDialect id identity version => .insert id (identity, version)
  | .get id => .get id
  | .dialect id => .peek id

/-- What the operation tells of the answer of a bounded map. -/
def SessionOp.answer (op : SessionOp) (found : Option Session) : SessionAnswer :=
  match op with
  | .dialect _ => .dialect (found.map Prod.snd)
  | _ => .identity (found.map Prod.fst)

/-- The store holds what the bounded map holds. -/
structure Refines {cap : Nat} (s : SessionIdentityStore) (l : Lru String Session cap) : Prop where
  capacity : s.capacity = cap
  stamped : ∃ stamp, Stamped s.nextSeq stamp s l.entries

namespace Refines

variable {cap : Nat} {s : SessionIdentityStore} {l : Lru String Session cap}

theorem lookup (h : Refines s l) (id : String) :
    (s.entries.lookup id).map (fun e => (e.1, e.2.1)) = l.lookup id := by
  obtain ⟨stamp, hs⟩ := h.stamped
  rw [hs.entries, Option.map_map, Lru.lookup]
  exact Option.map_id'

theorem len_le (h : Refines s l) : s.len ≤ cap := by
  obtain ⟨stamp, hs⟩ := h.stamped
  rw [hs.len_eq]
  exact l.length_le

theorem bijection (h : Refines s l) (seq : Nat) (id : String) :
    s.recency.lookup seq = some id ↔
      ∃ identity dialect, s.entries.lookup id = some (identity, dialect, seq) := by
  obtain ⟨stamp, hs⟩ := h.stamped
  rw [hs.recency, hs.entries, ← hs.mem_keys, ← AList.mem_keys, ← AList.lookup_isSome, hs.entries]
  cases l.entries.lookup id with
  | none => simp
  | some v => simp

theorem saturatingSucc_eq {n : Nat} (h : n < 2 ^ 64 - 1) : saturatingSucc n = n + 1 :=
  Nat.min_eq_left h

theorem insertWithDialect (h : Refines s l) (hcap : 0 < cap) (hseq : s.nextSeq < 2 ^ 64 - 1)
    (id : String) (identity : ClientIdentity) (dialect : ProtocolVersion) :
    Refines (s.insertWithDialect id identity dialect).1 (l.insert id (identity, dialect)) ∧
      (s.insertWithDialect id identity dialect).2 = (l.lookup id).map Prod.fst ∧
      (s.insertWithDialect id identity dialect).1.nextSeq = s.nextSeq + 1 := by
  obtain ⟨stamp, hs⟩ := h.stamped
  obtain rfl := h.capacity
  -- the stamp is drawn first, then the old entry goes, then the least recently used ones
  have hdrawn : Stamped s.nextSeq stamp { s with nextSeq := saturatingSucc s.nextSeq } l.entries :=
    hs.of_lookup (fun _ => rfl) (fun _ => rfl)
  obtain ⟨hremoved, hprevious, hcapacity, hnext⟩ := hdrawn.remove id
  obtain ⟨hevicted, hcapacity', hnext'⟩ := hremoved.evict (by rw [hcapacity]; exact hcap)
  rw [hcapacity] at hevicted hcapacity'
  rw [hnext] at hnext'
  have hnew : id ∉ ((l.entries.filter fun e => e.1 ≠ id).take (s.capacity - 1)).map Prod.fst := by
    intro hid
    obtain ⟨e, he, rfl⟩ := List.mem_map.mp hid
    have hne := (List.mem_filter.mp (List.mem_of_mem_take he)).2
    simp at hne
  have hpush := hevicted.push hnew (identity, dialect)
  have hseq' : (s.insertWithDialect id identity dialect).1.nextSeq = s.nextSeq + 1 :=
    hnext'.trans (saturatingSucc_eq hseq)
  refine ⟨⟨hcapacity', fun x => if x = id then s.nextSeq else stamp x, ?_⟩, hprevious, hseq'⟩
  rw [hseq', Lru.entries_insert hcap]
  exact hpush

/-- A missed `get` leaves the store alone. -/
theorem get_miss (h : Refines s l) (hid : l.lookup id = none) : s.get id = (s, none) := by
  have hlookup := h.lookup id
  rw [hid, Option.map_eq_none_iff] at hlookup
  rw [SessionIdentityStore.get, hlookup]

/-- What a `get` and a `dialect` tell is what the bounded map holds. -/
theorem get_answer (h : Refines s l) (id : String) : (s.get id).2 = (l.lookup id).map Prod.fst := by
  rw [← h.lookup, SessionIdentityStore.get]
  cases s.entries.lookup id with
  | none => rfl
  | some e => rfl

theorem dialect_answer (h : Refines s l) (id : String) : s.dialect id = (l.lookup id).map Prod.snd := by
  rw [SessionIdentityStore.dialect, ← h.lookup, Option.map_map]
  rfl

theorem get_hit (h : Refines s l) (hseq : s.nextSeq < 2 ^ 64 - 1) (hid : l.lookup id = some v) :
    Refines (s.get id).1 (l.insert id v) ∧ (s.get id).2 = some v.1 ∧
      (s.get id).1.nextSeq = s.nextSeq + 1 := by
  obtain ⟨stamp, hs⟩ := h.stamped
  have hmem : id ∈ l.entries.map Prod.fst := List.mem_map_of_mem (mem_of_lookup hid)
  have hfound : s.entries.lookup id = some (v.1, v.2, stamp id) := by
    rw [hs.entries, ← Lru.lookup, hid]
    rfl
  have hnew : id ∉ (l.entries.filter fun e => e.1 ≠ id).map Prod.fst := by
    intro h
    obtain ⟨e, he, rfl⟩ := List.mem_map.mp h
    have hne := (List.mem_filter.mp he).2
    simp at hne
  have hpush := (hs.erase hmem).push hnew v
  have hget : s.get id = ({ s with
      nextSeq := saturatingSucc s.nextSeq
      recency := (s.recency.erase (stamp id)).insert s.nextSeq id
      entries := s.entries.insert id (v.1, v.2, s.nextSeq) }, some v.1) := by
    simp only [SessionIdentityStore.get, hfound]
  rw [hget]
  refine ⟨⟨h.capacity, fun x => if x = id then s.nextSeq else stamp x, ?_⟩, rfl,
    saturatingSucc_eq hseq⟩
  rw [saturatingSucc_eq hseq, Lru.entries_insert_of_mem hmem]
  refine hpush.of_lookup (fun x => ?_) (fun _ => rfl)
  by_cases hx : x = id
  · rw [hx, AList.lookup_insert, AList.lookup_insert]
  · rw [AList.lookup_insert_ne hx, AList.lookup_insert_ne hx, AList.lookup_erase_ne hx]

theorem step (h : Refines s l) (hcap : 0 < cap) (hseq : s.nextSeq < 2 ^ 64 - 1) (op : SessionOp) :
    Refines (s.step op).1 (l.step op.use).1 ∧ (s.step op).2 = op.answer (l.step op.use).2 ∧
      (s.step op).1.nextSeq ≤ s.nextSeq + 1 := by
  cases op with
  | insert id identity =>
    obtain ⟨hnext, hanswer, hseq'⟩ := h.insertWithDialect hcap hseq id identity .v20250326
    exact ⟨hnext, congrArg _ hanswer, hseq'.le⟩
  | insertWithDialect id identity dialect =>
    obtain ⟨hnext, hanswer, hseq'⟩ := h.insertWithDialect hcap hseq id identity dialect
    exact ⟨hnext, congrArg _ hanswer, hseq'.le⟩
  | get id =>
    rw [SessionIdentityStore.step, SessionOp.use, Lru.step]
    cases hid : l.lookup id with
    | none =>
      rw [h.get_miss hid]
      exact ⟨h, rfl, Nat.le_succ _⟩
    | some v =>
      obtain ⟨hnext, hanswer, hseq'⟩ := h.get_hit hseq hid
      exact ⟨hnext, congrArg _ hanswer, hseq'.le⟩
  | dialect id =>
    exact ⟨h, congrArg _ (h.dialect_answer id), Nat.le_succ _⟩

end Refines

/-! ## Whole runs -/

theorem refines_withCapacity (capacity : Nat) :
    Refines (SessionIdentityStore.withCapacity capacity)
      (Lru.empty : Lru String Session (max capacity 1)) := by
  refine ⟨rfl, fun _ => 0, List.nodup_nil, fun _ => rfl, fun seq id => ?_, List.Pairwise.nil, ?_⟩
  · simp [SessionIdentityStore.withCapacity, Lru.empty]
  · simp [Lru.empty]

/-- A run stays in step with the bounded map as long as there are stamps. -/
theorem Refines.run {cap : Nat} {s : SessionIdentityStore} {l : Lru String Session cap}
    (h : Refines s l) (hcap : 0 < cap) (ops : List SessionOp)
    (hseq : s.nextSeq + ops.length < 2 ^ 64) :
    Refines (s.run ops) (l.run (ops.map SessionOp.use)) ∧
      s.answers ops = List.zipWith SessionOp.answer ops (l.answers (ops.map SessionOp.use)) := by
  induction ops generalizing s l with
  | nil => exact ⟨h, rfl⟩
  | cons op ops ih =>
    rw [List.length_cons] at hseq
    obtain ⟨hnext, hanswer, hle⟩ := h.step hcap (by omega) op
    obtain ⟨hrun, hanswers⟩ := ih hnext (by omega)
    refine ⟨hrun, ?_⟩
    rw [SessionIdentityStore.answers, hanswer, hanswers, List.map_cons, Lru.answers,
      List.zipWith_cons_cons]

/-- **The store is a bounded map**: its answers are those of the reference, it holds no more than its
capacity, it finds what was inserted last for an id until so many others have been touched since its
last use, and its two maps stay inverse to each other. -/
theorem sessionIdentities_refine_lru (capacity : Nat) (ops : List SessionOp)
    (hops : ops.length < 2 ^ 64) :
    let cap := max capacity 1
    let uses := ops.map SessionOp.use
    let s := (SessionIdentityStore.withCapacity capacity).run ops
    (SessionIdentityStore.withCapacity capacity).answers ops =
        List.zipWith SessionOp.answer ops ((Lru.empty : Lru String Session cap).answers uses) ∧
      s.len ≤ cap ∧
      (∀ id, ((s.get id).2, s.dialect id) =
        let found := if (touchedSince cap uses.reverse id).card < cap
          then lastInserted id uses.reverse else none
        (found.map Prod.fst, found.map Prod.snd)) ∧
      ∀ seq id, s.recency.lookup seq = some id ↔
        ∃ identity dialect, s.entries.lookup id = some (identity, dialect, seq) := by
  intro cap uses s
  have hcap : 0 < cap := Nat.le_max_right _ _
  obtain ⟨hrun, hanswers⟩ := (refines_withCapacity capacity).run hcap ops
    (by rw [SessionIdentityStore.withCapacity, Nat.zero_add]; exact hops)
  refine ⟨hanswers, hrun.len_le, fun id => ?_, hrun.bijection⟩
  rw [hrun.get_answer, hrun.dialect_answer, Lru.run_empty, Lru.lookup_after]

/-- A capacity of zero keeps one session, the one inserted last. -/
theorem sessionIdentities_one_slot :
    let one : ClientIdentity := ⟨some "one", none, none, none⟩
    let two : ClientIdentity := ⟨some "two", none, none, none⟩
    let s := (SessionIdentityStore.withCapacity 0).run
      [.insert "a" one, .insertWithDialect "b" two .v20260728]
    (s.get "a").2 = none ∧ (s.get "b").2 = some two ∧ s.dialect "b" = some .v20260728 := by
  intro one two s
  obtain ⟨-, -, hfound, -⟩ := sessionIdentities_refine_lru 0
    [.insert "a" one, .insertWithDialect "b" two .v20260728] (by decide)
  have ha := (hfound "a").trans (c := (none, none)) (by decide)
  have hb := (hfound "b").trans (c := (some two, some .v20260728)) (by decide)
  exact ⟨congrArg Prod.fst ha, congrArg Prod.fst hb, congrArg Prod.snd hb⟩

end EndaraRelay
