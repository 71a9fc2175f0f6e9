import Mathlib.Data.List.AList
import Mathlib.Data.Finset.Dedup
import EndaraRelay.Lib.Transition
import EndaraRelay.ReloadPaths

/-!
# Rebuilding the profiles

`ProfileRegistry::rebuild` under any number of calls at once. A call compares the new map with the one it
finds and swaps it in under the write lock, in one step. The ticks of the paths that it found changed follow
one by one, and other calls and their ticks come between them.

**The record.** Swaps and ticks are recorded with their call, oldest first. The order in which a map is
iterated is left open.

**Theorem (`rebuild_ticks_affected`).** A call sends no tick before its swap, then at most one for a path, and
in the end exactly the paths that were added, removed, or changed in their endpoints or their
`js_execution`, between the map of the latest swap before it and its own.
-/

namespace EndaraRelay

open Verif

/-! ## The maps -/

/-- What a profile is built into: what its view is restricted to, and its flags. -/
structure ProfileContext where
  config : ProfileSettings
  allowedEndpoints : Finset String
  jsExecution : Bool
  toonOutput : Bool
deriving DecidableEq

def ProfileContext.of (p : ProfileSettings) : ProfileContext where
  config := p
  allowedEndpoints := p.profile.endpoints.toFinset
  jsExecution := p.jsExecution
  toonOutput := p.toonOutput

abbrev ProfileMap := AList fun _ : String => ProfileContext

/-- The map built from a config; the last profile of a path stays. -/
def newMap (profiles : List ProfileSettings) : ProfileMap :=
  profiles.foldl (fun m p => m.insert (toAsciiLowercase p.profile.path) (.of p)) ∅

/-- Whether a profile of the new map was added or mutated. -/
def isDirty (guard : ProfileMap) (path : String) (newCtx : ProfileContext) : Bool :=
  match guard.lookup path with
  | none => true
  | some oldCtx =>
    oldCtx.allowedEndpoints ≠ newCtx.allowedEndpoints || oldCtx.jsExecution != newCtx.jsExecution

/-- The changed paths, with the orders in which the new map and the keys of the old one are iterated. -/
def changedIn (guard new : ProfileMap) (newOrder oldOrder : List String) : List String :=
  (newOrder.filter fun path => (new.lookup path).any (isDirty guard path)) ++
    oldOrder.filter fun path => (new.lookup path).isNone

/-- **What a tick is owed for**: a path that was added or removed, or whose endpoints or `js_execution` are
other than they were. -/
def Affected (old new : ProfileMap) (path : String) : Prop :=
  (old.lookup path = none ∧ (new.lookup path).isSome) ∨ ((old.lookup path).isSome ∧ new.lookup path = none) ∨
    ∃ oldCtx newCtx, old.lookup path = some oldCtx ∧ new.lookup path = some newCtx ∧
      (oldCtx.allowedEndpoints ≠ newCtx.allowedEndpoints ∨ oldCtx.jsExecution ≠ newCtx.jsExecution)

section Changed

variable {old new : ProfileMap} {newOrder oldOrder : List String}
  (hnew : newOrder.Perm new.keys) (hold : oldOrder.Perm old.keys)
include hnew hold

theorem mem_changedIn {path : String} : path ∈ changedIn old new newOrder oldOrder ↔ Affected old new path := by
  rw [changedIn, List.mem_append, List.mem_filter, List.mem_filter, hnew.mem_iff, hold.mem_iff,
    ← AList.mem_keys, ← AList.mem_keys, ← AList.lookup_isSome, ← AList.lookup_isSome]
  unfold Affected isDirty
  cases hold' : old.lookup path with
  | none =>
    cases hnew' : new.lookup path with
    | none => simp
    | some newCtx => simp
  | some oldCtx =>
    cases hnew' : new.lookup path with
    | none => simp
    | some newCtx => simp

theorem changedIn_nodup : (changedIn old new newOrder oldOrder).Nodup := by
  have hnewNodup : newOrder.Nodup := hnew.nodup_iff.2 new.keys_nodup
  have holdNodup : oldOrder.Nodup := hold.nodup_iff.2 old.keys_nodup
  refine List.nodup_append.2 ⟨hnewNodup.filter _, holdNodup.filter _, ?_⟩
  rintro path hkept _ hremoved rfl
  have hnone := (List.mem_filter.1 hremoved).2
  have hsome := (List.mem_filter.1 hkept).2
  rw [Option.isNone_iff_eq_none.1 hnone] at hsome
  cases hsome

end Changed

/-! ## Calls -/

/-- A call of `rebuild`. -/
inductive RebuildPc where
  /-- The new map is built, the write lock comes next. -/
  | swap
  /-- The lock is released, and there are ticks left to send. -/
  | send (changed : List String)

structure RebuildCall where
  profiles : List ProfileSettings
  pc : RebuildPc

inductive RebuildEvent where
  | swapped (call : Nat) (old new : ProfileMap)
  | ticked (call : Nat) (path : String)

def RebuildEvent.call : RebuildEvent → Nat
  | .swapped call _ _ | .ticked call _ => call

/-- The profiles, all calls there were, and the record. -/
structure Rebuilding where
  profiles : ProfileMap
  calls : List RebuildCall
  events : List RebuildEvent

inductive RebuildAction where
  | call (profiles : List ProfileSettings)
  /-- The next step of a call; for its swap, the orders of iteration. -/
  | run (i : Nat) (newOrder oldOrder : List String)

def Rebuilding.step (s : Rebuilding) : RebuildAction → Option Rebuilding
  | .call profiles => some { s with calls := s.calls ++ [⟨profiles, .swap⟩] }
  | .run i newOrder oldOrder =>
    match s.calls[i]? with
    | none => none
    | some ⟨profiles, .swap⟩ =>
      let new := newMap profiles
      if newOrder.Perm new.keys ∧ oldOrder.Perm s.profiles.keys then
        some { profiles := new
               calls := s.calls.set i ⟨profiles, .send (changedIn s.profiles new newOrder oldOrder)⟩
               events := s.events ++ [.swapped i s.profiles new] }
      else none
    | some ⟨_, .send []⟩ => none
    | some ⟨profiles, .send (path :: changed)⟩ =>
      some { s with calls := s.calls.set i ⟨profiles, .send changed⟩
                    events := s.events ++ [.ticked i path] }

def rebuilding : System Rebuilding RebuildAction where
  init s := s = ⟨∅, [], []⟩
  step := Rebuilding.step

theorem Rebuilding.step_cases {s s' : Rebuilding} {a : RebuildAction} (h : s.step a = some s') :
    (∃ profiles, s' = { s with calls := s.calls ++ [⟨profiles, .swap⟩] }) ∨
    (∃ i profiles newOrder oldOrder, s.calls[i]? = some ⟨profiles, .swap⟩ ∧
      newOrder.Perm (newMap profiles).keys ∧ oldOrder.Perm s.profiles.keys ∧
      s' = { profiles := newMap profiles
             calls := s.calls.set i ⟨profiles, .send (changedIn s.profiles (newMap profiles) newOrder oldOrder)⟩
             events := s.events ++ [.swapped i s.profiles (newMap profiles)] }) ∨
    ∃ i profiles path changed, s.calls[i]? = some ⟨profiles, .send (path :: changed)⟩ ∧
      s' = { s with calls := s.calls.set i ⟨profiles, .send changed⟩, events := s.events ++ [.ticked i path] } := by
  cases a with
  | call profiles => exact .inl ⟨profiles, (Option.some.inj h).symm⟩
  | run i newOrder oldOrder =>
    rw [Rebuilding.step] at h
    split at h
    · cases h
    next profiles hi =>
      dsimp only at h
      split at h
      next horder =>
        exact .inr (.inl ⟨i, profiles, newOrder, oldOrder, hi, horder.1, horder.2, (Option.some.inj h).symm⟩)
      · cases h
    · cases h
    next profiles path changed hi => exact .inr (.inr ⟨i, profiles, path, changed, hi, (Option.some.inj h).symm⟩)

/-! ## What a call has told -/

/-- The map that is there after some events. -/
def mapAfter (events : List RebuildEvent) : ProfileMap :=
  events.foldl (fun m e => match e with | .swapped _ _ new => new | .ticked _ _ => m) ∅

def eventsOf (i : Nat) (events : List RebuildEvent) : List RebuildEvent := events.filter fun e => e.call = i

/-- A call that has not swapped has told nothing. After its swap it has ticked some of the affected paths,
and is to tick the others. -/
def RebuildCall.Told (call : RebuildCall) (i : Nat) (events : List RebuildEvent) : Prop :=
  match call.pc with
  | .swap => eventsOf i events = []
  | .send rest => ∃ old ticked, eventsOf i events = .swapped i old (newMap call.profiles) :: ticked.map (.ticked i) ∧
      (ticked ++ rest).Nodup ∧ ∀ path, path ∈ ticked ++ rest ↔ Affected old (newMap call.profiles) path

/-- A swap replaces the map of the latest swap before it. -/
def SwapsInTurn (events : List RebuildEvent) : Prop :=
  ∀ before i old new after, events = before ++ .swapped i old new :: after → old = mapAfter before

structure RebuildInv (s : Rebuilding) : Prop where
  shown : s.profiles = mapAfter s.events
  inTurn : SwapsInTurn s.events
  told : ∀ i (call : RebuildCall), s.calls[i]? = some call → call.Told i s.events
  called : ∀ e ∈ s.events, e.call < s.calls.length

variable {i : Nat} {e : RebuildEvent} {s : Rebuilding}

theorem eventsOf_concat_of_ne (events : List RebuildEvent) (h : e.call ≠ i) :
    eventsOf i (events ++ [e]) = eventsOf i events := by
  rw [eventsOf, List.filter_append, List.filter_cons_of_neg (by simpa using h), List.filter_nil, List.append_nil]
  rfl

theorem eventsOf_concat_self (i : Nat) (events : List RebuildEvent) (h : e.call = i) :
    eventsOf i (events ++ [e]) = eventsOf i events ++ [e] := by
  rw [eventsOf, List.filter_append, List.filter_cons_of_pos (by simpa using h), List.filter_nil]
  rfl

theorem SwapsInTurn.concat {events : List RebuildEvent} (h : SwapsInTurn events)
    (he : ∀ i old new, e = .swapped i old new → old = mapAfter events) :
    SwapsInTurn (events ++ [e]) := by
  intro before i old new after hsplit
  obtain rfl | ⟨rest, last, rfl⟩ := List.eq_nil_or_concat after
  · obtain ⟨rfl, hlast⟩ := List.append_inj' hsplit rfl
    exact he i old new (List.cons.inj hlast).1
  · have hsplit' : events ++ [e] = (before ++ .swapped i old new :: rest) ++ [last] := by
      rw [hsplit, List.append_assoc, List.cons_append]
      rw [List.concat_eq_append]
    exact h before i old new rest (List.append_inj' hsplit' rfl).1

/-- An event of a call leaves what the others have told. -/
theorem told_of_concat (h : RebuildInv s) {call : RebuildCall} (he : e.call = i)
    (hself : call.Told i (s.events ++ [e])) :
    ∀ j (call' : RebuildCall), (s.calls.set i call)[j]? = some call' → call'.Told j (s.events ++ [e]) := by
  intro j call' hj
  by_cases hne : i = j
  · subst hne
    rw [List.getElem?_set_self'] at hj
    obtain ⟨_, -, rfl⟩ := Option.map_eq_some_iff.1 hj
    exact hself
  · rw [List.getElem?_set_ne hne] at hj
    have htold := h.told j call' hj
    unfold RebuildCall.Told at htold ⊢
    rwa [eventsOf_concat_of_ne _ (he ▸ hne)]

theorem called_of_concat (h : RebuildInv s) {call old : RebuildCall} (he : e.call = i)
    (hi : s.calls[i]? = some old) : ∀ e' ∈ s.events ++ [e], e'.call < (s.calls.set i call).length := by
  intro e' he'
  rw [List.length_set]
  obtain he' | he' := List.mem_append.1 he'
  · exact h.called e' he'
  · rw [List.mem_singleton.1 he', he]
    exact (List.getElem?_eq_some_iff.1 hi).1

theorem RebuildInv.step {s s' : Rebuilding} {a : RebuildAction} (h : RebuildInv s) (hstep : s.step a = some s') :
    RebuildInv s' := by
  obtain ⟨profiles, rfl⟩ | ⟨i, profiles, newOrder, oldOrder, hi, hnew, hold, rfl⟩ |
    ⟨i, profiles, path, changed, hi, rfl⟩ := Rebuilding.step_cases hstep
  · -- a call begins
    refine ⟨h.shown, h.inTurn, fun j call hj => ?_, fun e he => ?_⟩
    · obtain hlt | hge := lt_or_ge j s.calls.length
      · rw [List.getElem?_append_left hlt] at hj
        exact h.told j call hj
      · rw [List.getElem?_append_right hge, List.getElem?_singleton] at hj
        split at hj
        next hzero =>
          cases hj
          refine List.filter_eq_nil_iff.2 fun e he => ?_
          have hcalled := h.called e he
          rw [decide_eq_true_eq]
          omega
        · cases hj
    · rw [List.length_append]
      exact Nat.lt_add_right _ (h.called e he)
  · -- the swap
    refine ⟨?_, h.inTurn.concat ?_, told_of_concat h rfl ?_, called_of_concat h rfl hi⟩
    · rw [mapAfter, List.foldl_append]
      rfl
    · rintro _ _ _ heq
      cases heq
      exact h.shown
    · have htold : eventsOf i s.events = [] := h.told i _ hi
      refine ⟨s.profiles, [], ?_, changedIn_nodup hnew hold, fun path => mem_changedIn hnew hold⟩
      rw [eventsOf_concat_self i s.events rfl, htold]
      rfl
  · -- a tick
    obtain ⟨old, ticked, hevents, hnodup, haffected⟩ := h.told i _ hi
    refine ⟨?_, h.inTurn.concat ?_, told_of_concat h rfl ?_, called_of_concat h rfl hi⟩
    · rw [mapAfter, List.foldl_append]
      exact h.shown
    · rintro _ _ _ heq
      cases heq
    · have hmoved : ticked ++ [path] ++ changed = ticked ++ path :: changed := (List.append_cons ..).symm
      refine ⟨old, ticked ++ [path], ?_, hmoved ▸ hnodup, hmoved ▸ haffected⟩
      rw [eventsOf_concat_self i s.events rfl, hevents, List.map_append]
      rfl

theorem rebuildInv_of_reachable (h : rebuilding.Reachable s) : RebuildInv s := by
  refine System.ReachableWhile.invariant (fun s hs => ?_) (fun s a s' hinv _ hstep => hinv.step hstep) h
  obtain rfl : s = ⟨∅, [], []⟩ := hs
  refine ⟨rfl, fun before i old new after hsplit => ?_, fun i call hi => ?_, fun e he => ?_⟩
  · cases before <;> cases hsplit
  · cases hi
  · cases he

/-- **Rebuilding ticks exactly the affected paths**, each once, and not before the new map is there. -/
theorem rebuild_ticks_affected {s : Rebuilding} (h : rebuilding.Reachable s) :
    s.profiles = mapAfter s.events ∧ SwapsInTurn s.events ∧
      ∀ i (call : RebuildCall), s.calls[i]? = some call → call.Told i s.events :=
  have hinv := rebuildInv_of_reachable h
  ⟨hinv.shown, hinv.inTurn, hinv.told⟩

def teamProfile : ProfileSettings where
  profile := { name := "team", path := "Team", endpoints := ["linear"] }
  jsExecution := false
  toonOutput := false

def teamAdded : Rebuilding where
  profiles := newMap [teamProfile]
  calls := [⟨[teamProfile], .send []⟩]
  events := [.swapped 0 ∅ (newMap [teamProfile]), .ticked 0 "team"]

theorem teamAdded_reachable : rebuilding.Reachable teamAdded :=
  have hrun : rebuilding.run ⟨∅, [], []⟩ [.call [teamProfile], .run 0 ["team"] [], .run 0 [] []] =
      some teamAdded := rfl
  (System.Reachable.init rfl).run hrun

theorem rebuild_ticks_team :
    rebuilding.Reachable teamAdded ∧ RebuildCall.Told ⟨[teamProfile], .send []⟩ 0 teamAdded.events :=
  ⟨teamAdded_reachable, (rebuild_ticks_affected teamAdded_reachable).2.2 0 _ rfl⟩

end EndaraRelay
