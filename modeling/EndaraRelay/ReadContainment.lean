import EndaraRelay.FileQuotas
import EndaraRelay.WriteAtomic
import Mathlib.Logic.Relation

/-!
# Reads beneath a root

How `readFile` gets to its file: one step for each system call, on the tree of the moment. The path is
looked up twice beneath the root it matches, for the kind of the entry (`stat_beneath`) and to open it
(`open_beneath`): by `openat2` in one call, or component by component where the kernel lacks it. Between
two calls anybody may change the tree.

**Theorem (`read_reached`).** In every run, the file that is open was found under the last name of the
path and was no symbolic link, in a directory that was reached from the root along the other names.

**Theorem (`tiers_agree`).** On a tree that nobody changes every read ends, and both tiers end alike: the
walk comes to the file that one call of `openat2` finds, or fails as it does.
-/

namespace EndaraRelay

open Verif Verif.FileTree

/-- What `resolve_write_path` makes of a path. -/
structure ReadJob where
  pathStr : String
  source : AbsolutePath
  root : AbsolutePath

/-- `opens` tells the second lookup from the first. -/
inductive ReadPc where
  | openingRoot (opens : Bool) (tier : Tier)
  /-- The path is that of the root. -/
  | atRoot (tier : Tier) (root : Ino)
  | lookingUp (opens : Bool) (tier : Tier) (dir : Ino) (done : List FileName) (name : FileName)
      (rest : List FileName)
  | opened (file : Ino)
  | failed (message : String)

section Machine

variable (describe : Errno → String) (job : ReadJob) (first tier : Tier) (t : FsTree FileName)

namespace ReadJob

def rel : List FileName := job.source.drop job.root.length

def fail (e : IoError) : ReadPc :=
  .failed (openErrorMessage job.pathStr (match e with
    | .os .notFound => .notFound
    | .os .symlinkLoop => .symlinkLoop
    | .os e => .other (describe e)
    | .invalidInput message => .other message))

def entryKind (i : Ino) : FileKind :=
  match t.node i with
  | some (.dir _) => .directory
  | some (.file _) => .regular
  | _ => .other

/-- What follows the lookup of an inode: its kind is checked before it is opened. -/
def arrive (opens : Bool) : Except Errno Ino → ReadPc
  | .error e => job.fail describe (.os e)
  | .ok i =>
    if opens then .opened i
    else
      match rejectNonRegularKind job.pathStr (entryKind t i) with
      | .error message => .failed message
      | .ok () => .openingRoot true tier

def start : ReadPc :=
  if job.root.isPrefixOf job.source then
    if job.root.any hasNul then job.fail describe (.invalidInput "path contains a NUL byte")
    else .openingRoot false first
  else job.fail describe
    (.invalidInput "path escaped its matched write directory before the open")

/-- What follows the opened root. -/
def descend (opens : Bool) (root : Ino) : ReadPc :=
  if job.rel.any hasNul then
    job.fail describe (.invalidInput "path component contains a NUL byte")
  else
    match job.rel with
    | [] =>
      if opens then
        job.fail describe (.invalidInput "open_beneath requires a non-empty relative path")
      else .atRoot tier root
    | name :: rest => .lookingUp opens tier root [] name rest

end ReadJob

/-- The last component is looked up without following a symbolic link. -/
def entryAt (d : Ino) (name : FileName) : Except Errno Ino :=
  match t.lookup d name with
  | none => .error .notFound
  | some i => if t.isSymlink i then .error .symlinkLoop else .ok i

/-- All components in one call of `openat2`. -/
def entryBeneath : Ino → FileName → List FileName → Except Errno Ino
  | d, name, [] => entryAt t d name
  | d, name, next :: rest => (t.openDirAt d name).bind fun i => entryBeneath i next rest

/-- A kernel without `openat2` is not asked again. -/
def ReadPc.step : ReadPc → Syscall → Option ReadPc
  | .opened _, _ | .failed _, _ => none
  | _, .fail e => some (job.fail describe (.os e))
  | .openingRoot opens tier, .proceed _ =>
    some (match openRoot t job.root with
      | .ok root => job.descend describe tier opens root
      | .error e => job.fail describe (.os e))
  | .atRoot tier root, .proceed _ => some (job.arrive describe tier t false (.ok root))
  | .lookingUp opens .openat2 dir _ name rest, .proceed _ =>
    some (job.arrive describe .openat2 t opens (entryBeneath t dir name rest))
  | .lookingUp opens .openat2 dir done name rest, .unsupported =>
    some (.lookingUp opens .walk dir done name rest)
  | .lookingUp opens .walk dir _ name [], .proceed _ =>
    some (job.arrive describe .walk t opens (entryAt t dir name))
  | .lookingUp opens .walk dir done name (next :: rest), .proceed _ =>
    some (match t.openDirAt dir name with
      | .ok d => .lookingUp opens .walk d (done ++ [name]) next rest
      | .error e => job.fail describe (.os e))
  | _, .unsupported => none

/-- A read in progress, with the trees it has met. -/
structure ReadRun where
  tree : FsTree FileName
  seen : List (FsTree FileName)
  pc : ReadPc

def ReadRun.step (s : ReadRun) : WriteAction → Option ReadRun
  | .call c => (s.pc.step describe job s.tree c).map fun pc => { s with pc }
  | .interfere u => some ⟨u, u :: s.seen, s.pc⟩

/-- The reads of a path that start with a tier. -/
def reading : System ReadRun WriteAction where
  init s := s = ⟨s.tree, [s.tree], job.start describe first⟩
  step := ReadRun.step describe job

end Machine

/-! ## What is reached -/

namespace ReadJob

variable {job : ReadJob} {seen seen' : List (FsTree FileName)} {t : FsTree FileName} {d i : Ino}
  {names rest : List FileName} {name : FileName}

/-- The directory was reached from the root. -/
def Below (job : ReadJob) (seen : List (FsTree FileName)) (names : List FileName) (d : Ino) : Prop :=
  ∃ root, (∃ t ∈ seen, openRoot t job.root = .ok root) ∧ FsTree.Reached seen root names d

/-- The file was found along the path. -/
def Found (job : ReadJob) (seen : List (FsTree FileName)) (file : Ino) : Prop :=
  ∃ names d name, job.Below seen names d ∧ names ++ [name] = job.rel ∧
    ∃ t ∈ seen, t.lookup d name = some file ∧ t.isSymlink file = false

theorem Below.mono (hsub : ∀ t ∈ seen, t ∈ seen') (h : job.Below seen names d) :
    job.Below seen' names d := by
  obtain ⟨root, ⟨t, ht, hopen⟩, hreached⟩ := h
  exact ⟨root, ⟨t, hsub t ht, hopen⟩, hreached.mono hsub⟩

theorem Below.step (h : job.Below seen names d) (ht : t ∈ seen) (hopen : t.openDirAt d name = .ok i) :
    job.Below seen (names ++ [name]) i := by
  obtain ⟨root, hroot, hreached⟩ := h
  obtain ⟨hlookup, hdir⟩ := FsTree.openDirAt_ok_iff.1 hopen
  exact ⟨root, hroot, hreached.step ht hlookup hdir⟩

theorem Below.entryAt (h : job.Below seen names d) (ht : t ∈ seen) (hrel : names ++ [name] = job.rel)
    (hentry : entryAt t d name = .ok i) : job.Found seen i := by
  unfold EndaraRelay.entryAt at hentry
  split at hentry
  · cases hentry
  · next hlookup =>
    split at hentry
    · cases hentry
    · next hlink =>
      cases hentry
      exact ⟨names, d, name, h, hrel, t, ht, hlookup, Bool.eq_false_iff.2 hlink⟩

theorem Below.entryBeneath (h : job.Below seen names d) (ht : t ∈ seen)
    (hrel : names ++ name :: rest = job.rel) (hentry : entryBeneath t d name rest = .ok i) :
    job.Found seen i := by
  induction rest generalizing names d name with
  | nil => exact h.entryAt ht hrel hentry
  | cons next rest ih =>
    rw [EndaraRelay.entryBeneath] at hentry
    cases hopen : t.openDirAt d name with
    | error e =>
      rw [hopen] at hentry
      cases hentry
    | ok j =>
      rw [hopen] at hentry
      exact ih (h.step ht hopen) (by rw [List.append_assoc]; exact hrel) hentry

end ReadJob

/-- **The invariant.** -/
def ReadPc.Anchored (job : ReadJob) (seen : List (FsTree FileName)) : ReadPc → Prop
  | .lookingUp _ _ dir done name rest => job.Below seen done dir ∧ done ++ name :: rest = job.rel
  | .opened file => job.Found seen file
  | _ => True

variable {describe : Errno → String} {job : ReadJob} {first tier : Tier} {t : FsTree FileName}
  {seen seen' : List (FsTree FileName)} {pc pc' : ReadPc} {s : ReadRun}

theorem ReadPc.Anchored.mono (hsub : ∀ t ∈ seen, t ∈ seen') (h : pc.Anchored job seen) :
    pc.Anchored job seen' := by
  cases pc with
  | lookingUp opens tier dir done name rest => exact ⟨h.1.mono hsub, h.2⟩
  | opened file =>
    obtain ⟨names, d, name, hbelow, hrel, t, ht, hentry⟩ := h
    exact ⟨names, d, name, hbelow.mono hsub, hrel, t, hsub t ht, hentry⟩
  | openingRoot | atRoot | failed => trivial

theorem ReadJob.anchored_arrive {opens : Bool} {entry : Except Errno Ino}
    (h : ∀ i, opens = true → entry = .ok i → job.Found seen i) :
    (job.arrive describe tier t opens entry).Anchored job seen := by
  unfold arrive
  split
  · trivial
  · next i =>
    split
    · next hopens => exact h i hopens rfl
    · split
      · trivial
      · trivial

theorem ReadPc.step_anchored {c : Syscall} (ht : t ∈ seen) (h : pc.Anchored job seen)
    (hst : pc.step describe job t c = some pc') : pc'.Anchored job seen := by
  unfold ReadPc.step at hst
  split at hst
  · cases hst
  · cases hst
  · cases hst
    trivial
  · -- the root
    cases hst
    split
    · next root hroot =>
      unfold ReadJob.descend
      split
      · trivial
      · split
        · split
          · trivial
          · trivial
        · next hrel => exact ⟨⟨root, ⟨t, ht, hroot⟩, .here⟩, hrel.symm⟩
    · trivial
  · cases hst
    exact ReadJob.anchored_arrive fun i hopens => by cases hopens
  · -- the path in one call
    cases hst
    exact ReadJob.anchored_arrive fun i _ => h.1.entryBeneath ht h.2
  · cases hst
    exact h
  · -- the last component
    cases hst
    exact ReadJob.anchored_arrive fun i _ => h.1.entryAt ht h.2
  · -- a directory
    cases hst
    split
    · next hopen => exact ⟨h.1.step ht hopen, by rw [List.append_assoc]; exact h.2⟩
    · trivial
  · cases hst

/-- **An open file was found beneath the root**, whatever others do to the tree between the calls. -/
theorem read_reached (hr : (reading describe job first).Reachable s) {file : Ino}
    (hopened : s.pc = .opened file) : job.Found s.seen file := by
  have hinv : s.tree ∈ s.seen ∧ s.pc.Anchored job s.seen := by
    refine System.ReachableWhile.invariant (P := fun s => s.tree ∈ s.seen ∧ s.pc.Anchored job s.seen)
      ?_ ?_ hr
    · intro u hu
      rw [hu]
      refine ⟨List.mem_singleton.2 rfl, ?_⟩
      unfold ReadJob.start
      split
      · split
        · trivial
        · trivial
      · trivial
    · intro u a u' h _ hst
      cases a with
      | call c =>
        obtain ⟨pc, hpc, rfl⟩ := Option.map_eq_some_iff.1 hst
        exact ⟨h.1, ReadPc.step_anchored h.1 h.2 hpc⟩
      | interfere t =>
        cases hst
        exact ⟨List.mem_cons_self, h.2.mono fun u hu => List.mem_cons_of_mem t hu⟩
  rw [hopened] at hinv
  exact hinv.2

/-- A file `/w/a`. -/
def letterTree : FsTree FileName where
  root := 0
  node
    | 0 => some (.dir (AList.insert [0x77] 1 ∅))
    | 1 => some (.dir (AList.insert [0x61] 2 ∅))
    | 2 => some (.file [])
    | _ => none

def letterJob : ReadJob := ⟨"/w/a", [[0x77], [0x61]], [[0x77]]⟩

theorem letter_reached : letterJob.Found [letterTree] 2 := by
  have hinit : (reading (fun _ => "") letterJob .walk).init
      ⟨letterTree, [letterTree], .openingRoot false .walk⟩ := rfl
  have hrun : (reading (fun _ => "") letterJob .walk).run
      ⟨letterTree, [letterTree], .openingRoot false .walk⟩ (List.replicate 4 (.call (.proceed 0))) =
        some ⟨letterTree, [letterTree], .opened 2⟩ := rfl
  exact read_reached (System.Reachable.run (.init hinit) hrun) rfl

/-! ## The two tiers -/

section Tiers

variable (describe : Errno → String) (job : ReadJob) (t : FsTree FileName)

/-- One call, carried out on a tree that nobody changes. -/
def CallTo (pc pc' : ReadPc) : Prop := pc.step describe job t (.proceed 0) = some pc'

def ReadPc.Ended : ReadPc → Prop
  | .opened _ | .failed _ => True
  | _ => False

/-- Both tiers come to the same end. -/
def EndAlike (f : Tier → ReadPc) : Prop :=
  ∃ result : ReadPc, result.Ended ∧ ∀ tier, Relation.ReflTransGen (CallTo describe job t) (f tier) result

variable {describe job t} {f g : Tier → ReadPc} {opens : Bool} {done : List FileName}

theorem EndAlike.ended {r : ReadPc} (h : r.Ended) : EndAlike describe job t fun _ => r :=
  ⟨r, h, fun _ => .refl⟩

theorem EndAlike.after (hg : EndAlike describe job t g)
    (h : ∀ tier, Relation.ReflTransGen (CallTo describe job t) (f tier) (g tier)) :
    EndAlike describe job t f := by
  obtain ⟨result, hended, hresult⟩ := hg
  exact ⟨result, hended, fun tier => (h tier).trans (hresult tier)⟩

/-- The walk comes to the entry that `openat2` finds in one call. -/
theorem lookingUp_arrive (d : Ino) (name : FileName) (rest : List FileName) (tier : Tier) :
    Relation.ReflTransGen (CallTo describe job t) (.lookingUp opens tier d done name rest)
      (job.arrive describe tier t opens (entryBeneath t d name rest)) := by
  cases tier with
  | openat2 => exact .single rfl
  | walk =>
    induction rest generalizing d done name with
    | nil => exact .single rfl
    | cons next rest ih =>
      cases hopen : t.openDirAt d name with
      | error e =>
        refine .single ?_
        rw [CallTo, ReadPc.step, entryBeneath, hopen]
        rfl
      | ok i =>
        have hcall : CallTo describe job t (.lookingUp opens .walk d done name (next :: rest))
            (.lookingUp opens .walk i (done ++ [name]) next rest) := by
          rw [CallTo, ReadPc.step, hopen]
        rw [entryBeneath, hopen]
        exact .head hcall (ih i next)

theorem EndAlike.arrive (hopening : opens = false → EndAlike describe job t (.openingRoot true))
    (entry : Except Errno Ino) :
    EndAlike describe job t fun tier => job.arrive describe tier t opens entry := by
  cases entry with
  | error e => exact .ended trivial
  | ok i =>
    cases opens with
    | true => exact .ended trivial
    | false =>
      cases hkind : rejectNonRegularKind job.pathStr (ReadJob.entryKind t i) with
      | error message =>
        simp only [ReadJob.arrive, hkind]
        exact .ended (r := .failed message) trivial
      | ok _ =>
        simp only [ReadJob.arrive, hkind]
        exact hopening rfl

theorem EndAlike.openingRoot (hopening : opens = false → EndAlike describe job t (.openingRoot true)) :
    EndAlike describe job t (.openingRoot opens) := by
  cases hroot : openRoot t job.root with
  | error e =>
    refine (EndAlike.ended (r := job.fail describe (.os e)) trivial).after fun tier => .single ?_
    rw [CallTo, ReadPc.step, hroot]
  | ok root =>
    refine EndAlike.after (g := fun tier => job.descend describe tier opens root) ?_ fun tier => .single ?_
    · unfold ReadJob.descend
      split
      · exact .ended trivial
      · split
        · cases opens with
          | true => exact .ended trivial
          | false => exact (EndAlike.arrive hopening (.ok root)).after fun tier => .single rfl
        · next name rest _ => exact (EndAlike.arrive hopening _).after (lookingUp_arrive root name rest)
    · rw [CallTo, ReadPc.step, hroot]

/-- **Both tiers end alike** on a tree that nobody changes. -/
theorem tiers_agree : ∃ result : ReadPc, result.Ended ∧ ∀ first,
    Relation.ReflTransGen (CallTo describe job t) (job.start describe first) result := by
  have hopen : EndAlike describe job t (.openingRoot true) := .openingRoot fun h => by cases h
  have hcheck : EndAlike describe job t (.openingRoot false) := .openingRoot fun _ => hopen
  unfold ReadJob.start
  split
  · split
    · exact EndAlike.ended trivial
    · exact hcheck
  · exact EndAlike.ended trivial

end Tiers

end EndaraRelay
