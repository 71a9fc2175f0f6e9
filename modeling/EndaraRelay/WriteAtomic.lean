import EndaraRelay.WritePaths
import EndaraRelay.Lib.Transition

/-!
# Atomic writes beneath a root

`write_atomic` as a step machine: one step for each system call, on the tree of the moment. Between
two steps anybody may change the tree in any way (`WriteAction.interfere`), and any call may fail.

**The walk.** The root is opened once. Each missing directory is created and then opened without
following a symbolic link: by `openat2`, which starts from the root every time, or by the portable
walk, which starts from the directory opened last. When the kernel lacks `openat2` the walk starts
over.

**The file** is written under a temporary name in the last directory and renamed there.

`seen` keeps the trees that the write has met. It is not read by the code; the invariant
(`WritePc.Anchored`) speaks about it: every directory in hand was reached from the root by lookups
each of which found a directory in one of these trees.

**Theorem (`write_reached`).** In every run, every entry that a step of the write changes is in such a
directory, and is a directory of the destination's path, the temporary file or the destination; and
every file that a step fills is one that the write has created.
-/

namespace EndaraRelay

open Verif Verif.FileTree

/-! ## The job -/

/-- The arguments of `write_atomic`, and the name of its temporary file. -/
structure WriteJob where
  op : String
  dest : AbsolutePath
  bytes : List UInt8
  root : AbsolutePath
  tmp : FileName

/-- `write_tmp_name`: `lossy` shows a file name, `unique` is the clock in nanoseconds and `seq` the
counter of the process. -/
def writeTmpName (lossy : FileName → String) (fileName : FileName) (pid unique seq : Nat) :
    FileName :=
  Percent.utf8Bytes ("." ++ lossy fileName ++ "." ++ toString pid ++ "." ++ toString unique ++ "." ++
    toString seq ++ ".tmp")

namespace WriteJob

/-- The file name of the destination. -/
def fileName (job : WriteJob) : FileName := job.dest.getLast?.getD []

/-- The directory of the destination below the root. -/
def relDir (job : WriteJob) : List FileName := job.dest.dropLast.drop job.root.length

end WriteJob

/-- An error of a call, of the system or of the checks before it. -/
inductive IoError where
  | os (e : Errno)
  | invalidInput (message : String)
deriving DecidableEq, Repr

/-- How paths and errors are shown. -/
structure WriteTexts where
  display : AbsolutePath → String
  describe : Errno → String

def WriteTexts.show (texts : WriteTexts) : IoError → String
  | .os e => texts.describe e
  | .invalidInput message => message

section Messages

variable (texts : WriteTexts) (job : WriteJob)

def escapedMessage : String :=
  job.op ++ ": '" ++ texts.display job.dest ++
    "' escaped the configured write directory during the write"

def parentDirsError (e : IoError) : String :=
  if e = .os .symlinkLoop ∨ e = .os .crossDevice then escapedMessage texts job
  else job.op ++ ": failed to create parent directories for '" ++ texts.display job.dest ++ "': " ++
    texts.show e

def rootError (e : IoError) : String :=
  if e = .os .symlinkLoop then escapedMessage texts job
  else job.op ++ ": configured write directory '" ++ texts.display job.root ++
    "' is not accessible: " ++ texts.show e ++
    " — recreate it or update [relay] write_dirs in ~/.endara/config.toml"

def writeError (e : IoError) : String :=
  job.op ++ ": failed to write '" ++ texts.display job.dest ++ "': " ++ texts.show e

def finaliseError (e : IoError) : String :=
  job.op ++ ": failed to finalise '" ++ texts.display job.dest ++ "': " ++ texts.show e

end Messages

/-! ## System calls -/

/-- `open_root`: the ancestors of the root are looked up as those of any path; the root itself must be
a directory and no link. -/
def openRoot (t : FsTree FileName) (root : AbsolutePath) : Except Errno Ino :=
  match root.getLast? with
  | none => if t.isDir t.root then .ok t.root else .error .notADirectory
  | some name =>
    match t.resolve maxLinks [] (root.dropLast.map .name) with
    | none => .error .notFound
    | some parent =>
      match t.realWalk t.root parent with
      | none => .error .notFound
      | some d => t.openDirAt d name

/-- How directories are opened. -/
inductive Tier where
  | openat2
  | walk
deriving DecidableEq, Repr

/-- Open the directory `name`, where `dir` was opened last and `done` leads to it from the root. A
symbolic link is reported as `ELOOP` by both tiers. -/
def openDirectory (tier : Tier) (t : FsTree FileName) (root dir : Ino) (done : List FileName)
    (name : FileName) : Except Errno Ino :=
  match tier with
  | .openat2 => t.openBeneath root (done ++ [name])
  | .walk => t.openDirAt dir name

/-- `c_string` refuses a NUL byte. -/
def hasNul (name : FileName) : Bool := name.contains 0

/-! ## The machine -/

/-- Where a write is; the message of an error to come is kept while the temporary file is removed. -/
inductive WritePc where
  | openingRoot
  | anchoring (tier : Tier) (root : Ino)
  | opening (tier : Tier) (root dir : Ino) (done : List FileName) (name : FileName)
      (rest : List FileName)
  | making (tier : Tier) (root dir : Ino) (done : List FileName) (name : FileName)
      (rest : List FileName)
  | reopening (tier : Tier) (root dir : Ino) (done : List FileName) (name : FileName)
      (rest : List FileName)
  | creating (root dir : Ino)
  | filling (root dir file : Ino)
  | publishing (root dir : Ino)
  | unlinking (root dir : Ino) (message : String)
  | finished (result : Except String Unit)

/-- How a call goes: it is carried out, with the number a new inode would get; it fails for a reason of
its own; or the kernel does not know it. -/
inductive Syscall where
  | proceed (fresh : Ino)
  | fail (e : Errno)
  | unsupported

/-- The next component of the walk. -/
def enter (tier : Tier) (root dir : Ino) (done : List FileName) : List FileName → WritePc
  | [] => .creating root dir
  | name :: rest => .opening tier root dir done name rest

section Machine

variable (texts : WriteTexts) (job : WriteJob)

/-- What `write_atomic` does before its first call. -/
def writeStart : WritePc :=
  if job.dest = [] then
    .finished (.error (job.op ++ ": '" ++ texts.display job.dest ++ "' has no parent directory"))
  else if job.root.isPrefixOf job.dest.dropLast then
    if job.root.any hasNul then
      .finished (.error (rootError texts job (.invalidInput "path contains a NUL byte")))
    else .openingRoot
  else .finished (.error (escapedMessage texts job))

/-- What follows an opened root: the components below it are checked. -/
def rootOpened (tier : Tier) (root : Ino) : WritePc :=
  if job.relDir.any hasNul then
    .finished (.error (parentDirsError texts job
      (.invalidInput "path component contains a NUL byte")))
  else .anchoring tier root

/-- What follows the first attempt at a directory: one that is missing is created. -/
def afterOpening (tier : Tier) (root dir : Ino) (done : List FileName) (name : FileName)
    (rest : List FileName) : Except Errno Ino → WritePc
  | .ok d => enter tier root d (done ++ [name]) rest
  | .error e =>
    if e = .notFound then .making tier root dir done name rest
    else .finished (.error (parentDirsError texts job (.os e)))

/-- `mkdirat_tolerating_exists`. -/
def afterMaking (tier : Tier) (root dir : Ino) (done : List FileName) (name : FileName)
    (rest : List FileName) (e : Errno) : WritePc :=
  if e = .alreadyExists then .reopening tier root dir done name rest
  else .finished (.error (parentDirsError texts job (.os e)))

def afterReopening (tier : Tier) (root : Ino) (done : List FileName) (name : FileName)
    (rest : List FileName) : Except Errno Ino → WritePc
  | .ok d => enter tier root d (done ++ [name]) rest
  | .error e => .finished (.error (parentDirsError texts job (.os e)))

/-- One call of `write_atomic`; `first` is the tier that the platform tries first. -/
def WritePc.step (first : Tier) (t : FsTree FileName) :
    WritePc → Syscall → Option (FsTree FileName × WritePc)
  | .openingRoot, .proceed _ =>
    match openRoot t job.root with
    | .ok root => some (t, rootOpened texts job first root)
    | .error e => some (t, .finished (.error (rootError texts job (.os e))))
  | .openingRoot, .fail e => some (t, .finished (.error (rootError texts job (.os e))))
  | .anchoring tier root, .proceed _ => some (t, enter tier root root [] job.relDir)
  | .anchoring _ _, .fail e => some (t, .finished (.error (parentDirsError texts job (.os e))))
  | .opening tier root dir done name rest, .proceed _ =>
    some (t, afterOpening texts job tier root dir done name rest
      (openDirectory tier t root dir done name))
  | .opening tier root dir done name rest, .fail e =>
    some (t, afterOpening texts job tier root dir done name rest (.error e))
  | .opening .openat2 root _ _ _ _, .unsupported => some (t, .anchoring .walk root)
  | .making tier root dir done name rest, .proceed fresh =>
    if t.node fresh = none then
      match t.mkdirAt dir name fresh with
      | .ok t' => some (t', .reopening tier root dir done name rest)
      | .error e => some (t, afterMaking texts job tier root dir done name rest e)
    else none
  | .making tier root dir done name rest, .fail e =>
    some (t, afterMaking texts job tier root dir done name rest e)
  | .reopening tier root dir done name rest, .proceed _ =>
    some (t, afterReopening texts job tier root done name rest
      (openDirectory tier t root dir done name))
  | .reopening tier root _ done name rest, .fail e =>
    some (t, afterReopening texts job tier root done name rest (.error e))
  | .reopening .openat2 root _ _ _ _, .unsupported => some (t, .anchoring .walk root)
  | .creating root dir, .proceed fresh =>
    if hasNul job.tmp then
      some (t, .unlinking root dir (writeError texts job (.invalidInput "path contains a NUL byte")))
    else if t.node fresh = none then
      match t.createAt dir job.tmp fresh with
      | .ok t' => some (t', .filling root dir fresh)
      | .error e => some (t, .unlinking root dir (writeError texts job (.os e)))
    else none
  | .creating root dir, .fail e => some (t, .unlinking root dir (writeError texts job (.os e)))
  | .filling root dir file, .proceed _ => some (t.writeFile file job.bytes, .publishing root dir)
  | .filling root dir _, .fail e => some (t, .unlinking root dir (writeError texts job (.os e)))
  | .publishing root dir, .proceed _ =>
    if hasNul job.fileName then
      some (t, .unlinking root dir
        (finaliseError texts job (.invalidInput "path contains a NUL byte")))
    else
      match t.renameAt dir job.tmp job.fileName with
      | .ok t' => some (t', .finished (.ok ()))
      | .error e => some (t, .unlinking root dir (finaliseError texts job (.os e)))
  | .publishing root dir, .fail e => some (t, .unlinking root dir (finaliseError texts job (.os e)))
  | .unlinking _ dir message, .proceed _ =>
    match t.unlinkAt dir job.tmp with
    | .ok t' => some (t', .finished (.error message))
    | .error _ => some (t, .finished (.error message))
  | .unlinking _ _ message, .fail _ => some (t, .finished (.error message))
  | _, _ => none

/-- A write in progress: the tree, the trees it has met, and where it is. -/
structure WriteRun where
  tree : FsTree FileName
  seen : List (FsTree FileName)
  pc : WritePc

inductive WriteAction where
  | call (c : Syscall)
  /-- Somebody else changes the tree. -/
  | interfere (t : FsTree FileName)

/-- The tree of a run becomes `t`. -/
def WriteRun.meet (s : WriteRun) (t : FsTree FileName) (pc : WritePc) : WriteRun :=
  ⟨t, t :: s.seen, pc⟩

def WriteRun.step (first : Tier) (s : WriteRun) : WriteAction → Option WriteRun
  | .call c => (s.pc.step texts job first s.tree c).map fun r => s.meet r.1 r.2
  | .interfere t => some (s.meet t s.pc)

/-- The writes that start in a tree that meets `P`. -/
def writing (first : Tier) (P : FsTree FileName → Prop) : System WriteRun WriteAction where
  init s := P s.tree ∧ s = ⟨s.tree, [s.tree], writeStart texts job⟩
  step := WriteRun.step texts job first

end Machine

/-! ## What is reached -/

def RootOpened (job : WriteJob) (seen : List (FsTree FileName)) (root : Ino) : Prop :=
  ∃ t ∈ seen, openRoot t job.root = .ok root

/-- An entry that the write may change: a directory on the way to the destination, or the temporary
file or the destination in the last of them. -/
def MayChange (job : WriteJob) (seen : List (FsTree FileName)) (d : Ino) (n : FileName) : Prop :=
  ∃ root names, RootOpened job seen root ∧ FsTree.Reached seen root names d ∧
    (names ++ [n] <+: job.relDir ∨ names = job.relDir ∧ (n = job.tmp ∨ n = job.fileName))

/-- A file that one of the trees did not have. -/
def Made (seen : List (FsTree FileName)) (i : Ino) : Prop := ∃ t ∈ seen, t.node i = none

/-- What a call may do to the tree. -/
structure Contained (job : WriteJob) (seen : List (FsTree FileName)) (t t' : FsTree FileName) : Prop where
  entries : FsTree.ChangesOnly (MayChange job seen) t t'
  files : FsTree.FillsOnly (Made seen) t t'

/-- Every directory in hand was reached from the root, and the open file was created. -/
def WritePc.Anchored (job : WriteJob) (seen : List (FsTree FileName)) : WritePc → Prop
  | .openingRoot | .finished _ => True
  | .anchoring _ root => RootOpened job seen root
  | .opening _ root dir done name rest
  | .making _ root dir done name rest
  | .reopening _ root dir done name rest =>
    RootOpened job seen root ∧ FsTree.Reached seen root done dir ∧
      done ++ name :: rest = job.relDir
  | .filling root dir file =>
    RootOpened job seen root ∧ FsTree.Reached seen root job.relDir dir ∧ Made seen file
  | .creating root dir
  | .publishing root dir
  | .unlinking root dir _ => RootOpened job seen root ∧ FsTree.Reached seen root job.relDir dir

variable {seen' : List (FsTree FileName)} {fresh : Ino}

section Anchored

variable {texts : WriteTexts} {job : WriteJob} {first tier : Tier} {seen : List (FsTree FileName)}
  {t t' : FsTree FileName} {pc pc' : WritePc} {c : Syscall} {root dir : Ino}
  {done rest : List FileName} {name : FileName}

theorem RootOpened.mono (hsub : ∀ t ∈ seen, t ∈ seen') (h : RootOpened job seen root) :
    RootOpened job seen' root := by
  obtain ⟨t, ht, hopen⟩ := h
  exact ⟨t, hsub t ht, hopen⟩

theorem Made.mono (hsub : ∀ t ∈ seen, t ∈ seen') {i : Ino} (h : Made seen i) : Made seen' i := by
  obtain ⟨t, ht, hnone⟩ := h
  exact ⟨t, hsub t ht, hnone⟩

theorem WritePc.Anchored.mono (hsub : ∀ t ∈ seen, t ∈ seen') (h : pc.Anchored job seen) :
    pc.Anchored job seen' := by
  cases pc with
  | openingRoot => trivial
  | finished result => trivial
  | anchoring tier root => exact RootOpened.mono hsub h
  | opening tier root dir done name rest =>
    exact ⟨h.1.mono hsub, h.2.1.mono hsub, h.2.2⟩
  | making tier root dir done name rest =>
    exact ⟨h.1.mono hsub, h.2.1.mono hsub, h.2.2⟩
  | reopening tier root dir done name rest =>
    exact ⟨h.1.mono hsub, h.2.1.mono hsub, h.2.2⟩
  | creating root dir => exact ⟨h.1.mono hsub, h.2.mono hsub⟩
  | filling root dir file => exact ⟨h.1.mono hsub, h.2.1.mono hsub, h.2.2.mono hsub⟩
  | publishing root dir => exact ⟨h.1.mono hsub, h.2.mono hsub⟩
  | unlinking root dir message => exact ⟨h.1.mono hsub, h.2.mono hsub⟩

theorem anchored_enter (hroot : RootOpened job seen root)
    (hreached : FsTree.Reached seen root done dir) (hsplit : done ++ rest = job.relDir) :
    (enter tier root dir done rest).Anchored job seen := by
  cases rest with
  | nil =>
    rw [List.append_nil] at hsplit
    exact ⟨hroot, hsplit ▸ hreached⟩
  | cons name rest => exact ⟨hroot, hreached, hsplit⟩

/-- A directory that opens in the tree of the moment is reached. -/
theorem reached_openDirectory (ht : t ∈ seen) (hreached : FsTree.Reached seen root done dir) {d : Ino}
    (h : openDirectory tier t root dir done name = .ok d) :
    FsTree.Reached seen root (done ++ [name]) d := by
  cases tier with
  | openat2 =>
    have hwalk := FsTree.openBeneath_ok_iff.1 h
    exact FsTree.Reached.here.walkDirs ht hwalk
  | walk =>
    obtain ⟨hlookup, hdir⟩ := FsTree.openDirAt_ok_iff.1 h
    exact hreached.step ht hlookup hdir

theorem anchored_afterReopening (ht : t ∈ seen) (hroot : RootOpened job seen root)
    (hreached : FsTree.Reached seen root done dir) (hsplit : done ++ name :: rest = job.relDir) :
    (afterReopening texts job tier root done name rest
      (openDirectory tier t root dir done name)).Anchored job seen := by
  cases hopen : openDirectory tier t root dir done name with
  | error e => trivial
  | ok d =>
    refine anchored_enter hroot (reached_openDirectory ht hreached hopen) ?_
    rw [List.append_assoc, List.singleton_append, hsplit]

theorem anchored_afterOpening (ht : t ∈ seen) (hroot : RootOpened job seen root)
    (hreached : FsTree.Reached seen root done dir) (hsplit : done ++ name :: rest = job.relDir) :
    (afterOpening texts job tier root dir done name rest
      (openDirectory tier t root dir done name)).Anchored job seen := by
  cases hopen : openDirectory tier t root dir done name with
  | error e =>
    rw [afterOpening]
    split
    · exact ⟨hroot, hreached, hsplit⟩
    · trivial
  | ok d =>
    refine anchored_enter hroot (reached_openDirectory ht hreached hopen) ?_
    rw [List.append_assoc, List.singleton_append, hsplit]

theorem prefix_of_split {names : List FileName} (h : done ++ name :: rest = names) :
    done ++ [name] <+: names :=
  ⟨rest, by rw [← h, List.append_assoc, List.singleton_append]⟩

theorem contained_of_added {node : Node FileName} (ht : t ∈ seen) (hfresh : t.node fresh = none)
    (h : FsTree.Added t t' dir name fresh node) (hmay : MayChange job seen dir name) :
    Contained job seen t t' where
  entries d n hne := by
    obtain ⟨rfl, rfl⟩ := h.changesOnly d n hne
    exact hmay
  files i hi hne := by
    have heq := h.fillsOnly i hi hne
    exact ⟨t, ht, heq ▸ hfresh⟩

theorem added_mkdirAt (hfresh : t.node fresh = none) (h : t.mkdirAt dir name fresh = .ok t') :
    FsTree.Added t t' dir name fresh (.dir ∅) :=
  FsTree.addAt_spec hfresh (fun _ heq => (Node.dir.inj heq).symm) h

theorem added_createAt (hfresh : t.node fresh = none) (h : t.createAt dir name fresh = .ok t') :
    FsTree.Added t t' dir name fresh (.file []) :=
  FsTree.addAt_spec hfresh (fun _ heq => by cases heq) h

theorem mem_cons_of_mem (t : FsTree FileName) : ∀ u ∈ seen, u ∈ t :: seen :=
  fun _ hu => List.mem_cons_of_mem t hu

theorem contained_unchanged (h : pc'.Anchored job seen) :
    Contained job seen t t ∧ pc'.Anchored job (t :: seen) :=
  ⟨⟨FsTree.ChangesOnly.refl _ _, FsTree.FillsOnly.refl _ _⟩, h.mono (mem_cons_of_mem t)⟩

/-- The temporary file and the destination, in the last directory. -/
theorem mayChange_lastDir (hroot : RootOpened job seen root)
    (hreached : FsTree.Reached seen root job.relDir dir) {n : FileName}
    (hn : n = job.tmp ∨ n = job.fileName) : MayChange job seen dir n :=
  ⟨root, job.relDir, hroot, hreached, .inr ⟨rfl, hn⟩⟩

theorem contained_renameAt (hroot : RootOpened job seen root)
    (hreached : FsTree.Reached seen root job.relDir dir)
    (h : t.renameAt dir job.tmp job.fileName = .ok t') : Contained job seen t t' where
  entries d n hne := by
    obtain ⟨rfl, hn⟩ := FsTree.changesOnly_renameAt h d n hne
    exact mayChange_lastDir hroot hreached hn
  files i hi hne := absurd ((FsTree.renameAt_frame h).2.2 i hi) hne

theorem contained_unlinkAt (hroot : RootOpened job seen root)
    (hreached : FsTree.Reached seen root job.relDir dir)
    (h : t.unlinkAt dir job.tmp = .ok t') : Contained job seen t t' where
  entries d n hne := by
    obtain ⟨rfl, hn⟩ := FsTree.changesOnly_unlinkAt h d n hne
    exact mayChange_lastDir hroot hreached (.inl hn)
  files := FsTree.fillsOnly_unlinkAt _ h

theorem contained_writeFile {file : Ino} (hmade : Made seen file) :
    Contained job seen t (t.writeFile file job.bytes) where
  entries d n hne := absurd (FsTree.lookup_writeFile t file job.bytes d n) hne
  files i hi hne := by
    rw [FsTree.fillsOnly_writeFile t file job.bytes i hi hne]
    exact hmade

/-- **What one call does**: it changes only what it may change, and keeps the invariant. -/
theorem WritePc.step_anchored (ht : t ∈ seen) (h : pc.Anchored job seen)
    (hst : pc.step texts job first t c = some (t', pc')) :
    Contained job seen t t' ∧ pc'.Anchored job (t' :: seen) := by
  unfold WritePc.step at hst
  split at hst
  · -- the root
    split at hst
    · next root hroot =>
      cases hst
      refine contained_unchanged ?_
      unfold rootOpened
      split
      · trivial
      · exact ⟨t, ht, hroot⟩
    · cases hst
      exact contained_unchanged trivial
  · cases hst
    exact contained_unchanged trivial
  · -- the anchor
    cases hst
    exact contained_unchanged (anchored_enter h .here (List.nil_append _))
  · cases hst
    exact contained_unchanged trivial
  · -- a directory
    cases hst
    exact contained_unchanged (anchored_afterOpening ht h.1 h.2.1 h.2.2)
  · cases hst
    refine contained_unchanged ?_
    rw [afterOpening]
    split
    · exact h
    · trivial
  · cases hst
    exact contained_unchanged h.1
  · -- a missing directory
    split at hst
    · next hfresh =>
      split at hst
      · next hmade =>
        cases hst
        refine ⟨?_, WritePc.Anchored.mono (mem_cons_of_mem _) h⟩
        apply contained_of_added ht hfresh (added_mkdirAt hfresh hmade)
        exact ⟨_, _, h.1, h.2.1, .inl (prefix_of_split h.2.2)⟩
      · cases hst
        refine contained_unchanged ?_
        unfold afterMaking
        split
        · exact h
        · trivial
    · cases hst
  · cases hst
    refine contained_unchanged ?_
    unfold afterMaking
    split
    · exact h
    · trivial
  · -- a directory after its creation
    cases hst
    exact contained_unchanged (anchored_afterReopening ht h.1 h.2.1 h.2.2)
  · cases hst
    exact contained_unchanged trivial
  · cases hst
    exact contained_unchanged h.1
  · -- the temporary file
    split at hst
    · cases hst
      exact contained_unchanged h
    · split at hst
      · next hfresh =>
        split at hst
        · next hcreated =>
          cases hst
          constructor
          · apply contained_of_added ht hfresh (added_createAt hfresh hcreated)
            exact mayChange_lastDir h.1 h.2 (.inl rfl)
          · have hmade : Made seen _ := ⟨t, ht, hfresh⟩
            exact ⟨h.1.mono (mem_cons_of_mem _), h.2.mono (mem_cons_of_mem _),
              hmade.mono (mem_cons_of_mem _)⟩
        · cases hst
          exact contained_unchanged h
      · cases hst
  · cases hst
    exact contained_unchanged h
  · -- its content
    cases hst
    refine ⟨contained_writeFile h.2.2, ?_⟩
    exact ⟨h.1.mono (mem_cons_of_mem _), h.2.1.mono (mem_cons_of_mem _)⟩
  · cases hst
    exact contained_unchanged ⟨h.1, h.2.1⟩
  · -- its new name
    split at hst
    · cases hst
      exact contained_unchanged h
    · split at hst
      · next hrenamed =>
        cases hst
        exact ⟨contained_renameAt h.1 h.2 hrenamed, trivial⟩
      · cases hst
        exact contained_unchanged h
  · cases hst
    exact contained_unchanged h
  · -- its removal
    split at hst
    · next hremoved =>
      cases hst
      exact ⟨contained_unlinkAt h.1 h.2 hremoved, trivial⟩
    · cases hst
      exact contained_unchanged trivial
  · cases hst
    exact contained_unchanged trivial
  · cases hst

end Anchored

section Runs

variable {texts : WriteTexts} {job : WriteJob} {first : Tier} {P : FsTree FileName → Prop}
  {s s' : WriteRun}

/-- A run has met its tree, and its directories are reached. -/
def WriteRun.Inv (job : WriteJob) (s : WriteRun) : Prop :=
  s.tree ∈ s.seen ∧ s.pc.Anchored job s.seen

theorem WriteRun.inv_start (t : FsTree FileName) :
    WriteRun.Inv job ⟨t, [t], writeStart texts job⟩ := by
  refine ⟨List.mem_singleton.2 rfl, ?_⟩
  unfold writeStart
  split
  · trivial
  · split
    · split
      · trivial
      · trivial
    · trivial

theorem WriteRun.inv_step {a : WriteAction} (h : s.Inv job)
    (hst : s.step texts job first a = some s') : s'.Inv job := by
  cases a with
  | call c =>
    obtain ⟨r, hr, rfl⟩ := Option.map_eq_some_iff.1 hst
    exact ⟨List.mem_cons_self, (WritePc.step_anchored h.1 h.2 hr).2⟩
  | interfere t =>
    cases hst
    exact ⟨List.mem_cons_self, h.2.mono fun u hu => List.mem_cons_of_mem t hu⟩

theorem writeRun_inv (hr : (writing texts job first P).Reachable s) : s.Inv job := by
  refine System.ReachableWhile.invariant ?_ ?_ hr
  · intro u hu
    obtain ⟨-, hu⟩ := hu
    rw [hu]
    exact WriteRun.inv_start u.tree
  · intro u a u' h _ hst
    exact WriteRun.inv_step h hst

/-- **Every entry that a write changes** is in a directory that it reached from the root, and every
file that it fills is its own, whatever others do to the tree between its calls. -/
theorem write_reached {c : Syscall} (hr : (writing texts job first P).Reachable s)
    (hst : (writing texts job first P).step s (.call c) = some s') :
    Contained job s.seen s.tree s'.tree := by
  have h := writeRun_inv hr
  obtain ⟨r, hr, rfl⟩ := Option.map_eq_some_iff.1 hst
  exact (WritePc.step_anchored h.1 h.2 hr).1

end Runs

end EndaraRelay
