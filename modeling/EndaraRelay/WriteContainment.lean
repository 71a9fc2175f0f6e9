import EndaraRelay.WriteAtomic

/-!
# Containment of a script's writes

`resolve_write_path` followed by `write_atomic`.

**Under interference** nothing is assumed about the answers the resolver got, nor about the tree at any
call: what a call changes is in a directory reached from the matched root (`write_reached`).

**Undisturbed** (`Unchanged`: no step of a run is somebody else's) the tree only grows: first by missing
directories on the way to the destination (`Grown`), then by the temporary file (`TmpIn`), which gets
its name in the end (`WroteAt`). `WritePc.step_undisturbed` says what one call does to these.

**Theorem (`write_contained`).** Both together, for every answer the resolver may have got and every
file system.
-/

namespace EndaraRelay

open Verif Verif.FileTree

/-- A run without interference so far: the write makes its calls, which may fail. -/
def Unchanged (_ : WriteRun) (a : WriteAction) : Prop := ∃ c, a = .call c

section Undisturbed

variable (job : WriteJob)

/-- The destination is the root, directories below it and a name. -/
def WriteJob.Splits : Prop := job.dest = job.root ++ job.relDir ++ [job.fileName]

/-- An entry that is new, of a directory on the way to the destination. -/
def NewOnWay (t₀ t : FsTree FileName) (root d : Ino) (n : FileName) : Prop :=
  t₀.lookup d n = none ∧ ∃ names, names ++ [n] <+: job.relDir ∧ t.walkDirs root names = some d

/-- Since `t₀` the tree has gained directories on the way to the destination, and nothing else. -/
structure Grown (t₀ t : FsTree FileName) (root : Ino) : Prop where
  opened : openRoot t₀ job.root = .ok root
  wellFormed : t.WellFormed
  keeps : FsTree.KeepsDirs t₀ t
  changed : FsTree.ChangesOnly (NewOnWay job t₀ t root) t₀ t

/-- Besides, it has the temporary file. -/
structure TmpIn (t₀ t : FsTree FileName) (root dir file : Ino) (content : List UInt8) : Prop where
  opened : openRoot t₀ job.root = .ok root
  keeps : FsTree.KeepsDirs t₀ t
  walk : t.walkDirs root job.relDir = some dir
  tmp : t.lookup dir job.tmp = some file
  isFile : t.node file = some (.file content)
  only : ∀ n, t.lookup dir n = some file → n = job.tmp
  free : t₀.lookup dir job.tmp = none
  changed : FsTree.ChangesOnly
    (fun d n => d = dir ∧ n = job.tmp ∨ NewOnWay job t₀ t root d n) t₀ t

/-- **The resolved path is what changed**: the destination is the new file, in the directory that the
path leads to from the root, and every other entry that changed is a missing directory on the way to
it, which was added. -/
structure WroteAt (t₀ t : FsTree FileName) (root dir file : Ino) : Prop where
  opened : openRoot t₀ job.root = .ok root
  walk : t.walkDirs root job.relDir = some dir
  entry : t.lookup dir job.fileName = some file
  content : t.node file = some (.file job.bytes)
  changed : FsTree.ChangesOnly
    (fun d n => d = dir ∧ n = job.fileName ∨ NewOnWay job t₀ t root d n) t₀ t
  keeps : FsTree.KeepsDirs t₀ t

/-- What is known in the course of an undisturbed write. -/
def WritePc.Undisturbed (t₀ t : FsTree FileName) : WritePc → Prop
  | .openingRoot => t = t₀
  | .anchoring _ root => Grown job t₀ t root
  | .opening _ root dir done name rest
  | .making _ root dir done name rest
  | .reopening _ root dir done name rest =>
    Grown job t₀ t root ∧ t.walkDirs root done = some dir ∧ done ++ name :: rest = job.relDir
  | .creating root dir => Grown job t₀ t root ∧ t.walkDirs root job.relDir = some dir
  | .filling root dir file => TmpIn job t₀ t root dir file []
  | .publishing root dir => ∃ file, TmpIn job t₀ t root dir file job.bytes
  | .unlinking _ _ _ => True
  | .finished (.error _) => True
  | .finished (.ok _) => ∃ root dir file, WroteAt job t₀ t root dir file

variable {job} {texts : WriteTexts} {first tier : Tier} {t₀ t t' : FsTree FileName} {pc pc' : WritePc}
  {c : Syscall} {root dir file fresh : Ino} {done rest : List FileName} {name : FileName}

/-! ### The walk -/

theorem undisturbed_enter (h : Grown job t₀ t root) (hwalk : t.walkDirs root done = some dir)
    (hsplit : done ++ rest = job.relDir) :
    (enter tier root dir done rest).Undisturbed job t₀ t := by
  cases rest with
  | nil =>
    rw [List.append_nil] at hsplit
    exact ⟨h, hsplit ▸ hwalk⟩
  | cons name rest => exact ⟨h, hwalk, hsplit⟩

/-- Both tiers open the directory that the walk leads to. -/
theorem walkDirs_openDirectory (hwalk : t.walkDirs root done = some dir) {d : Ino}
    (h : openDirectory tier t root dir done name = .ok d) :
    t.walkDirs root (done ++ [name]) = some d := by
  cases tier with
  | openat2 => exact FsTree.openBeneath_ok_iff.1 h
  | walk =>
    rw [FsTree.walkDirs_concat hwalk]
    exact FsTree.walkDirs_singleton_iff.2 (FsTree.openDirAt_ok_iff.1 h)

theorem undisturbed_opened (h : Grown job t₀ t root) (hwalk : t.walkDirs root done = some dir)
    (hsplit : done ++ name :: rest = job.relDir) {d : Ino}
    (hopen : openDirectory tier t root dir done name = .ok d) :
    (enter tier root d (done ++ [name]) rest).Undisturbed job t₀ t := by
  refine undisturbed_enter h (walkDirs_openDirectory hwalk hopen) ?_
  rw [List.append_assoc, List.singleton_append, hsplit]

theorem undisturbed_afterOpening (h : Grown job t₀ t root) (hwalk : t.walkDirs root done = some dir)
    (hsplit : done ++ name :: rest = job.relDir) {result : Except Errno Ino}
    (hresult : ∀ d, result = .ok d → openDirectory tier t root dir done name = .ok d) :
    (afterOpening texts job tier root dir done name rest result).Undisturbed job t₀ t := by
  cases result with
  | error e =>
    rw [afterOpening]
    split
    · exact ⟨h, hwalk, hsplit⟩
    · trivial
  | ok d => exact undisturbed_opened h hwalk hsplit (hresult d rfl)

theorem undisturbed_afterReopening (h : Grown job t₀ t root)
    (hwalk : t.walkDirs root done = some dir) (hsplit : done ++ name :: rest = job.relDir) :
    (afterReopening texts job tier root done name rest
      (openDirectory tier t root dir done name)).Undisturbed job t₀ t := by
  cases hopen : openDirectory tier t root dir done name with
  | error e => trivial
  | ok d => exact undisturbed_opened h hwalk hsplit hopen

theorem undisturbed_afterMaking (h : Grown job t₀ t root) (hwalk : t.walkDirs root done = some dir)
    (hsplit : done ++ name :: rest = job.relDir) (e : Errno) :
    (afterMaking texts job tier root dir done name rest e).Undisturbed job t₀ t := by
  unfold afterMaking
  split
  · exact ⟨h, hwalk, hsplit⟩
  · trivial

theorem Grown.refl (hw : t₀.WellFormed) (h : openRoot t₀ job.root = .ok root) :
    Grown job t₀ t₀ root :=
  ⟨h, hw, FsTree.KeepsDirs.refl t₀, FsTree.ChangesOnly.refl _ t₀⟩

/-! ### What is added -/

theorem NewOnWay.mono {d : Ino} {n : FileName} (hkeeps : FsTree.KeepsDirs t t')
    (h : NewOnWay job t₀ t root d n) : NewOnWay job t₀ t' root d n := by
  obtain ⟨hnew, names, hprefix, hwalk⟩ := h
  exact ⟨hnew, names, hprefix, hkeeps.walkDirs hwalk⟩

/-- A name that is free now was free at the start. -/
theorem Grown.free (h : Grown job t₀ t root) (hfree : t.lookup dir name = none) :
    t₀.lookup dir name = none := by
  by_cases hsame : t.lookup dir name = t₀.lookup dir name
  · rw [← hsame, hfree]
  · exact (h.changed dir name hsame).1

/-- What has changed after a new inode was added. -/
theorem Grown.changed_added {node : Node FileName} (h : Grown job t₀ t root)
    (hadded : FsTree.Added t t' dir name fresh node) :
    FsTree.ChangesOnly (fun d n => d = dir ∧ n = name ∨ NewOnWay job t₀ t' root d n) t₀ t' := by
  intro d n hne
  by_cases hat : d = dir ∧ n = name
  · exact .inl hat
  · rw [hadded.lookup, if_neg hat] at hne
    exact .inr ((h.changed d n hne).mono hadded.keepsDirs)

theorem Grown.mkdirAt (h : Grown job t₀ t root) (hwalk : t.walkDirs root done = some dir)
    (hsplit : done ++ name :: rest = job.relDir)
    (hadded : FsTree.Added t t' dir name fresh (.dir ∅)) : Grown job t₀ t' root where
  opened := h.opened
  wellFormed := by
    refine hadded.wellFormed ?_ h.wellFormed
    obtain ⟨entries, hnode⟩ := FsTree.isDir_iff.1 (hadded.isDir_fresh ∅ rfl)
    rw [hnode]
    simp
  keeps := h.keeps.trans hadded.keepsDirs
  changed := by
    intro d n hne
    obtain hat | hon := h.changed_added hadded d n hne
    · rw [hat.1, hat.2]
      exact ⟨h.free hadded.free, done, prefix_of_split hsplit, hadded.keepsDirs.walkDirs hwalk⟩
    · exact hon

theorem Grown.createAt (h : Grown job t₀ t root) (hwalk : t.walkDirs root job.relDir = some dir)
    (hfresh : t.node fresh = none)
    (hadded : FsTree.Added t t' dir job.tmp fresh (.file [])) :
    TmpIn job t₀ t' root dir fresh [] where
  opened := h.opened
  keeps := h.keeps.trans hadded.keepsDirs
  walk := hadded.keepsDirs.walkDirs hwalk
  tmp := by rw [hadded.lookup, if_pos ⟨rfl, rfl⟩]
  isFile := hadded.node_fresh [] rfl
  only := by
    intro n hn
    by_contra hne
    rw [hadded.lookup, if_neg fun h => hne h.2] at hn
    exact h.wellFormed dir n fresh hn hfresh
  free := h.free hadded.free
  changed := h.changed_added hadded

/-! ### What is written -/

theorem TmpIn.writeFile {content : List UInt8} (h : TmpIn job t₀ t root dir file content)
    (bytes : List UInt8) : TmpIn job t₀ (t.writeFile file bytes) root dir file bytes := by
  have hkeeps := FsTree.keepsDirs_writeFile t file bytes
  refine ⟨h.opened, h.keeps.trans hkeeps, hkeeps.walkDirs h.walk, ?_, ?_, ?_, h.free, ?_⟩
  · rw [FsTree.lookup_writeFile]
    exact h.tmp
  · simp [FsTree.writeFile, FsTree.setNode, h.isFile]
  · intro n hn
    rw [FsTree.lookup_writeFile] at hn
    exact h.only n hn
  · intro d n hne
    rw [FsTree.lookup_writeFile] at hne
    exact (h.changed d n hne).imp_right fun hon => hon.mono hkeeps

theorem TmpIn.isDir {content : List UInt8} (h : TmpIn job t₀ t root dir file content) :
    t.isDir file = false := by
  simp [FsTree.isDir, h.isFile]

theorem TmpIn.renameAt (h : TmpIn job t₀ t root dir file job.bytes)
    (hrename : t.renameAt dir job.tmp job.fileName = .ok t') : WroteAt job t₀ t' root dir file := by
  have hkeeps := FsTree.keepsDirs_renameAt h.tmp h.isDir h.only hrename
  have hlookup := FsTree.lookup_renameAt_file h.tmp h.isDir h.only hrename
  refine ⟨h.opened, hkeeps.walkDirs h.walk, ?_, ?_, ?_, h.keeps.trans hkeeps⟩
  · rw [hlookup, if_pos ⟨rfl, rfl⟩]
  · rw [(FsTree.renameAt_frame hrename).2.2 file h.isDir, h.isFile]
  · intro d n hne
    by_cases hat : d = dir ∧ n = job.fileName
    · exact .inl hat
    · right
      rw [hlookup, if_neg hat] at hne
      by_cases htmp : d = dir ∧ n = job.tmp
      · -- the temporary file has come and gone
        rw [if_pos htmp, htmp.1, htmp.2, h.free] at hne
        exact absurd rfl hne
      · rw [if_neg htmp] at hne
        exact ((h.changed d n hne).resolve_left htmp).mono hkeeps

/-- **What one call does when nobody interferes.** -/
theorem WritePc.step_undisturbed (hw : t₀.WellFormed) (h : pc.Undisturbed job t₀ t)
    (hst : pc.step texts job first t c = some (t', pc')) : pc'.Undisturbed job t₀ t' := by
  unfold WritePc.step at hst
  split at hst
  · -- the root
    split at hst
    · next root hroot =>
      cases hst
      cases h
      unfold rootOpened
      split
      · trivial
      · exact Grown.refl hw hroot
    · cases hst
      trivial
  · cases hst
    trivial
  · -- the anchor
    cases hst
    exact undisturbed_enter h rfl (List.nil_append _)
  · cases hst
    trivial
  · -- a directory
    cases hst
    exact undisturbed_afterOpening h.1 h.2.1 h.2.2 fun _ hd => hd
  · cases hst
    exact undisturbed_afterOpening h.1 h.2.1 h.2.2 fun _ hd => by cases hd
  · cases hst
    exact h.1
  · -- a missing directory
    split at hst
    · next hfresh =>
      split at hst
      · next hmade =>
        cases hst
        have hadded := added_mkdirAt hfresh hmade
        exact ⟨h.1.mkdirAt h.2.1 h.2.2 hadded, hadded.keepsDirs.walkDirs h.2.1, h.2.2⟩
      · cases hst
        exact undisturbed_afterMaking h.1 h.2.1 h.2.2 _
    · cases hst
  · cases hst
    exact undisturbed_afterMaking h.1 h.2.1 h.2.2 _
  · -- a directory after its creation
    cases hst
    exact undisturbed_afterReopening h.1 h.2.1 h.2.2
  · cases hst
    trivial
  · cases hst
    exact h.1
  · -- the temporary file
    split at hst
    · cases hst
      trivial
    · split at hst
      · next hfresh =>
        split at hst
        · next hcreated =>
          cases hst
          exact h.1.createAt h.2 hfresh (added_createAt hfresh hcreated)
        · cases hst
          trivial
      · cases hst
  · cases hst
    trivial
  · -- its content
    cases hst
    exact ⟨_, h.writeFile job.bytes⟩
  · cases hst
    trivial
  · -- its new name
    split at hst
    · cases hst
      trivial
    · split at hst
      · next hrenamed =>
        cases hst
        obtain ⟨file, h⟩ := h
        exact ⟨_, _, _, h.renameAt hrenamed⟩
      · cases hst
        trivial
  · cases hst
    trivial
  · -- its removal
    split at hst
    · cases hst
      trivial
    · cases hst
      trivial
  · cases hst
    trivial
  · cases hst

end Undisturbed

/-! ## The resolved path -/

section Resolved

variable {job : WriteJob} {texts : WriteTexts} {first : Tier} {t₀ t : FsTree FileName}
  {P : FsTree FileName → Prop} {s : WriteRun} {root dir file : Ino}

theorem writeStart_of_not_splits (h : ¬ job.Splits) :
    ∃ message, writeStart texts job = .finished (.error message) := by
  unfold writeStart
  split
  · exact ⟨_, rfl⟩
  · next hdest =>
    split
    · next hprefix =>
      refine absurd ?_ h
      obtain ⟨relDir, hrel⟩ := List.isPrefixOf_iff_prefix.1 hprefix
      rw [WriteJob.Splits, WriteJob.relDir, WriteJob.fileName, ← hrel, List.drop_left, hrel,
        List.getLast?_eq_some_getLast hdest, Option.getD_some, List.dropLast_concat_getLast]
    · exact ⟨_, rfl⟩

/-- A write that succeeds is of a destination below its root. -/
theorem splits_of_finished (hr : (writing texts job first P).Reachable s)
    (hpc : s.pc = .finished (.ok ())) : job.Splits := by
  by_contra hnot
  have herror : ∃ message, s.pc = .finished (.error message) := by
    refine System.ReachableWhile.invariant
      (P := fun u : WriteRun => ∃ message, u.pc = .finished (.error message)) ?_ ?_ hr
    · intro u hu
      rw [hu.2]
      exact writeStart_of_not_splits hnot
    · intro u a u' hu _ hst
      obtain ⟨message, hu⟩ := hu
      cases a with
      | call c =>
        obtain ⟨r, hr, -⟩ := Option.map_eq_some_iff.1 hst
        rw [hu] at hr
        cases hr
      | interfere t =>
        cases hst
        exact ⟨message, hu⟩
  obtain ⟨message, herror⟩ := herror
  rw [hpc] at herror
  cases herror

/-- A root without symbolic links is opened where its path leads. -/
theorem openRoot_of_walkDirs {path : AbsolutePath} {r : Ino}
    (hwalk : t.walkDirs t.root path = some r) (hopen : openRoot t path = .ok root) : root = r := by
  unfold openRoot at hopen
  split at hopen
  · next hnil =>
    rw [List.getLast?_eq_none_iff.1 hnil] at hwalk
    split at hopen
    · cases hopen
      exact Option.some.inj hwalk
    · cases hopen
  · next name hname =>
    have hpath := List.dropLast_append_getLast? name hname
    rw [← hpath, FsTree.walkDirs_append] at hwalk
    obtain ⟨d, hd, hwalk⟩ := Option.bind_eq_some_iff.1 hwalk
    rw [FsTree.resolve_walkDirs maxLinks hd] at hopen
    dsimp only at hopen
    rw [FsTree.realWalk_of_walkDirs hd] at hopen
    obtain ⟨hlookup, -⟩ := FsTree.openDirAt_ok_iff.1 hopen
    exact Option.some.inj (hlookup.symm.trans (FsTree.walkDirs_singleton_iff.1 hwalk).1)

/-- The destination's path has no symbolic link when the root's path has none. -/
theorem WroteAt.realWalk (h : WroteAt job t₀ t root dir file) (hsplits : job.Splits)
    (hroot : (t₀.walkDirs t₀.root job.root).isSome = true) :
    t.realWalk t.root job.dest = some file := by
  obtain ⟨r, hr⟩ := Option.isSome_iff_exists.1 hroot
  obtain rfl := openRoot_of_walkDirs hr h.opened
  have hwalk : t.walkDirs t.root (job.root ++ job.relDir) = some dir := by
    rw [FsTree.walkDirs_append, h.keeps.root, h.keeps.walkDirs hr, Option.bind_some, h.walk]
  have hfile : t.isSymlink file = false := by simp [FsTree.isSymlink, h.content]
  rw [hsplits, FsTree.realWalk_append, FsTree.realWalk_of_walkDirs hwalk, Option.bind_some,
    FsTree.realWalk_singleton h.entry hfile]

theorem undisturbed_run (hw : t₀.WellFormed)
    (hr : (writing texts job first (· = t₀)).ReachableWhile Unchanged s) :
    s.pc.Undisturbed job t₀ s.tree := by
  refine System.ReachableWhile.invariant
    (P := fun u : WriteRun => u.pc.Undisturbed job t₀ u.tree) ?_ ?_ hr
  · intro u hu
    obtain ⟨htree, hu⟩ := hu
    rw [hu]
    unfold writeStart
    split
    · trivial
    · split
      · split
        · trivial
        · exact htree
      · trivial
  · intro u a u' h hok hst
    obtain ⟨c, rfl⟩ := hok
    obtain ⟨r, hr, rfl⟩ := Option.map_eq_some_iff.1 hst
    exact WritePc.step_undisturbed hw h hr

/-- **Containment.** For a path that the resolver accepts, with whatever answers:

- the destination is inside the allowlisted root it is returned with;
- whatever others do to the tree between the calls of the write, each call changes only entries of
  directories reached from that root, and fills only a file of its own;
- when nobody else changes the tree, a write that succeeds has changed the entry at the resolved path,
  and otherwise only added directories that were missing on the way. -/
theorem write_contained {texts : WriteTexts} {answers : PathAnswers} {op pathStr : String}
    {writeRoots : List AbsolutePath} {dest root : AbsolutePath}
    (h : resolveWritePath answers texts.display op pathStr writeRoots = .ok (dest, root))
    (bytes : List UInt8) (tmp : FileName) (first : Tier) :
    (root ∈ writeRoots ∧ root <+: dest) ∧
    (∀ P c s s', (writing texts ⟨op, dest, bytes, root, tmp⟩ first P).Reachable s →
      (writing texts ⟨op, dest, bytes, root, tmp⟩ first P).step s (.call c) = some s' →
      Contained ⟨op, dest, bytes, root, tmp⟩ s.seen s.tree s'.tree) ∧
    ∀ t₀ s, t₀.WellFormed → answers = treeAnswers texts.describe t₀ →
      (writing texts ⟨op, dest, bytes, root, tmp⟩ first (· = t₀)).ReachableWhile Unchanged s →
      s.pc = .finished (.ok ()) →
      ResolvesTo t₀ pathStr dest ∧
      ∃ r dir file, WroteAt ⟨op, dest, bytes, root, tmp⟩ t₀ s.tree r dir file ∧
        ((t₀.walkDirs t₀.root root).isSome = true →
          s.tree.realWalk s.tree.root dest = some file) := by
  obtain ⟨hmem, hprefix, -⟩ := resolveWritePath_eq_ok h
  refine ⟨⟨hmem, hprefix⟩, fun P c s s' hr hst => write_reached hr hst, ?_⟩
  rintro t₀ s hw rfl hr hpc
  refine ⟨resolveWritePath_resolvesTo h, ?_⟩
  have hdone := undisturbed_run hw hr
  rw [hpc] at hdone
  obtain ⟨r, dir, file, hwrote⟩ := hdone
  exact ⟨r, dir, file, hwrote, hwrote.realWalk (splits_of_finished hr.reachable hpc)⟩

end Resolved

/-! ## A write and a swap -/

section Notes

def notesTree : FsTree FileName where
  root := 0
  node
    | 0 => some (.dir (AList.insert [0x77] 1 (AList.insert [0x78] 2 ∅)))
    | 1 => some (.dir ∅)
    | 2 => some (.dir ∅)
    | _ => none

theorem notesTree_wellFormed : notesTree.WellFormed := by
  intro d n i hi
  match d with
  | 0 =>
    have hi : (AList.insert [0x77] 1 (AList.insert [0x78] 2 ∅) : Table FileName Ino).lookup n =
        some i := hi
    rcases AList.lookup_insert_cases hi with ⟨-, rfl⟩ | ⟨-, hi⟩
    · exact fun h => by cases h
    · rcases AList.lookup_insert_cases hi with ⟨-, rfl⟩ | ⟨-, hi⟩
      · exact fun h => by cases h
      · cases hi
  | 1 => cases hi
  | 2 => cases hi
  | _ + 3 => cases hi

/-- The directory `/w/d`, inode 3, has been moved to `/x/d`, and a link to it is at `/w/d`. -/
def swappedTree : FsTree FileName where
  root := 0
  node
    | 1 => some (.dir (AList.insert [0x64] 7 ∅))
    | 2 => some (.dir (AList.insert [0x64] 3 ∅))
    | 3 => some (.dir ∅)
    | 7 => some (.symlink ⟨true, [.name [0x78], .name [0x64]]⟩)
    | i => notesTree.node i

def noteTexts : WriteTexts := ⟨fun _ => "", fun _ => ""⟩

def noteJob : WriteJob where
  op := "writeFile"
  dest := [[0x77], [0x64], [0x61]]
  bytes := [0x68, 0x69]
  root := [[0x77]]
  tmp := writeTmpName (fun _ => "a") [0x61] 1 2 3

def makesDir : List WriteAction :=
  [.call (.proceed 0), .call (.proceed 0), .call (.proceed 0), .call (.proceed 3),
    .call (.proceed 0)]

def fillsNote : List WriteAction := [.call (.proceed 4), .call (.proceed 0), .call (.proceed 0)]

def noteStart : WriteRun := ⟨notesTree, [notesTree], writeStart noteTexts noteJob⟩

def notesWriting : System WriteRun WriteAction :=
  writing noteTexts noteJob .openat2 (· = notesTree)

def noteSwapped : WriteRun :=
  (notesWriting.run noteStart (makesDir ++ [.interfere swappedTree])).getD noteStart

def noteTmpCreated : WriteRun := (notesWriting.step noteSwapped (.call (.proceed 4))).getD noteStart

def noteWritten : WriteRun :=
  (notesWriting.runWhile (fun _ a => a matches .call _) noteStart (makesDir ++ fillsNote)).getD
    noteStart

/-- `write_contained` for one path: with a swap before the temporary file is created, and without. -/
theorem note_write_contained :
    (noteSwapped.tree.realWalk noteSwapped.tree.root [[0x77], [0x64]] = none ∧
      Contained noteJob noteSwapped.seen noteSwapped.tree noteTmpCreated.tree) ∧
    ResolvesTo notesTree "/w/d/a" noteJob.dest ∧
      ∃ file, noteWritten.tree.realWalk noteWritten.tree.root noteJob.dest = some file := by
  have hresolved : resolveWritePath (treeAnswers noteTexts.describe notesTree) noteTexts.display
      "writeFile" "/w/d/a" [[[0x77]]] = .ok (noteJob.dest, noteJob.root) := rfl
  obtain ⟨-, hswap, hquiet⟩ := write_contained hresolved noteJob.bytes noteJob.tmp .openat2
  have hstart : notesWriting.init noteStart := ⟨rfl, rfl⟩
  constructor
  · have hrun : notesWriting.run noteStart (makesDir ++ [.interfere swappedTree]) =
        some noteSwapped := rfl
    have hreach := System.Reachable.run (System.Reachable.init hstart) hrun
    have hstep : notesWriting.step noteSwapped (.call (.proceed 4)) = some noteTmpCreated := rfl
    exact ⟨rfl, hswap _ _ _ _ hreach hstep⟩
  · have hrun : notesWriting.runWhile (fun _ a => a matches .call _) noteStart
        (makesDir ++ fillsNote) = some noteWritten := rfl
    have hreach : notesWriting.ReachableWhile Unchanged noteWritten := by
      refine System.ReachableWhile.run ?_ (.init hstart) hrun
      intro s a ha
      cases a with
      | call c => exact ⟨c, rfl⟩
      | interfere t => cases ha
    obtain ⟨hresolves, r, dir, file, -, hwalk⟩ :=
      hquiet notesTree noteWritten notesTree_wellFormed rfl hreach rfl
    exact ⟨hresolves, file, hwalk rfl⟩

end Notes

end EndaraRelay
