import EndaraRelay.Lib.Table

/-!
# File trees

A file system as a graph of inodes: directories with named entries, files and symbolic links. The
names of entries are of any type; a path text is a list of segments, a name, the directory itself or
its parent.

**Walking.** `walkDirs` goes from a directory through entries that are directories themselves, and
`realWalk` through entries that are not symbolic links. Neither follows a link. `resolve` is the
lookup of a path text, which does.

**Changing.** Each operation is a partial function on trees: a new inode under a free name, a rename
within a directory, a removal. `ChangesOnly` says which entries it changes; `lookup_renameAt_file` and
`Added` say what they are afterwards.
-/

namespace Verif.FileTree

/-- The number of an inode. -/
abbrev Ino := Nat

/-- A segment of a path text. -/
inductive Segment (N : Type) where
  | stay
  | up
  | name (n : N)
deriving DecidableEq, Repr

/-- Where a symbolic link points. -/
structure Target (N : Type) where
  absolute : Bool
  segments : List (Segment N)
deriving DecidableEq, Repr

inductive Node (N : Type) where
  | dir (entries : Table N Ino)
  | file (content : List UInt8)
  | symlink (target : Target N)

structure FsTree (N : Type) where
  root : Ino
  node : Ino → Option (Node N)

/-- Why a system call fails. -/
inductive Errno where
  | notFound
  | notADirectory
  | isADirectory
  | alreadyExists
  | notEmpty
  | symlinkLoop
  | crossDevice
  | other (code : Nat)
deriving DecidableEq, Repr

namespace FsTree

variable {N : Type}

/-! ## Inodes -/

def isDir (t : FsTree N) (i : Ino) : Bool :=
  match t.node i with
  | some (.dir _) => true
  | _ => false

def isSymlink (t : FsTree N) (i : Ino) : Bool :=
  match t.node i with
  | some (.symlink _) => true
  | _ => false

def setNode (t : FsTree N) (i : Ino) (node : Node N) : FsTree N :=
  { t with node := fun j => if j = i then some node else t.node j }

/-- Edit the entries of a directory; nothing happens to what is not one. -/
def modifyDir (t : FsTree N) (d : Ino) (f : Table N Ino → Table N Ino) : FsTree N :=
  match t.node d with
  | some (.dir entries) => t.setNode d (.dir (f entries))
  | _ => t

/-- Fill an open file. -/
def writeFile (t : FsTree N) (i : Ino) (bytes : List UInt8) : FsTree N :=
  match t.node i with
  | some (.file _) => t.setNode i (.file bytes)
  | _ => t

/-- Whether a directory is empty. -/
def isEmptyDir (t : FsTree N) (i : Ino) : Bool :=
  match t.node i with
  | some (.dir entries) => entries.entries.isEmpty
  | _ => false

section Inodes

variable {t : FsTree N} {d i : Ino}

theorem isDir_iff : t.isDir d = true ↔ ∃ entries, t.node d = some (.dir entries) := by
  unfold isDir
  split
  · next entries h => exact ⟨fun _ => ⟨entries, h⟩, fun _ => rfl⟩
  · next hnot =>
    refine ⟨fun h => absurd h Bool.false_ne_true, fun h => ?_⟩
    obtain ⟨entries, h⟩ := h
    exact absurd h (hnot entries)

@[simp] theorem root_setNode (i : Ino) (node : Node N) : (t.setNode i node).root = t.root := rfl

@[simp] theorem root_modifyDir (d : Ino) (f : Table N Ino → Table N Ino) :
    (t.modifyDir d f).root = t.root := by
  unfold modifyDir
  split
  · rfl
  · rfl

/-- Editing entries changes no file and no link. -/
theorem node_modifyDir (f : Table N Ino → Table N Ino) (h : t.isDir i = false) :
    (t.modifyDir d f).node i = t.node i := by
  unfold modifyDir
  split
  · next entries hd =>
    refine if_neg ?_
    rintro rfl
    rw [isDir, hd] at h
    cases h
  · rfl

@[simp] theorem isDir_modifyDir (f : Table N Ino → Table N Ino) :
    (t.modifyDir d f).isDir i = t.isDir i := by
  unfold modifyDir
  split
  · next entries hd =>
    by_cases hi : i = d
    · rw [hi]
      simp [isDir, setNode, hd]
    · simp [isDir, setNode, hi]
  · rfl

end Inodes

/-! ## Looking -/

variable [DecidableEq N]

/-- The entry `n` of the directory `d`. -/
def lookup (t : FsTree N) (d : Ino) (n : N) : Option Ino :=
  match t.node d with
  | some (.dir entries) => entries.lookup n
  | _ => none

/-- The directory at the end of a chain of directories. -/
def walkDirs (t : FsTree N) : Ino → List N → Option Ino
  | d, [] => some d
  | d, n :: names =>
    match t.lookup d n with
    | some i => if t.isDir i then t.walkDirs i names else none
    | none => none

/-- What is at the end of a path without symbolic links. -/
def realWalk (t : FsTree N) : Ino → List N → Option Ino
  | d, [] => some d
  | d, n :: names =>
    match t.lookup d n with
    | some i => if t.isSymlink i then none else t.realWalk i names
    | none => none

/-- Open the directory `n` in `d` without following a symbolic link. -/
def openDirAt (t : FsTree N) (d : Ino) (n : N) : Except Errno Ino :=
  match t.lookup d n with
  | none => .error .notFound
  | some i =>
    if t.isDir i then .ok i
    else if t.isSymlink i then .error .symlinkLoop
    else .error .notADirectory

/-- Open a directory beneath `d` in one call that follows no symbolic link. -/
def openBeneath (t : FsTree N) : Ino → List N → Except Errno Ino
  | d, [] => .ok d
  | d, n :: names =>
    match t.openDirAt d n with
    | .error e => .error e
    | .ok i => t.openBeneath i names

/-- One stretch of a lookup, up to the first symbolic link; `p` is the real path so far. -/
def resolveWith (t : FsTree N) (follow : List N → List (Segment N) → Option (List N)) :
    List N → List (Segment N) → Option (List N)
  | p, [] => some p
  | p, s :: rest =>
    match t.realWalk t.root p with
    | none => none
    | some d =>
      if t.isDir d then
        match s with
        | .stay => t.resolveWith follow p rest
        | .up => t.resolveWith follow p.dropLast rest
        | .name n =>
          match t.lookup d n with
          | none => none
          | some i =>
            match t.node i with
            | some (.symlink target) =>
              follow (if target.absolute then [] else p) (target.segments ++ rest)
            | _ => t.resolveWith follow (p ++ [n]) rest
      else none

/-- The real path of a path text that is looked up from `p`, along at most `links` symbolic links. -/
def resolve (t : FsTree N) : Nat → List N → List (Segment N) → Option (List N)
  | 0 => t.resolveWith fun _ _ => none
  | links + 1 => t.resolveWith (t.resolve links)

/-! ## Changing -/

def link (t : FsTree N) (d : Ino) (n : N) (i : Ino) : FsTree N := t.modifyDir d (AList.insert n i)

def unlink (t : FsTree N) (d : Ino) (n : N) : FsTree N := t.modifyDir d (AList.erase n)

/-- Put a new inode under a name that is free. -/
def addAt (t : FsTree N) (d : Ino) (n : N) (fresh : Ino) (node : Node N) : Except Errno (FsTree N) :=
  if t.isDir d then
    match t.lookup d n with
    | some _ => .error .alreadyExists
    | none => .ok ((t.setNode fresh node).link d n fresh)
  else .error .notFound

def mkdirAt (t : FsTree N) (d : Ino) (n : N) (fresh : Ino) : Except Errno (FsTree N) :=
  t.addAt d n fresh (.dir ∅)

/-- Create a file that must not exist yet. -/
def createAt (t : FsTree N) (d : Ino) (n : N) (fresh : Ino) : Except Errno (FsTree N) :=
  t.addAt d n fresh (.file [])

/-- Rename an entry within a directory, replacing what has the new name. -/
def renameAt (t : FsTree N) (d : Ino) (source target : N) : Except Errno (FsTree N) :=
  match t.lookup d source with
  | none => .error .notFound
  | some i =>
    match t.lookup d target with
    | none => .ok ((t.link d target i).unlink d source)
    | some j =>
      if i = j then .ok t
      else if t.isDir j then
        if !t.isDir i then .error .isADirectory
        else if t.isEmptyDir j then .ok ((t.link d target i).unlink d source)
        else .error .notEmpty
      else if t.isDir i then .error .notADirectory
      else .ok ((t.link d target i).unlink d source)

def unlinkAt (t : FsTree N) (d : Ino) (n : N) : Except Errno (FsTree N) :=
  match t.lookup d n with
  | none => .error .notFound
  | some i => if t.isDir i then .error .isADirectory else .ok (t.unlink d n)

/-- Every entry refers to an inode. -/
def WellFormed (t : FsTree N) : Prop := ∀ d n i, t.lookup d n = some i → t.node i ≠ none

/-! ## What the operations change -/

variable {t t' : FsTree N} {d i fresh : Ino} {n : N}

theorem lookup_of_not_isDir (h : t.isDir d = false) (n : N) : t.lookup d n = none := by
  unfold lookup
  split
  · next entries hd =>
    rw [isDir, hd] at h
    cases h
  · rfl

theorem isDir_of_lookup (h : t.lookup d n = some i) : t.isDir d = true := by
  cases hd : t.isDir d with
  | true => rfl
  | false =>
    rw [lookup_of_not_isDir hd] at h
    cases h

theorem lookup_modifyDir_ne {d' : Ino} (hne : d' ≠ d) (f : Table N Ino → Table N Ino) (n : N) :
    (t.modifyDir d f).lookup d' n = t.lookup d' n := by
  unfold modifyDir
  split
  · simp [lookup, setNode, hne]
  · rfl

theorem lookup_link_self (h : t.isDir d = true) (n : N) (i : Ino) (n' : N) :
    (t.link d n i).lookup d n' = if n' = n then some i else t.lookup d n' := by
  obtain ⟨entries, hd⟩ := isDir_iff.1 h
  unfold link modifyDir
  rw [hd]
  by_cases hn : n' = n
  · subst hn
    simp [lookup, setNode]
  · simp [lookup, setNode, hd, hn]

theorem lookup_link (h : t.isDir d = true) (n : N) (i d' : Ino) (n' : N) :
    (t.link d n i).lookup d' n' = if d' = d ∧ n' = n then some i else t.lookup d' n' := by
  by_cases hd : d' = d
  · rw [hd, lookup_link_self h]
    simp
  · rw [link, lookup_modifyDir_ne hd, if_neg fun h => hd h.1]

theorem lookup_unlink (t : FsTree N) (d : Ino) (n : N) (d' : Ino) (n' : N) :
    (t.unlink d n).lookup d' n' = if d' = d ∧ n' = n then none else t.lookup d' n' := by
  by_cases hd : d' = d
  · rw [hd]
    unfold unlink modifyDir
    split
    · next entries hnode =>
      by_cases hn : n' = n
      · subst hn
        simp [lookup, setNode]
      · simp [lookup, setNode, hnode, hn]
    · next hnot =>
      have hdir : t.isDir d = false := by
        rw [Bool.eq_false_iff]
        intro h
        obtain ⟨entries, h⟩ := isDir_iff.1 h
        exact hnot entries h
      rw [lookup_of_not_isDir hdir]
      simp
  · rw [unlink, lookup_modifyDir_ne hd, if_neg fun h => hd h.1]

/-- What `addAt` does when it succeeds. -/
structure Added (t t' : FsTree N) (d : Ino) (n : N) (fresh : Ino) (node : Node N) : Prop where
  root : t'.root = t.root
  free : t.lookup d n = none
  lookup : ∀ d' n', t'.lookup d' n' = if d' = d ∧ n' = n then some fresh else t.lookup d' n'
  isDir : ∀ i, i ≠ fresh → t'.isDir i = t.isDir i
  isNew : t.isDir fresh = false
  isDir_fresh : ∀ entries, node = .dir entries → t'.isDir fresh = true
  node_other : ∀ i, i ≠ fresh → t.isDir i = false → t'.node i = t.node i
  node_fresh : ∀ content, node = .file content → t'.node fresh = some node

variable {node : Node N} {source target : N}

theorem addAt_spec (hfresh : t.node fresh = none)
    (hempty : ∀ entries, node = .dir entries → entries = ∅) (h : t.addAt d n fresh node = .ok t') :
    Added t t' d n fresh node := by
  unfold addAt at h
  split at h
  · next hdir =>
    split at h
    · cases h
    · next hfree =>
      cases h
      have hnew : t.isDir fresh = false := by simp [FsTree.isDir, hfresh]
      have hne : d ≠ fresh := by
        rintro rfl
        exact absurd (hnew.symm.trans hdir) Bool.false_ne_true
      have hset : ∀ i, i ≠ fresh → (t.setNode fresh node).isDir i = t.isDir i := fun i hi => by
        simp [FsTree.isDir, setNode, hi]
      have hlookup : ∀ d' n', (t.setNode fresh node).lookup d' n' = t.lookup d' n' := by
        intro d' n'
        by_cases hd : d' = fresh
        · rw [hd, lookup_of_not_isDir hnew]
          unfold FsTree.lookup
          rw [show (t.setNode fresh node).node fresh = some node from if_pos rfl]
          split
          · next entries heq =>
            rw [hempty entries (Option.some.inj heq)]
            rfl
          · rfl
        · simp [FsTree.lookup, setNode, hd]
      refine ⟨?_, hfree, ?_, ?_, hnew, ?_, ?_, ?_⟩
      · simp [link]
      · intro d' n'
        rw [lookup_link ((hset d hne).trans hdir), hlookup]
      · intro i hi
        rw [link, isDir_modifyDir, hset i hi]
      · rintro entries rfl
        rw [link, isDir_modifyDir]
        simp [FsTree.isDir, setNode]
      · intro i hi hdir'
        rw [link, node_modifyDir _ ((hset i hi).trans hdir')]
        exact if_neg hi
      · rintro content rfl
        rw [link, node_modifyDir _ (by simp [FsTree.isDir, setNode])]
        exact if_pos rfl
  · cases h

theorem isDir_link (n : N) (i j : Ino) : (t.link d n i).isDir j = t.isDir j := isDir_modifyDir _

theorem isDir_unlink (n : N) (j : Ino) : (t.unlink d n).isDir j = t.isDir j := isDir_modifyDir _

/-- The tree after a rename that is not refused. -/
theorem lookup_renamed (hd : t.isDir d = true) (source target : N) (i d' : Ino) (n' : N) :
    ((t.link d target i).unlink d source).lookup d' n' =
      if d' = d ∧ n' = source then none
      else if d' = d ∧ n' = target then some i else t.lookup d' n' := by
  rw [lookup_unlink, lookup_link hd]

/-- The entries at which two trees differ are among `S`. -/
def ChangesOnly (S : Ino → N → Prop) (t t' : FsTree N) : Prop :=
  ∀ d n, t'.lookup d n ≠ t.lookup d n → S d n

theorem ChangesOnly.refl (S : Ino → N → Prop) (t : FsTree N) : ChangesOnly S t t :=
  fun _ _ h => absurd rfl h

/-- The files and links at which two trees differ are among `S`. -/
def FillsOnly (S : Ino → Prop) (t t' : FsTree N) : Prop :=
  ∀ i, t.isDir i = false → t'.node i ≠ t.node i → S i

omit [DecidableEq N] in
theorem FillsOnly.refl (S : Ino → Prop) (t : FsTree N) : FillsOnly S t t :=
  fun _ _ h => absurd rfl h

theorem Added.changesOnly (h : Added t t' d n fresh node) :
    ChangesOnly (fun d' n' => d' = d ∧ n' = n) t t' := by
  intro d' n' hne
  by_contra hnot
  rw [h.lookup, if_neg hnot] at hne
  exact hne rfl

theorem Added.fillsOnly (h : Added t t' d n fresh node) : FillsOnly (fun i => i = fresh) t t' := by
  intro i hi hne
  by_contra hfresh
  exact hne (h.node_other i hfresh hi)

theorem Added.wellFormed (h : Added t t' d n fresh node) (hmade : t'.node fresh ≠ none)
    (hw : t.WellFormed) : t'.WellFormed := by
  intro d' n' i hi
  by_cases hif : i = fresh
  · rw [hif]
    exact hmade
  · rw [h.lookup] at hi
    split at hi
    · cases hi
      exact absurd rfl hif
    · have hi := hw d' n' i hi
      cases hdir : t.isDir i with
      | false =>
        rw [h.node_other i hif hdir]
        exact hi
      | true =>
        obtain ⟨entries, hnode⟩ := isDir_iff.1 ((h.isDir i hif).trans hdir)
        rw [hnode]
        simp

theorem changesOnly_renameAt (h : t.renameAt d source target = .ok t') :
    ChangesOnly (fun d' n' => d' = d ∧ (n' = source ∨ n' = target)) t t' := by
  have hrenamed : ∀ i, t.lookup d source = some i →
      ChangesOnly (fun d' n' => d' = d ∧ (n' = source ∨ n' = target)) t
        ((t.link d target i).unlink d source) := by
    intro i hi d' n' hne
    rw [lookup_renamed (isDir_of_lookup hi)] at hne
    split at hne
    · next hsource => exact ⟨hsource.1, .inl hsource.2⟩
    · split at hne
      · next htarget => exact ⟨htarget.1, .inr htarget.2⟩
      · exact absurd rfl hne
  unfold renameAt at h
  split at h
  · cases h
  · next i hi =>
    split at h
    · cases h
      exact hrenamed i hi
    · split at h
      · cases h
        exact ChangesOnly.refl _ _
      · split at h
        · split at h
          · cases h
          · split at h
            · cases h
              exact hrenamed i hi
            · cases h
        · split at h
          · cases h
          · cases h
            exact hrenamed i hi

theorem changesOnly_unlinkAt (h : t.unlinkAt d n = .ok t') :
    ChangesOnly (fun d' n' => d' = d ∧ n' = n) t t' := by
  unfold unlinkAt at h
  split at h
  · cases h
  · split at h
    · cases h
    · cases h
      intro d' n' hne
      by_contra hnot
      rw [lookup_unlink, if_neg hnot] at hne
      exact hne rfl

theorem fillsOnly_unlinkAt (S : Ino → Prop) (h : t.unlinkAt d n = .ok t') : FillsOnly S t t' := by
  unfold unlinkAt at h
  split at h
  · cases h
  · split at h
    · cases h
    · cases h
      intro i hi hne
      exact absurd (node_modifyDir _ hi) hne

omit [DecidableEq N] in
theorem fillsOnly_writeFile (t : FsTree N) (i : Ino) (bytes : List UInt8) :
    FillsOnly (fun j => j = i) t (t.writeFile i bytes) := by
  intro j _ hne
  by_contra hj
  refine hne ?_
  unfold writeFile
  split
  · exact if_neg hj
  · rfl

@[simp] theorem lookup_writeFile (t : FsTree N) (i : Ino) (bytes : List UInt8) (d : Ino) (n : N) :
    (t.writeFile i bytes).lookup d n = t.lookup d n := by
  unfold writeFile
  split
  · next content hi =>
    by_cases hd : d = i
    · rw [hd]
      simp [lookup, setNode, hi]
    · simp [lookup, setNode, hd]
  · rfl

omit [DecidableEq N] in
@[simp] theorem isDir_writeFile (t : FsTree N) (i : Ino) (bytes : List UInt8) (d : Ino) :
    (t.writeFile i bytes).isDir d = t.isDir d := by
  unfold writeFile
  split
  · next content hi =>
    by_cases hd : d = i
    · rw [hd]
      simp [isDir, setNode, hi]
    · simp [isDir, setNode, hd]
  · rfl

omit [DecidableEq N] in
@[simp] theorem root_writeFile (t : FsTree N) (i : Ino) (bytes : List UInt8) :
    (t.writeFile i bytes).root = t.root := by
  unfold writeFile
  split
  · rfl
  · rfl

/-- Renaming a file that has one name only. -/
theorem lookup_renameAt_file (hsource : t.lookup d source = some i) (hfile : t.isDir i = false)
    (honly : ∀ n, t.lookup d n = some i → n = source) (h : t.renameAt d source target = .ok t')
    (d' : Ino) (n' : N) :
    t'.lookup d' n' = if d' = d ∧ n' = target then some i
      else if d' = d ∧ n' = source then none else t.lookup d' n' := by
  have hrenamed : target ≠ source → ((t.link d target i).unlink d source).lookup d' n' =
      if d' = d ∧ n' = target then some i
      else if d' = d ∧ n' = source then none else t.lookup d' n' := by
    intro hne
    rw [lookup_renamed (isDir_of_lookup hsource)]
    by_cases htarget : d' = d ∧ n' = target
    · rw [if_neg fun h' => hne (htarget.2.symm.trans h'.2), if_pos htarget, if_pos htarget]
    · rw [if_neg htarget, if_neg htarget]
  unfold renameAt at h
  rw [hsource] at h
  dsimp only at h
  split at h
  · next hfree =>
    cases h
    refine hrenamed ?_
    rintro rfl
    exact absurd (hfree.symm.trans hsource) (by simp)
  · next j hj =>
    split at h
    · next hij =>
      cases h
      have htarget := honly target (hj.trans (congrArg some hij.symm))
      by_cases hcase : d' = d ∧ n' = target
      · rw [if_pos hcase, hcase.1, hcase.2, htarget, hsource]
      · rw [if_neg hcase, if_neg fun h' => hcase ⟨h'.1, h'.2.trans htarget.symm⟩]
    · next hij =>
      have hne : target ≠ source := by
        rintro rfl
        exact hij (Option.some.inj (hsource.symm.trans hj))
      rw [hfile] at h
      split at h
      · cases h
      · cases h
        exact hrenamed hne

/-- Where a file was renamed to, there was no directory. -/
theorem isDir_target_of_renameAt (hsource : t.lookup d source = some i) (hfile : t.isDir i = false)
    (h : t.renameAt d source target = .ok t') {j : Ino} (hj : t.lookup d target = some j) :
    t.isDir j = false := by
  unfold renameAt at h
  rw [hsource, hj] at h
  dsimp only at h
  split at h
  · next hij => rw [← hij, hfile]
  · rw [hfile] at h
    cases hdir : t.isDir j with
    | false => rfl
    | true =>
      rw [hdir] at h
      cases h

/-- Renaming changes entries only. -/
theorem renameAt_frame (h : t.renameAt d source target = .ok t') :
    t'.root = t.root ∧ (∀ j, t'.isDir j = t.isDir j) ∧
      ∀ j, t.isDir j = false → t'.node j = t.node j := by
  have hrenamed : ∀ i, ((t.link d target i).unlink d source).root = t.root ∧
      (∀ j, ((t.link d target i).unlink d source).isDir j = t.isDir j) ∧
        ∀ j, t.isDir j = false → ((t.link d target i).unlink d source).node j = t.node j := by
    intro i
    refine ⟨by simp [link, unlink], fun j => by rw [isDir_unlink, isDir_link], fun j hj => ?_⟩
    rw [unlink, node_modifyDir _ ((isDir_link target i j).trans hj), link, node_modifyDir _ hj]
  unfold renameAt at h
  split at h
  · cases h
  · next i hi =>
    split at h
    · cases h
      exact hrenamed i
    · split at h
      · cases h
        exact ⟨rfl, fun _ => rfl, fun _ _ => rfl⟩
      · split at h
        · split at h
          · cases h
          · split at h
            · cases h
              exact hrenamed i
            · cases h
        · split at h
          · cases h
          · cases h
            exact hrenamed i

end FsTree

end Verif.FileTree
