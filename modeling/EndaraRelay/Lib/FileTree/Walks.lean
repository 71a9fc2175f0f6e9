import EndaraRelay.Lib.FileTree

/-!
# Walks in a file tree

- `KeepsDirs`: a change that leaves every entry alone that is a directory. It keeps every walk through
  directories (`KeepsDirs.walkDirs`), and the operations are such changes.
- `realWalk_resolve`: the lookup of a path text ends at a path without symbolic links.
  `resolve_walkDirs`: it leaves a path through directories as it is.
- Under interference a walk is made in one tree after another. `Reached seen root names d`: the
  directory `d` is reached from `root` by lookups, each of which found a directory in one of the trees
  of `seen`.
-/

namespace Verif.FileTree

variable {root : Ino}

namespace FsTree

variable {N : Type} [DecidableEq N] {t t' : FsTree N} {d i fresh : Ino} {n : N}

/-! ## Walks -/

theorem openDirAt_ok_iff : t.openDirAt d n = .ok i ↔ t.lookup d n = some i ∧ t.isDir i = true := by
  unfold openDirAt
  split
  · next h => simp [h]
  · next j h =>
    rw [h]
    split
    · next hj =>
      constructor
      · intro heq
        cases heq
        exact ⟨rfl, hj⟩
      · intro heq
        cases heq.1
        rfl
    · next hj =>
      refine ⟨fun heq => ?_, fun heq => ?_⟩
      · split at heq
        · cases heq
        · cases heq
      · cases heq.1
        exact absurd heq.2 hj

theorem walkDirs_cons (d : Ino) (n : N) (names : List N) :
    t.walkDirs d (n :: names) = (t.walkDirs d [n]).bind fun e => t.walkDirs e names := by
  simp only [walkDirs]
  cases t.lookup d n with
  | none => rfl
  | some i =>
    dsimp only
    split
    · rfl
    · rfl

theorem walkDirs_append (d : Ino) (a b : List N) :
    t.walkDirs d (a ++ b) = (t.walkDirs d a).bind fun e => t.walkDirs e b := by
  induction a generalizing d with
  | nil => rfl
  | cons n a ih =>
    rw [List.cons_append, walkDirs_cons, walkDirs_cons d n a, Option.bind_assoc]
    congr 1
    funext e
    exact ih e

theorem walkDirs_singleton_iff :
    t.walkDirs d [n] = some i ↔ t.lookup d n = some i ∧ t.isDir i = true := by
  simp only [walkDirs]
  cases t.lookup d n with
  | none => simp
  | some j =>
    dsimp only
    split
    · next hj =>
      constructor
      · intro heq
        cases heq
        exact ⟨rfl, hj⟩
      · intro heq
        exact heq.1
    · next hj =>
      refine ⟨fun heq => absurd heq (by simp), fun heq => ?_⟩
      cases heq.1
      exact absurd heq.2 hj

variable {names : List N} {segments : List (Segment N)}

theorem walkDirs_concat (h : t.walkDirs d names = some i) (n : N) :
    t.walkDirs d (names ++ [n]) = t.walkDirs i [n] := by
  rw [walkDirs_append, h, Option.bind_some]

theorem openBeneath_ok_iff : t.openBeneath d names = .ok i ↔ t.walkDirs d names = some i := by
  induction names generalizing d with
  | nil => simp [openBeneath, walkDirs]
  | cons n names ih =>
    rw [walkDirs_cons, openBeneath]
    constructor
    · intro h
      split at h
      · cases h
      · next j hj =>
        rw [walkDirs_singleton_iff.2 (openDirAt_ok_iff.1 hj)]
        exact ih.1 h
    · intro h
      obtain ⟨j, hj, h⟩ := Option.bind_eq_some_iff.1 h
      rw [openDirAt_ok_iff.2 (walkDirs_singleton_iff.1 hj)]
      exact ih.2 h

/-- Every entry that is a directory stays where it is. -/
structure KeepsDirs (t t' : FsTree N) : Prop where
  root : t'.root = t.root
  keeps : ∀ d n i, t.lookup d n = some i → t.isDir i = true →
    t'.lookup d n = some i ∧ t'.isDir i = true

theorem KeepsDirs.refl (t : FsTree N) : KeepsDirs t t := ⟨rfl, fun _ _ _ h hd => ⟨h, hd⟩⟩

theorem KeepsDirs.trans {t'' : FsTree N} (h : KeepsDirs t t') (h' : KeepsDirs t' t'') :
    KeepsDirs t t'' where
  root := h'.root.trans h.root
  keeps d n i hi hd := by
    obtain ⟨hi', hd'⟩ := h.keeps d n i hi hd
    exact h'.keeps d n i hi' hd'

theorem KeepsDirs.walkDirs (h : KeepsDirs t t') (hw : t.walkDirs d names = some i) :
    t'.walkDirs d names = some i := by
  induction names generalizing d with
  | nil => exact hw
  | cons n names ih =>
    rw [walkDirs_cons] at hw ⊢
    obtain ⟨e, he, hw⟩ := Option.bind_eq_some_iff.1 hw
    obtain ⟨hlookup, hdir⟩ := walkDirs_singleton_iff.1 he
    rw [walkDirs_singleton_iff.2 (h.keeps _ _ _ hlookup hdir), Option.bind_some]
    exact ih hw

theorem Added.keepsDirs {node : Node N} (h : Added t t' d n fresh node) : KeepsDirs t t' where
  root := h.root
  keeps d' n' i hi hd := by
    have hne : ¬ (d' = d ∧ n' = n) := by
      rintro ⟨rfl, rfl⟩
      exact absurd (h.free.symm.trans hi) (by simp)
    have hfresh : i ≠ fresh := by
      rintro rfl
      exact absurd (h.isNew.symm.trans hd) Bool.false_ne_true
    rw [h.lookup, if_neg hne, h.isDir i hfresh]
    exact ⟨hi, hd⟩

theorem keepsDirs_writeFile (t : FsTree N) (i : Ino) (bytes : List UInt8) :
    KeepsDirs t (t.writeFile i bytes) where
  root := root_writeFile t i bytes
  keeps d n j hj hd := by
    rw [lookup_writeFile, isDir_writeFile]
    exact ⟨hj, hd⟩

theorem keepsDirs_renameAt {source target : N} (hsource : t.lookup d source = some i)
    (hfile : t.isDir i = false) (honly : ∀ n, t.lookup d n = some i → n = source)
    (h : t.renameAt d source target = .ok t') : KeepsDirs t t' where
  root := (renameAt_frame h).1
  keeps d' n' j hj hd := by
    rw [(renameAt_frame h).2.1, lookup_renameAt_file hsource hfile honly h]
    refine ⟨?_, hd⟩
    split
    · next htarget =>
      rw [htarget.1, htarget.2] at hj
      exact absurd ((isDir_target_of_renameAt hsource hfile h hj).symm.trans hd) Bool.false_ne_true
    · split
      · next hs =>
        rw [hs.1, hs.2, hsource] at hj
        cases hj
        exact absurd (hfile.symm.trans hd) Bool.false_ne_true
      · exact hj

/-! ## Path texts -/

theorem realWalk_cons (d : Ino) (n : N) (names : List N) :
    t.realWalk d (n :: names) = (t.realWalk d [n]).bind fun e => t.realWalk e names := by
  simp only [realWalk]
  cases t.lookup d n with
  | none => rfl
  | some i =>
    dsimp only
    split
    · rfl
    · rfl

theorem realWalk_append (d : Ino) (a b : List N) :
    t.realWalk d (a ++ b) = (t.realWalk d a).bind fun e => t.realWalk e b := by
  induction a generalizing d with
  | nil => rfl
  | cons n a ih =>
    rw [List.cons_append, realWalk_cons, realWalk_cons d n a, Option.bind_assoc]
    congr 1
    funext e
    exact ih e

theorem realWalk_dropLast {p : List N} (h : (t.realWalk d p).isSome = true) :
    (t.realWalk d p.dropLast).isSome = true := by
  by_cases hp : p = []
  · rw [hp]
    rfl
  · rw [← List.dropLast_concat_getLast hp, realWalk_append] at h
    obtain ⟨e, he⟩ := Option.isSome_iff_exists.1 h
    obtain ⟨e', he', -⟩ := Option.bind_eq_some_iff.1 he
    rw [he']
    rfl

theorem realWalk_singleton (h : t.lookup d n = some i) (hi : t.isSymlink i = false) :
    t.realWalk d [n] = some i := by
  simp [realWalk, h, hi]

/-- One stretch of a lookup stays on real paths when the rest does. -/
theorem realWalk_resolveWith {follow : List N → List (Segment N) → Option (List N)}
    (hfollow : ∀ p segments q, (t.realWalk t.root p).isSome = true → follow p segments = some q →
      (t.realWalk t.root q).isSome = true) {p q : List N} (hp : (t.realWalk t.root p).isSome = true)
    (h : t.resolveWith follow p segments = some q) : (t.realWalk t.root q).isSome = true := by
  induction segments generalizing p with
  | nil =>
    cases h
    exact hp
  | cons s rest ih =>
    obtain ⟨d, hd⟩ := Option.isSome_iff_exists.1 hp
    rw [resolveWith, hd] at h
    dsimp only at h
    split at h
    · cases s with
      | stay => exact ih hp h
      | up => exact ih (realWalk_dropLast hp) h
      | name n =>
        dsimp only at h
        split at h
        · cases h
        · next i hi =>
          split at h
          · next target htarget =>
            refine hfollow _ _ _ ?_ h
            split
            · rfl
            · exact hp
          · next hnot =>
            refine ih ?_ h
            have hlink : t.isSymlink i = false := by
              unfold isSymlink
              split
              · next target htarget => exact absurd htarget (hnot target)
              · rfl
            rw [realWalk_append, hd, Option.bind_some, realWalk_singleton hi hlink]
            rfl
    · cases h

/-- **A lookup ends at a real path.** -/
theorem realWalk_resolve (links : Nat) {p q : List N} (hp : (t.realWalk t.root p).isSome = true)
    (h : t.resolve links p segments = some q) : (t.realWalk t.root q).isSome = true := by
  induction links generalizing p q segments with
  | zero =>
    exact realWalk_resolveWith (fun _ _ _ _ hnone => by cases hnone) hp h
  | succ links ih => exact realWalk_resolveWith (fun _ _ _ hp h => ih hp h) hp h

omit [DecidableEq N] in
theorem isSymlink_of_isDir (h : t.isDir i = true) : t.isSymlink i = false := by
  obtain ⟨entries, hi⟩ := isDir_iff.1 h
  simp [isSymlink, hi]

theorem realWalk_of_walkDirs (h : t.walkDirs d names = some i) : t.realWalk d names = some i := by
  induction names generalizing d with
  | nil => exact h
  | cons n names ih =>
    rw [walkDirs_cons] at h
    obtain ⟨e, he, h⟩ := Option.bind_eq_some_iff.1 h
    obtain ⟨hlookup, hdir⟩ := walkDirs_singleton_iff.1 he
    rw [realWalk_cons, realWalk_singleton hlookup (isSymlink_of_isDir hdir), Option.bind_some]
    exact ih h

theorem resolveWith_walkDirs (follow : List N → List (Segment N) → Option (List N))
    {p names : List N} (hp : t.realWalk t.root p = some d) (h : t.walkDirs d names = some i) :
    t.resolveWith follow p (names.map .name) = some (p ++ names) := by
  induction names generalizing p d with
  | nil => rw [List.append_nil, List.map_nil, resolveWith]
  | cons n names ih =>
    rw [walkDirs_cons] at h
    obtain ⟨e, he, h⟩ := Option.bind_eq_some_iff.1 h
    obtain ⟨hlookup, hdir⟩ := walkDirs_singleton_iff.1 he
    obtain ⟨entries, hnode⟩ := isDir_iff.1 hdir
    have hnext : t.realWalk t.root (p ++ [n]) = some e := by
      rw [realWalk_append, hp, Option.bind_some,
        realWalk_singleton hlookup (isSymlink_of_isDir hdir)]
    rw [List.map_cons, resolveWith, hp]
    simp only [isDir_of_lookup hlookup, if_true, hlookup, hnode]
    rw [ih hnext h, List.append_assoc, List.singleton_append]

/-- **A path through directories** is looked up as it stands. -/
theorem resolve_walkDirs (links : Nat) (h : t.walkDirs t.root names = some i) :
    t.resolve links [] (names.map .name) = some names := by
  cases links with
  | zero => exact resolveWith_walkDirs _ rfl h
  | succ links => exact resolveWith_walkDirs _ rfl h

/-! ## Walks under interference -/

/-- `d` is reached from `root` along `names`, each step in one of the trees of `seen`. -/
inductive Reached (seen : List (FsTree N)) (root : Ino) : List N → Ino → Prop
  | here : Reached seen root [] root
  | step {names : List N} {d i : Ino} {t : FsTree N} {n : N} : Reached seen root names d → t ∈ seen →
      t.lookup d n = some i → t.isDir i = true → Reached seen root (names ++ [n]) i

theorem Reached.mono {seen seen' : List (FsTree N)} (hsub : ∀ t ∈ seen, t ∈ seen')
    (h : Reached seen root names d) : Reached seen' root names d := by
  induction h with
  | here => exact .here
  | step _ ht hlookup hdir ih => exact ih.step (hsub _ ht) hlookup hdir

/-- A walk in one of the trees continues what was reached. -/
theorem Reached.walkDirs {seen : List (FsTree N)} {names names' : List N}
    (h : Reached seen root names d) (ht : t ∈ seen) (hw : t.walkDirs d names' = some i) :
    Reached seen root (names ++ names') i := by
  induction names' generalizing names d with
  | nil =>
    cases hw
    rwa [List.append_nil]
  | cons n names' ih =>
    rw [walkDirs_cons] at hw
    obtain ⟨e, he, hw⟩ := Option.bind_eq_some_iff.1 hw
    obtain ⟨hlookup, hdir⟩ := walkDirs_singleton_iff.1 he
    have hrest := ih (h.step ht hlookup hdir) hw
    rwa [List.append_assoc, List.singleton_append] at hrest

end FsTree

end Verif.FileTree
