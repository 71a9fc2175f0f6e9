import EndaraRelay.Lib.FileTree.Walks
import EndaraRelay.Lib.Percent

/-!
# Where a script may write

`resolve_write_path` of the sandbox: from the path a script gives to a canonical path inside one of
the allowlisted roots. File names are byte strings. The allowlisted roots and what `canonicalize`
returns are absolute paths, given by their components.

The resolver asks the file system which prefixes of the path exist and where the longest of them really
is (`PathAnswers`). Whatever the answers, the path is inside the root it is returned with
(`resolveWritePath_eq_ok`); with the answers of one tree (`treeAnswers`) it is where the path leads
(`resolveWritePath_resolvesTo`).
-/

namespace EndaraRelay

open Verif Verif.FileTree

abbrev FileName := List UInt8

/-- The components of an absolute path. -/
abbrev AbsolutePath := List FileName

def segmentOf (text : List UInt8) : Segment FileName :=
  if text = [] ∨ text = [0x2E] then .stay
  else if text = [0x2E, 0x2E] then .up
  else .name text

/-- The segments of a path text. A trailing separator asks for a directory. -/
def pathSegments (text : List UInt8) : List (Segment FileName) := (text.splitOn 0x2F).map segmentOf

/-- The ordinary components among segments. -/
def normalComponents (segments : List (Segment FileName)) : List FileName :=
  segments.filterMap fun
    | .name n => some n
    | _ => none

/-- What the file system answers to the resolver. -/
structure PathAnswers where
  /-- `Path::exists`. -/
  existsAt : List (Segment FileName) → Bool
  /-- `std::fs::canonicalize`, with the text of its error. -/
  canonicalize : List (Segment FileName) → Except String AbsolutePath

def writeDirsRejectionMessage (display : AbsolutePath → String) (op pathStr : String)
    (writeRoots : List AbsolutePath) : String :=
  let scopeNote := if op = "readFile" then
      " (readFile is scoped to the same [relay] write_dirs allowlist as writeFile)"
    else ""
  let msg := op ++ ": '" ++ pathStr ++ "' is not inside a configured write directory" ++ scopeNote ++
    ". Add one under [relay] write_dirs in ~/.endara/config.toml, or in the Endara desktop app " ++
    "under Settings → Write directories."
  if writeRoots.isEmpty then msg
  else msg ++ " Currently allowed: " ++ ", ".intercalate (writeRoots.map display) ++ "."

/-- The loop of `resolve_write_path`: the first of `existing` and the paths of fewer and fewer names
that exists, and the names that it lacks. `names` are the components of `existing`, the last first. -/
def deepestExisting (existsAt : List (Segment FileName) → Bool)
    (existing : List (Segment FileName)) :
    List FileName → List FileName → Option (List (Segment FileName) × List FileName)
  | names, missing =>
    if existsAt existing then some (existing, missing)
    else
      match names with
      | [] => none
      | name :: names =>
        deepestExisting existsAt (names.reverse.map .name) names (name :: missing)
termination_by structural names => names

def resolveWritePath (answers : PathAnswers) (display : AbsolutePath → String) (op pathStr : String)
    (writeRoots : List AbsolutePath) : Except String (AbsolutePath × AbsolutePath) :=
  let text := Percent.utf8Bytes pathStr
  let segments := pathSegments text
  if text = [] then
    .error (op ++ ": path must not be empty — " ++ op ++
      " requires an absolute path inside a configured write directory")
  else if text.contains 0 then .error (op ++ ": path must not contain a NUL byte")
  else if text.head? ≠ some 0x2F then
    .error (op ++ ": '" ++ pathStr ++ "' is a relative path — " ++ op ++
      " requires an absolute path inside a configured write directory")
  else if segments.contains .up then
    .error (op ++ ": '" ++ pathStr ++ "' contains a '..' path component, which is not allowed")
  else if writeRoots.isEmpty then
    .error (writeDirsRejectionMessage display op pathStr writeRoots)
  else
    match deepestExisting answers.existsAt segments (normalComponents segments).reverse [] with
    | none => .error (writeDirsRejectionMessage display op pathStr writeRoots)
    | some (existing, missing) =>
      match answers.canonicalize existing with
      | .error e => .error (op ++ ": failed to resolve '" ++ pathStr ++ "': " ++ e)
      | .ok canonical =>
        let resolved := canonical ++ missing
        match writeRoots.find? fun root => root.isPrefixOf resolved with
        | some root => .ok (resolved, root)
        | none => .error (writeDirsRejectionMessage display op pathStr writeRoots)

/-! ## What is resolved -/

variable {answers : PathAnswers} {display : AbsolutePath → String} {op pathStr : String}
  {writeRoots : List AbsolutePath} {dest root : AbsolutePath}

theorem normalComponents_names (names : List FileName) :
    normalComponents (names.map .name) = names := by
  induction names with
  | nil => rfl
  | cons n names ih => exact congrArg (n :: ·) ih

/-- What is found exists, and with the lacking names it is what was looked for. -/
theorem deepestExisting_eq_some {existsAt : List (Segment FileName) → Bool}
    {existing found : List (Segment FileName)} {names missing lacking : List FileName}
    (hnames : normalComponents existing = names.reverse)
    (h : deepestExisting existsAt existing names missing = some (found, lacking)) :
    existsAt found = true ∧ normalComponents found ++ lacking = names.reverse ++ missing := by
  induction names generalizing existing missing with
  | nil =>
    rw [deepestExisting] at h
    split at h
    · next hexists =>
      cases h
      exact ⟨hexists, by rw [hnames]⟩
    · cases h
  | cons name names ih =>
    rw [deepestExisting] at h
    split at h
    · next hexists =>
      cases h
      exact ⟨hexists, by rw [hnames]⟩
    · obtain ⟨hexists, heq⟩ := ih (normalComponents_names _) h
      refine ⟨hexists, ?_⟩
      rw [heq, List.reverse_cons, List.append_assoc, List.singleton_append]

/-- **The resolver**: the destination is where an existing part of the path really is, with the names
behind it that are missing, and lies in the allowlisted root it is returned with. -/
theorem resolveWritePath_eq_ok
    (h : resolveWritePath answers display op pathStr writeRoots = .ok (dest, root)) :
    root ∈ writeRoots ∧ root <+: dest ∧
      ∃ existing canonical missing, answers.existsAt existing = true ∧
        answers.canonicalize existing = .ok canonical ∧
        normalComponents existing ++ missing =
          normalComponents (pathSegments (Percent.utf8Bytes pathStr)) ∧
        dest = canonical ++ missing := by
  unfold resolveWritePath at h
  dsimp only at h
  split at h
  · cases h
  · split at h
    · cases h
    · split at h
      · cases h
      · split at h
        · cases h
        · split at h
          · cases h
          · split at h
            · cases h
            · next existing missing hfound =>
              obtain ⟨hexists, heq⟩ := deepestExisting_eq_some (List.reverse_reverse _).symm hfound
              rw [List.reverse_reverse, List.append_nil] at heq
              split at h
              · cases h
              · next canonical hcanonical =>
                split at h
                · next root' hroot =>
                  cases h
                  have hprefix : root.isPrefixOf (canonical ++ missing) = true := by
                    simpa using List.find?_some hroot
                  exact ⟨List.mem_of_find?_eq_some hroot, List.isPrefixOf_iff_prefix.1 hprefix,
                    existing, canonical, missing, hexists, hcanonical, heq, rfl⟩
                · cases h

/-- How many symbolic links one lookup follows. -/
def maxLinks : Nat := 40

/-- The answers of a file system that nobody changes. -/
def treeAnswers (describe : Errno → String) (t : FsTree FileName) : PathAnswers where
  existsAt segments := (t.resolve maxLinks [] segments).isSome
  canonicalize segments :=
    match t.resolve maxLinks [] segments with
    | some p => .ok p
    | none => .error (describe .notFound)

/-- `dest` is where the path text leads in the tree: an existing part of it is looked up, which ends at
a path without symbolic links, and the missing names are behind that. -/
def ResolvesTo (t : FsTree FileName) (pathStr : String) (dest : AbsolutePath) : Prop :=
  ∃ existing canonical missing, t.resolve maxLinks [] existing = some canonical ∧
    (t.realWalk t.root canonical).isSome = true ∧
    normalComponents existing ++ missing =
      normalComponents (pathSegments (Percent.utf8Bytes pathStr)) ∧
    dest = canonical ++ missing

/-- **With the answers of one tree** the resolved path is where the path leads in it. -/
theorem resolveWritePath_resolvesTo {describe : Errno → String} {t : FsTree FileName}
    (h : resolveWritePath (treeAnswers describe t) display op pathStr writeRoots =
      .ok (dest, root)) : ResolvesTo t pathStr dest := by
  obtain ⟨-, -, existing, canonical, missing, -, hcanonical, heq, hdest⟩ := resolveWritePath_eq_ok h
  have hresolve : t.resolve maxLinks [] existing = some canonical := by
    unfold treeAnswers at hcanonical
    dsimp only at hcanonical
    split at hcanonical
    · next p hp =>
      cases hcanonical
      exact hp
    · cases hcanonical
  exact ⟨existing, canonical, missing, hresolve, FsTree.realWalk_resolve maxLinks rfl hresolve, heq,
    hdest⟩

end EndaraRelay
