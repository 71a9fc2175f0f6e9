import EndaraRelay.Lib.Pool

/-!
# Saving and loading tokens

`TokenManager::save` and `TokenManager::load` in `token_manager.rs`, for one key. A save writes the
record to a temporary file and renames that over the token file. All saves of a key use one temporary
name: opening it truncates what is there.

**Files.** A name is an entry that refers to a file by number. A file stays what it is when the entry
is renamed, and a writer that has it open keeps its position in it.

**Threads.** A save or a load takes one step for each system call; a `write` or `read` may move any
positive number of bytes. Every call may fail, which ends the thread.

**Theorem (`token_records_intact`).** As long as no save opens the temporary file while another one is
between its own open and its rename, every load returns what a finished save wrote, and the token file
holds such a record at all times. Two overlapping saves can publish an empty file
(`overlapping_saves_tear`).
-/

namespace EndaraRelay

open Verif

/-- The files behind the two entries of a key. `finished` is history: the record of every save that
returned `Ok`, and what its rename published. -/
structure TokenFiles (R : Type) where
  inodes : List (List UInt8)
  tmp : Option Nat
  file : Option Nat
  finished : List (R × List UInt8)

/-- Write at a position of a file; a gap is filled with zeros. -/
def writeAt (content : List UInt8) (offset : Nat) (data : List UInt8) : List UInt8 :=
  content.take offset ++ List.replicate (offset - content.length) 0 ++ data ++
    content.drop (offset + data.length)

inductive SaverPc where
  | opening
  | writing (fd offset : Nat)
  | settingPermissions
  | publishing
  | saved
  | failed
deriving DecidableEq

inductive LoaderPc where
  | opening
  | reading (fd : Nat) (acc : List UInt8)
  | loaded (text : List UInt8)
  | notFound (finished : Nat)
  | failed
deriving DecidableEq

inductive FileThread (R : Type) where
  | save (record : R) (pc : SaverPc)
  | load (pc : LoaderPc)

inductive FileOp (R : Type) where
  | save (record : R)
  | load

/-- What the environment decides: how many bytes a call moves, or that it fails. -/
inductive FileChoice where
  | go
  | bytes (n : Nat)
  | fail

namespace TokenFiles

variable {R : Type}

/-- Open the temporary file for writing, truncating it. -/
def createTmp (sh : TokenFiles R) : TokenFiles R × Nat :=
  match sh.tmp with
  | some i => ({ sh with inodes := sh.inodes.set i [] }, i)
  | none => ({ sh with inodes := sh.inodes ++ [[]], tmp := some sh.inodes.length }, sh.inodes.length)

def content (sh : TokenFiles R) (fd : Nat) : List UInt8 := (sh.inodes[fd]?).getD []

def write (sh : TokenFiles R) (fd offset : Nat) (data : List UInt8) : TokenFiles R :=
  { sh with inodes := sh.inodes.set fd (writeAt (sh.content fd) offset data) }

/-- Rename the temporary file over the token file. -/
def publish (sh : TokenFiles R) (record : R) (fd : Nat) : TokenFiles R :=
  { sh with tmp := none, file := some fd, finished := sh.finished ++ [(record, sh.content fd)] }

end TokenFiles

variable {R : Type} (serialize : R → List UInt8)

def saveStep (sh : TokenFiles R) (record : R) : SaverPc → FileChoice →
    Option (TokenFiles R × FileThread R)
  | .opening, .go => some (sh.createTmp.1, .save record (.writing sh.createTmp.2 0))
  | .writing fd offset, .bytes n =>
    let data := ((serialize record).drop offset).take n
    if data = [] then none
    else some (sh.write fd offset data, .save record (.writing fd (offset + data.length)))
  | .writing _ offset, .go =>
    if offset = (serialize record).length then some (sh, .save record .settingPermissions) else none
  | .settingPermissions, .go =>
    -- `chmod` and `rename` go by the name and fail when it is gone.
    if sh.tmp.isSome then some (sh, .save record .publishing) else some (sh, .save record .failed)
  | .publishing, .go =>
    match sh.tmp with
    | some fd => some (sh.publish record fd, .save record .saved)
    | none => some (sh, .save record .failed)
  | .opening, .fail | .writing _ _, .fail | .settingPermissions, .fail | .publishing, .fail =>
    some (sh, .save record .failed)
  | _, _ => none

/-- A step of a load. Where there is no token file, it notes how many saves had finished. -/
def loadStep (sh : TokenFiles R) : LoaderPc → FileChoice → Option LoaderPc
  | .opening, .go =>
    match sh.file with
    | some fd => some (.reading fd [])
    | none => some (.notFound sh.finished.length)
  | .reading fd acc, .bytes n =>
    if n = 0 then none
    else
      let data := ((sh.content fd).drop acc.length).take n
      if data = [] then some (.loaded acc)
      else some (.reading fd (acc ++ data))
  | .opening, .fail | .reading _ _, .fail => some .failed
  | _, _ => none

def fileStep (sh : TokenFiles R) (_ : List (FileThread R)) (t : FileThread R) (c : FileChoice) :
    Option (TokenFiles R × FileThread R × List (FileThread R)) :=
  match t with
  | .save record pc => (saveStep serialize sh record pc c).map fun r => (r.1, r.2, [])
  | .load pc => (loadStep sh pc c).map fun pc => (sh, .load pc, [])

/-- The token file is there with a record that was saved earlier, or not at all. -/
def TokenFiles.Start (sh : TokenFiles R) : Prop :=
  (∀ i, sh.tmp = some i → i < sh.inodes.length) ∧
    (sh.file = none ∧ sh.finished = [] ∨
      ∃ i record, sh.file = some i ∧ sh.tmp ≠ some i ∧ sh.inodes[i]? = some (serialize record) ∧
        sh.finished = [(record, serialize record)])

def tokenSaves : Pool (TokenFiles R) (FileThread R) (FileOp R) FileChoice where
  init := TokenFiles.Start serialize
  launch _ _
    | .save record => some (.save record .opening)
    | .load => some (.load .opening)
  step := fileStep serialize

def FileThread.inProgress : FileThread R → Bool
  | .save _ (.writing _ _) | .save _ .settingPermissions | .save _ .publishing => true
  | _ => false

/-- The guard: no save opens the temporary file while another one is in progress. -/
def savesApart (s : Pool.State (TokenFiles R) (FileThread R)) :
    Pool.Action (FileOp R) FileChoice → Bool
  | .run i .go =>
    match s.threads[i]? with
    | some (.save _ .opening) => s.threads.all fun t => !t.inProgress
    | _ => true
  | _ => true

/-! ## Writing -/

theorem writeAt_end (content data : List UInt8) :
    writeAt content content.length data = content ++ data := by
  simp [writeAt]

theorem take_append_take_drop (l : List UInt8) (k n : Nat) :
    l.take k ++ (l.drop k).take n = l.take (k + ((l.drop k).take n).length) := by
  rw [List.take_add]
  congr 1
  rw [List.length_take, List.take_eq_take_iff]
  omega

/-! ## What holds while saves keep apart -/

/-- A file that nobody writes any more, with the record of a finished save. -/
structure Frozen (sh : TokenFiles R) (fd : Nat) (record : R) : Prop where
  content : sh.inodes[fd]? = some (serialize record)
  notTmp : sh.tmp ≠ some fd
  finished : record ∈ sh.finished.map (·.1)

/-- The files between two steps. -/
structure FilesInv (sh : TokenFiles R) : Prop where
  tmp : ∀ i, sh.tmp = some i → i < sh.inodes.length
  file : ∀ i, sh.file = some i → ∃ record, Frozen serialize sh i record
  none : sh.file = none → sh.finished = []
  finished : ∀ p ∈ sh.finished, p.2 = serialize p.1

/-- What a thread relies on. -/
def ThreadInv (sh : TokenFiles R) : FileThread R → Prop
  | .save record (.writing fd offset) =>
    sh.tmp = some fd ∧ offset ≤ (serialize record).length ∧
      sh.inodes[fd]? = some ((serialize record).take offset)
  | .save record .settingPermissions | .save record .publishing =>
    ∃ fd, sh.tmp = some fd ∧ sh.inodes[fd]? = some (serialize record)
  | .load (.reading fd acc) => ∃ record, Frozen serialize sh fd record ∧ acc <+: serialize record
  | .load (.loaded text) => ∃ record ∈ sh.finished.map (·.1), text = serialize record
  | .load (.notFound finished) => finished = 0
  | _ => True

/-- What a step leaves alone: files nobody writes any more, and what has been finished. -/
structure Leaves (sh sh' : TokenFiles R) : Prop where
  frozen : ∀ fd record, Frozen serialize sh fd record → Frozen serialize sh' fd record
  finished : sh.finished.map (·.1) ⊆ sh'.finished.map (·.1)

theorem Leaves.refl (sh : TokenFiles R) : Leaves serialize sh sh :=
  ⟨fun _ _ h => h, List.Subset.refl _⟩

variable {sh sh' : TokenFiles R} {t t' : FileThread R} {i : Nat} {c : FileChoice}
  {new ts : List (FileThread R)}

/-- A thread that is not saving relies only on these. -/
theorem ThreadInv.leaves (h : ThreadInv serialize sh t) (hleaves : Leaves serialize sh sh')
    (ht : t.inProgress = false) : ThreadInv serialize sh' t := by
  cases t with
  | save record pc =>
    cases pc with
    | writing fd offset => cases ht
    | settingPermissions => cases ht
    | publishing => cases ht
    | opening => trivial
    | saved => trivial
    | failed => trivial
  | load pc =>
    cases pc with
    | reading fd acc =>
      obtain ⟨record, hfrozen, hacc⟩ := h
      exact ⟨record, hleaves.frozen fd record hfrozen, hacc⟩
    | loaded text =>
      obtain ⟨record, hrecord, htext⟩ := h
      exact ⟨record, hleaves.finished hrecord, htext⟩
    | notFound finished => exact h
    | opening => trivial
    | failed => trivial

/-- What a step of a thread does, when no other thread writes the file that it writes. -/
structure StepOutcome (sh sh' : TokenFiles R) (t' : FileThread R) : Prop where
  files : FilesInv serialize sh'
  own : ThreadInv serialize sh' t'
  leaves : Leaves serialize sh sh'

section Steps

variable {serialize} {sh : TokenFiles R} {record : R}

theorem Frozen.set_tmp {fd i : Nat} {content : List UInt8} (h : Frozen serialize sh fd record)
    (htmp : sh.tmp = some i) :
    Frozen serialize { sh with inodes := sh.inodes.set i content } fd record := by
  have hne : i ≠ fd := fun heq => h.notTmp (heq ▸ htmp)
  refine ⟨?_, h.notTmp, h.finished⟩
  show (sh.inodes.set i content)[fd]? = _
  rw [List.getElem?_set_ne hne]
  exact h.content

/-- Changing the contents of the temporary file. -/
theorem FilesInv.set_tmp (h : FilesInv serialize sh) (htmp : sh.tmp = some i) (content : List UInt8) :
    FilesInv serialize { sh with inodes := sh.inodes.set i content } ∧
      Leaves serialize sh { sh with inodes := sh.inodes.set i content } := by
  refine ⟨⟨fun j hj => ?_, fun j hj => ?_, h.none, h.finished⟩,
    fun fd record hfrozen => hfrozen.set_tmp htmp, List.Subset.refl _⟩
  · show j < (sh.inodes.set i content).length
    rw [List.length_set]
    exact h.tmp j hj
  · obtain ⟨record, hfrozen⟩ := h.file j hj
    exact ⟨record, hfrozen.set_tmp htmp⟩

theorem createTmp_of_some (htmp : sh.tmp = some i) :
    sh.createTmp = ({ sh with inodes := sh.inodes.set i [] }, i) := by
  unfold TokenFiles.createTmp
  split
  · next j hj =>
    obtain rfl : i = j := Option.some.inj (htmp.symm.trans hj)
    rfl
  · next hnone => cases htmp.symm.trans hnone

theorem createTmp_of_none (htmp : sh.tmp = none) : sh.createTmp =
    ({ sh with inodes := sh.inodes ++ [[]], tmp := some sh.inodes.length }, sh.inodes.length) := by
  unfold TokenFiles.createTmp
  split
  · next j hj => cases htmp.symm.trans hj
  · rfl

section

variable (h : FilesInv serialize sh)
include h

theorem createTmp_outcome :
    StepOutcome serialize sh sh.createTmp.1 (.save record (.writing sh.createTmp.2 0)) := by
  cases htmp : sh.tmp with
  | some i =>
    obtain ⟨hfiles, hleaves⟩ := h.set_tmp htmp []
    rw [createTmp_of_some htmp]
    refine ⟨hfiles, ⟨htmp, Nat.zero_le _, ?_⟩, hleaves⟩
    show (sh.inodes.set i [])[i]? = some []
    rw [List.getElem?_set_self (h.tmp i htmp)]
  | none =>
    rw [createTmp_of_none htmp]
    have hfrozen {fd : Nat} {record : R} (hf : Frozen serialize sh fd record) :
        Frozen serialize { sh with
          inodes := sh.inodes ++ [[]], tmp := some sh.inodes.length } fd record := by
      obtain ⟨hlt, -⟩ := List.getElem?_eq_some_iff.1 hf.content
      refine ⟨?_, fun heq => absurd (Option.some.inj heq) (Nat.ne_of_gt hlt), hf.finished⟩
      show (sh.inodes ++ [[]])[fd]? = _
      rw [List.getElem?_append_left hlt]
      exact hf.content
    refine ⟨⟨fun j hj => ?_, fun j hj => ?_, h.none, h.finished⟩, ⟨rfl, Nat.zero_le _, ?_⟩,
      fun fd record hf => hfrozen hf, List.Subset.refl _⟩
    · cases hj
      show sh.inodes.length < (sh.inodes ++ [[]]).length
      rw [List.length_append]
      exact Nat.lt_succ_self _
    · obtain ⟨record, hf⟩ := h.file j hj
      exact ⟨record, hfrozen hf⟩
    · show (sh.inodes ++ [[]])[sh.inodes.length]? = some []
      rw [List.getElem?_append_right (Nat.le_refl _), Nat.sub_self]
      rfl

theorem write_outcome {fd offset n : Nat}
    (ht : ThreadInv serialize sh (.save record (.writing fd offset))) :
    StepOutcome serialize sh (sh.write fd offset (((serialize record).drop offset).take n))
      (.save record (.writing fd (offset + (((serialize record).drop offset).take n).length))) := by
  obtain ⟨htmp, hle, hcontent⟩ := ht
  obtain ⟨hfiles, hleaves⟩ := h.set_tmp htmp
    (writeAt (sh.content fd) offset (((serialize record).drop offset).take n))
  refine ⟨hfiles, ⟨htmp, ?_, ?_⟩, hleaves⟩
  · have := List.length_take_le n ((serialize record).drop offset)
    have := List.length_take_le' n ((serialize record).drop offset)
    rw [List.length_drop] at this
    omega
  · show (sh.inodes.set fd _)[fd]? = _
    rw [List.getElem?_set_self (h.tmp fd htmp), ← take_append_take_drop]
    have hlen : ((serialize record).take offset).length = offset := List.length_take_of_le hle
    have hread : sh.content fd = (serialize record).take offset := by
      rw [TokenFiles.content, hcontent, Option.getD_some]
    have hend := writeAt_end ((serialize record).take offset) (((serialize record).drop offset).take n)
    rw [hlen] at hend
    rw [hread, hend]

theorem publish_outcome {fd : Nat} (hcontent : sh.inodes[fd]? = some (serialize record)) :
    StepOutcome serialize sh (sh.publish record fd) (.save record .saved) := by
  have hpublished : sh.content fd = serialize record := by
    rw [TokenFiles.content, hcontent, Option.getD_some]
  have hgrow : sh.finished.map (·.1) ⊆ (sh.publish record fd).finished.map (·.1) := by
    show _ ⊆ (sh.finished ++ [(record, sh.content fd)]).map (·.1)
    rw [List.map_append]
    exact List.subset_append_left _ _
  refine ⟨⟨nofun, fun i hi => ?_, nofun, fun p hp => ?_⟩, trivial,
    fun i r hf => ⟨hf.content, nofun, hgrow hf.finished⟩, hgrow⟩
  · cases hi
    refine ⟨record, hcontent, nofun, ?_⟩
    show record ∈ (sh.finished ++ [(record, sh.content fd)]).map (·.1)
    rw [List.map_append]
    exact List.mem_append_right _ List.mem_cons_self
  · obtain hp | hp := List.mem_append.1 hp
    · exact h.finished p hp
    · rw [List.mem_singleton.1 hp]
      exact hpublished

theorem saveStep_outcome {pc : SaverPc} (ht : ThreadInv serialize sh (.save record pc))
    (hst : saveStep serialize sh record pc c = some (sh', t')) : StepOutcome serialize sh sh' t' := by
  have hstay {t' : FileThread R} (ht' : ThreadInv serialize sh t') : StepOutcome serialize sh sh t' :=
    ⟨h, ht', Leaves.refl serialize sh⟩
  unfold saveStep at hst
  split at hst
  · cases hst
    exact createTmp_outcome h
  · next fd offset n =>
    dsimp only at hst
    split at hst
    · cases hst
    · cases hst
      exact write_outcome h ht
  · next fd offset =>
    split at hst
    · next hdone =>
      cases hst
      obtain ⟨htmp, -, hcontent⟩ := ht
      rw [hdone, List.take_length] at hcontent
      exact hstay ⟨fd, htmp, hcontent⟩
    · cases hst
  · split at hst
    · cases hst
      exact hstay ht
    · cases hst
      exact hstay trivial
  · obtain ⟨fd, htmp, hcontent⟩ := ht
    rw [htmp] at hst
    cases hst
    exact publish_outcome h hcontent
  · cases hst
    exact hstay trivial
  · cases hst
    exact hstay trivial
  · cases hst
    exact hstay trivial
  · cases hst
    exact hstay trivial
  · cases hst

theorem loadStep_outcome {pc pc' : LoaderPc} (ht : ThreadInv serialize sh (.load pc))
    (hst : loadStep sh pc c = some pc') : ThreadInv serialize sh (.load pc') := by
  unfold loadStep at hst
  split at hst
  · split at hst
    · next fd hfile =>
      cases hst
      obtain ⟨record, hfrozen⟩ := h.file fd hfile
      exact ⟨record, hfrozen, List.nil_prefix⟩
    · next hfile =>
      cases hst
      show sh.finished.length = 0
      rw [h.none hfile]
      rfl
  · next fd acc n =>
    obtain ⟨record, hfrozen, hacc⟩ := ht
    have hread : sh.content fd = serialize record := by
      rw [TokenFiles.content, hfrozen.content, Option.getD_some]
    obtain ⟨rest, hrest⟩ := hacc
    split at hst
    · cases hst
    · next hn =>
      rw [hread, ← hrest, List.drop_left] at hst
      dsimp only at hst
      split at hst
      · next hnil =>
        -- Nothing left to read: the whole record has been read.
        cases hst
        have hempty : rest = [] := by
          cases rest with
          | nil => rfl
          | cons b rest =>
            cases n with
            | zero => exact absurd rfl hn
            | succ n => cases hnil
        refine ⟨record, hfrozen.finished, ?_⟩
        rw [← hrest, hempty, List.append_nil]
      · cases hst
        refine ⟨record, hfrozen, ?_⟩
        rw [← hrest]
        exact (List.prefix_append_right_inj acc).2 (List.take_prefix n rest)
  · cases hst
    trivial
  · cases hst
    trivial
  · cases hst

end

end Steps

/-! ## Every run in which saves keep apart -/

/-- The runs in which every action passes the guard. -/
abbrev SavesApart (s : Pool.State (TokenFiles R) (FileThread R)) : Prop :=
  (tokenSaves serialize).system.ReachableWhile (fun s a => savesApart s a = true) s

section Runs

variable {serialize} {s : Pool.State (TokenFiles R) (FileThread R)}

/-- A save comes to be in progress by opening the temporary file. -/
theorem fileStep_begins (hst : (tokenSaves serialize).step sh ts t c = some (sh', t', new))
    (ht' : t'.inProgress = true) :
    t.inProgress = true ∨ ∃ record, t = .save record .opening ∧ c = .go := by
  cases t with
  | save record pc =>
    cases pc with
    | opening =>
      cases c with
      | go => exact Or.inr ⟨record, rfl, rfl⟩
      | bytes n => cases hst
      | fail =>
        cases hst
        cases ht'
    | writing fd offset => exact Or.inl rfl
    | settingPermissions => exact Or.inl rfl
    | publishing => exact Or.inl rfl
    | saved => cases hst
    | failed => cases hst
  | load pc =>
    obtain ⟨pc', -, heq⟩ := Option.map_eq_some_iff.1 hst
    cases heq
    cases ht'

theorem fileStep_new (hst : (tokenSaves serialize).step sh ts t c = some (sh', t', new)) :
    new = [] := by
  cases t with
  | save record pc =>
    obtain ⟨r, -, heq⟩ := Option.map_eq_some_iff.1 hst
    cases heq
    rfl
  | load pc =>
    obtain ⟨pc', -, heq⟩ := Option.map_eq_some_iff.1 hst
    cases heq
    rfl

/-- A step that changes the files is one of a save in progress, or opens the temporary file. -/
theorem fileStep_changes (hst : (tokenSaves serialize).step sh ts t c = some (sh', t', new)) :
    sh' = sh ∨ t.inProgress = true ∨ ∃ record, t = .save record .opening ∧ c = .go := by
  cases t with
  | save record pc =>
    cases pc with
    | opening =>
      cases c with
      | go => exact Or.inr (Or.inr ⟨record, rfl, rfl⟩)
      | bytes n => cases hst
      | fail =>
        cases hst
        exact Or.inl rfl
    | writing fd offset => exact Or.inr (Or.inl rfl)
    | settingPermissions => exact Or.inr (Or.inl rfl)
    | publishing => exact Or.inr (Or.inl rfl)
    | saved => cases hst
    | failed => cases hst
  | load pc =>
    obtain ⟨pc', -, heq⟩ := Option.map_eq_some_iff.1 hst
    cases heq
    exact Or.inl rfl

/-- What the guard says of a save about to open the temporary file. -/
theorem idle_of_savesApart {record : R} (hok : savesApart s (.run i .go) = true)
    (hi : s.threads[i]? = some (.save record .opening)) : ∀ u ∈ s.threads, u.inProgress = false := by
  simp only [savesApart, hi] at hok
  simpa using hok

theorem one_in_progress (h : SavesApart serialize s) :
    s.threads.Pairwise fun t u => ¬ (t.inProgress = true ∧ u.inProgress = true) := by
  refine Pool.exclusive_of (H := fun _ t => t.inProgress = true) ?_ ?_ ?_ ?_ h
  · intro sh ts a t ht
    cases a <;>
    · cases ht
      exact Bool.false_ne_true
  · intro s i c t sh' t' new hok hi hst ht'
    obtain hbusy | ⟨record, rfl, rfl⟩ := fileStep_begins hst ht'
    · exact Or.inl hbusy
    · exact Or.inr fun u hu => by simp [idle_of_savesApart hok hi u hu]
  · intro sh ts t c sh' t' new hst u hu
    rw [fileStep_new hst] at hu
    cases hu
  · intro sh ts t c sh' t' new u _ hu
    exact hu

theorem fileStep_outcome (h : FilesInv serialize sh) (ht : ThreadInv serialize sh t)
    (hst : (tokenSaves serialize).step sh ts t c = some (sh', t', new)) :
    StepOutcome serialize sh sh' t' := by
  cases t with
  | save record pc =>
    obtain ⟨r, hr, heq⟩ := Option.map_eq_some_iff.1 hst
    cases heq
    exact saveStep_outcome h ht hr
  | load pc =>
    obtain ⟨pc', hpc, heq⟩ := Option.map_eq_some_iff.1 hst
    cases heq
    exact ⟨h, loadStep_outcome h ht hpc, Leaves.refl serialize _⟩

theorem filesInv_start (h : sh.Start serialize) : FilesInv serialize sh := by
  obtain ⟨htmp, ⟨hfile, hfinished⟩ | ⟨i, record, hfile, hne, hcontent, hfinished⟩⟩ := h
  · refine ⟨htmp, fun i hi => ?_, fun _ => hfinished, fun p hp => ?_⟩
    · cases hfile.symm.trans hi
    · rw [hfinished] at hp
      cases hp
  · refine ⟨htmp, fun j hj => ?_, fun hnone => ?_, fun p hp => ?_⟩
    · obtain rfl : i = j := Option.some.inj (hfile.symm.trans hj)
      exact ⟨record, hcontent, hne, by rw [hfinished]; exact List.mem_cons_self⟩
    · cases hfile.symm.trans hnone
    · rw [hfinished, List.mem_singleton] at hp
      rw [hp]

theorem inv_of_savesApart (h : SavesApart serialize s) :
    FilesInv serialize s.shared ∧ ∀ t ∈ s.threads, ThreadInv serialize s.shared t := by
  refine Pool.invariant_of (I := fun s => s.threads.Pairwise fun t u =>
      ¬ (t.inProgress = true ∧ u.inProgress = true))
    (J := fun s => FilesInv serialize s.shared ∧ ∀ t ∈ s.threads, ThreadInv serialize s.shared t)
    (fun s hs => one_in_progress hs) ?_ ?_ ?_ h
  · intro sh hsh
    exact ⟨filesInv_start hsh, nofun⟩
  · rintro s a t - ⟨hfiles, hthreads⟩ - hlaunch
    refine ⟨hfiles, fun u hu => ?_⟩
    obtain hu | hu := List.mem_append.1 hu
    · exact hthreads u hu
    · rw [List.mem_singleton.1 hu]
      cases a with
      | save record =>
        cases hlaunch
        trivial
      | load =>
        cases hlaunch
        trivial
  · rintro s i c t sh' t' new hone ⟨hfiles, hthreads⟩ hok hi hst
    obtain ⟨hfiles', hown, hleaves⟩ :=
      fileStep_outcome hfiles (hthreads t (List.mem_of_getElem? hi)) hst
    refine ⟨hfiles', Pool.forall_mem_stepped hown ?_ fun j u hne hj => ?_⟩
    · rw [fileStep_new hst]
      nofun
    · have hu := hthreads u (List.mem_of_getElem? hj)
      obtain rfl | hbusy | ⟨record, rfl, rfl⟩ := fileStep_changes hst
      · exact hu
      · have hidle := Pool.not_holds_of_ne (H := fun _ t => FileThread.inProgress t = true) hone hi
          hbusy hj hne
        exact hu.leaves serialize hleaves (by simpa using hidle)
      · exact hu.leaves serialize hleaves (idle_of_savesApart hok hi u (List.mem_of_getElem? hj))

end Runs

/-- No token record is torn or lost. -/
structure TokensIntact (s : Pool.State (TokenFiles R) (FileThread R)) : Prop where
  /-- A load returns what a finished save wrote. -/
  loaded : ∀ text, .load (.loaded text) ∈ s.threads →
    ∃ record ∈ s.shared.finished.map (·.1), text = serialize record
  /-- A load returns nothing only if no save had finished when it looked. -/
  notFound : ∀ finished, .load (.notFound finished) ∈ s.threads → finished = 0
  /-- The token file holds what a finished save wrote. -/
  stored : ∀ fd, s.shared.file = some fd →
    ∃ record ∈ s.shared.finished.map (·.1), s.shared.content fd = serialize record
  /-- Without a token file, no save has finished. -/
  missing : s.shared.file = none → s.shared.finished = []
  /-- A save that returned `Ok` published a whole record. -/
  published : ∀ p ∈ s.shared.finished,
    ∃ record ∈ s.shared.finished.map (·.1), p.2 = serialize record

/-- **Token records stay intact** in every run in which saves keep apart. -/
theorem token_records_intact {s : Pool.State (TokenFiles R) (FileThread R)}
    (h : SavesApart serialize s) : TokensIntact serialize s := by
  obtain ⟨hfiles, hthreads⟩ := inv_of_savesApart h
  refine ⟨fun text ht => hthreads _ ht, fun finished ht => hthreads _ ht, fun fd hfd => ?_,
    hfiles.none, fun p hp => ⟨p.1, List.mem_map_of_mem hp, hfiles.finished p hp⟩⟩
  obtain ⟨record, hfrozen⟩ := hfiles.file fd hfd
  refine ⟨record, hfrozen.finished, ?_⟩
  rw [TokenFiles.content, hfrozen.content, Option.getD_some]

/-- The JSON text of a token set with nothing but an access token of plain letters. -/
def tokenText (accessToken : String) : List UInt8 :=
  ("\x7b\n  \"access_token\": \"" ++ accessToken ++ "\",\n  \"refresh_token\": null,\n  " ++
    "\"expires_at\": null,\n  \"token_type\": \"Bearer\",\n  \"scope\": null,\n  " ++
    "\"issued_at\": null\n\x7d").toList.map fun c => UInt8.ofNat c.toNat

def noTokenFile : TokenFiles String := ⟨[], none, none, []⟩

def saveThenLoad : List (Pool.Action (FileOp String) FileChoice) := [
  .launch (.save "one"), .launch .load,
  .run 0 .go, .run 0 (.bytes 100), .run 0 (.bytes 100), .run 0 .go, .run 0 .go, .run 0 .go,
  .run 1 .go, .run 1 (.bytes 4096), .run 1 (.bytes 4096)]

set_option maxRecDepth 8000 in
theorem saveThenLoad_intact :
    ∃ s, (tokenSaves tokenText).system.runWhile savesApart ⟨noTokenFile, []⟩ saveThenLoad = some s ∧
      s.threads[1]? = some (.load (.loaded (tokenText "one"))) ∧ TokensIntact tokenText s := by
  have hrun : (tokenSaves tokenText).system.runWhile savesApart ⟨noTokenFile, []⟩ saveThenLoad =
    some _ := rfl
  refine ⟨_, hrun, rfl, token_records_intact tokenText (System.ReachableWhile.run (fun _ _ h => h) ?_ hrun)⟩
  exact System.ReachableWhile.init ⟨⟨nofun, Or.inl ⟨rfl, rfl⟩⟩, rfl⟩

/-- A second save opens the temporary file just before the first one renames it. -/
def overlappingSaves : List (Pool.Action (FileOp String) FileChoice) := [
  .launch (.save "one"), .launch (.save "two"), .launch .load,
  .run 0 .go, .run 0 (.bytes 200), .run 0 .go, .run 0 .go, .run 1 .go, .run 0 .go,
  .run 2 .go, .run 2 (.bytes 4096)]

set_option maxRecDepth 8000 in
/-- The first save returns `Ok` and has published an empty file, and a load reads it. -/
theorem overlapping_saves_tear :
    ∃ s, (tokenSaves tokenText).system.Reachable s ∧ ¬ TokensIntact tokenText s := by
  have hrun : (tokenSaves tokenText).system.run ⟨noTokenFile, []⟩ overlappingSaves = some _ := rfl
  refine ⟨_, System.Reachable.run (System.Reachable.init ?_) hrun, fun h => ?_⟩
  · exact ⟨⟨nofun, Or.inl ⟨rfl, rfl⟩⟩, rfl⟩
  · have hloaded : FileThread.load (.loaded []) ∈ [FileThread.save "one" .saved,
        .save "two" (.writing 0 0), .load (.loaded [])] := by simp
    obtain ⟨record, -, htext⟩ := h.loaded [] hloaded
    simp [tokenText] at htext

end EndaraRelay
