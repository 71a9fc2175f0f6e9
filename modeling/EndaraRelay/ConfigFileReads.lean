import EndaraRelay.TokenSaves

/-!
# Reading the config while it is written

`write_config_file` in `config.rs` writes over the file it replaces: it truncates it and then writes the
text, in any number of calls. Its readers are the reloads (`reload_and_apply` in `watcher.rs`,
`reload_config`) and the handlers of `management.rs` that read the file, edit it and write it back. None of
them locks the file.

**Threads.** A read or a write takes one step for each system call, which moves any positive number of
bytes. What parses is a parameter, and so is what a handler makes of a text.

**Theorem (`config_reads_complete`).** In every run in which no write truncates the file while another one
is unfinished, and no text parses whose read overlapped a write, every text that is applied or written back
is the complete text of a finished write. An empty file is a valid config (`truncated_config_applied`).

`applied` and `finished` are history, and so is what a reader knows of the writes it has met.
-/

namespace EndaraRelay

open Verif

/-! ## Steps -/

/-- The file. `finished` are the complete texts, newest first, and `applied` what was read and parsed. -/
structure ConfigText where
  content : List UInt8
  finished : List (List UInt8)
  applied : List (List UInt8)

/-- What a reader does with a text that parses. -/
inductive TextOp where
  | reload
  | rewrite (edit : List UInt8 → Option (List UInt8))

/-- A reader counts the writes that had finished when it began, and notes whether it has met one that had
not. -/
inductive TextThread where
  | starting (op : TextOp)
  | reading (op : TextOp) (acc : List UInt8) (since : Nat) (alone : Bool)
  | opening (text : List UInt8)
  | writing (text : List UInt8) (offset : Nat)
  | ended

/-- A write has truncated the file and is not finished. -/
def TextThread.isWriting : TextThread → Bool
  | .writing _ _ => true
  | _ => false

/-- No write is unfinished. -/
def quiet (ts : List TextThread) : Bool := ts.all fun t => !t.isWriting

namespace ConfigText

variable (parses : List UInt8 → Bool)

/-- Some bytes of the text have been written. -/
def wrote (sh : ConfigText) (content text : List UInt8) (offset : Nat) : ConfigText × TextThread :=
  if offset = text.length then ({ sh with content, finished := text :: sh.finished }, .ended)
  else ({ sh with content }, .writing text offset)

/-- What follows once the file has been read. -/
def afterRead (op : TextOp) (text : List UInt8) : TextThread :=
  match op with
  | .reload => .ended
  | .rewrite edit => ((edit text).map TextThread.opening).getD .ended

/-- The end of the file is reached. -/
def finishRead (sh : ConfigText) (op : TextOp) (text : List UInt8) : ConfigText × TextThread :=
  if parses text then ({ sh with applied := text :: sh.applied }, afterRead op text) else (sh, .ended)

/-- The next bytes of the file. -/
def readMore (sh : ConfigText) (ts : List TextThread) (op : TextOp) (acc : List UInt8) (since : Nat)
    (alone : Bool) (n : Nat) : ConfigText × TextThread :=
  if sh.content.drop acc.length = [] then sh.finishRead parses op acc
  else (sh, .reading op (acc ++ (sh.content.drop acc.length).take (n + 1)) since (alone && quiet ts))

end ConfigText

/-- One system call, which moves at most `n + 1` bytes. -/
def TextThread.step (parses : List UInt8 → Bool) (sh : ConfigText) (ts : List TextThread) (t : TextThread)
    (n : Nat) : Option (ConfigText × TextThread) :=
  match t with
  | .starting op => some (sh, .reading op [] sh.finished.length (quiet ts))
  | .reading op acc since alone => some (sh.readMore parses ts op acc since alone n)
  | .opening text => some (sh.wrote [] text 0)
  | .writing text offset =>
    let data := (text.drop offset).take (n + 1)
    some (sh.wrote (writeAt sh.content offset data) text (offset + data.length))
  | .ended => none

/-- Any number of readers and writers, from a complete text. -/
def configReads (parses : List UInt8 → Bool) : Pool ConfigText TextThread TextOp Nat where
  init sh := sh.finished = [sh.content] ∧ sh.applied = []
  launch _ _ op := some (.starting op)
  step sh ts t n := (t.step parses sh ts n).map fun r => (r.1, r.2, [])

abbrev ConfigReadsState := Pool.State ConfigText TextThread

abbrev ConfigReadsAction := Pool.Action TextOp Nat

/-- A write begins while no other one is unfinished, and a text parses only if no write was unfinished or
finished while it was read. -/
def writesApart (parses : List UInt8 → Bool) (s : ConfigReadsState) : ConfigReadsAction → Bool
  | .launch _ => true
  | .run i _ => match s.threads[i]? with
    | some (.opening _) => quiet s.threads
    | some (.reading _ acc since alone) =>
      s.shared.content.drop acc.length ≠ [] || !parses acc ||
        (alone && quiet s.threads && s.shared.finished.length = since)
    | _ => true

/-! ## What holds while reads and writes keep apart -/

/-- What a thread has read or written is the beginning of a complete text. -/
def TextThread.Fits (sh : ConfigText) : TextThread → Prop
  | .reading _ acc since alone => since ≤ sh.finished.length ∧
      (alone = true → sh.finished.length = since →
        ∃ text ∈ sh.finished.head?, acc = text.take acc.length)
  | .writing text offset => offset ≤ text.length ∧ sh.content = text.take offset
  | _ => True

structure TextInv (s : ConfigReadsState) : Prop where
  fits : ∀ t ∈ s.threads, t.Fits s.shared
  settled : quiet s.threads = true → s.shared.finished.head? = some s.shared.content
  applied : ∀ text ∈ s.shared.applied, text ∈ s.shared.finished

variable {op : TextOp} {acc : List UInt8} {since : Nat} {alone : Bool}

section Steps

variable {parses : List UInt8 → Bool} {s : ConfigReadsState} {sh sh' : ConfigText} {ts : List TextThread}
  {t t' u : TextThread} {n i j : Nat} {content text : List UInt8} {offset : Nat}

theorem quiet_iff : quiet ts = true ↔ ∀ t ∈ ts, t.isWriting = false := by
  simp [quiet]

/-- What the guard asks of a write that begins. -/
theorem quiet_of_opening (h : writesApart parses s (.run i n) = true)
    (hi : s.threads[i]? = some (.opening text)) : quiet s.threads = true := by
  unfold writesApart at h
  dsimp only at h
  rwa [hi] at h

/-- What the guard asks of a text that parses. -/
theorem alone_of_reading (h : writesApart parses s (.run i n) = true)
    (hi : s.threads[i]? = some (.reading op acc since alone))
    (hend : s.shared.content.drop acc.length = []) (hparses : parses acc = true) :
    (alone = true ∧ quiet s.threads = true) ∧ s.shared.finished.length = since := by
  unfold writesApart at h
  dsimp only at h
  rw [hi] at h
  simpa [hend, hparses] using h

/-! ### Writes -/

theorem isWriting_finishRead (op : TextOp) : (sh.finishRead parses op text).2.isWriting = false := by
  unfold ConfigText.finishRead
  split
  · unfold ConfigText.afterRead
    split
    · rfl
    · next edit => cases edit text <;> rfl
  · rfl

theorem isWriting_readMore (parses : List UInt8 → Bool) (sh : ConfigText) (ts : List TextThread)
    (op : TextOp) (acc : List UInt8) (since : Nat) (alone : Bool) (n : Nat) :
    (sh.readMore parses ts op acc since alone n).2.isWriting = false := by
  unfold ConfigText.readMore
  split
  · exact isWriting_finishRead op
  · rfl

/-- A write that is unfinished was unfinished before, or has just begun. -/
theorem step_begins (h : t.step parses sh ts n = some (sh', t')) (ht' : t'.isWriting = true) :
    t.isWriting = true ∨ ∃ text, t = .opening text := by
  cases t with
  | starting op =>
    cases h
    cases ht'
  | reading op acc since alone =>
    have hnot := isWriting_readMore parses sh ts op acc since alone n
    rw [Option.some.inj h] at hnot
    exact absurd ht' (by simp [hnot])
  | opening text => exact .inr ⟨text, rfl⟩
  | writing text offset => exact .inl rfl
  | ended => cases h

theorem writing_exclusive
    (h : (configReads parses).system.ReachableWhile (fun s a => writesApart parses s a = true) s) :
    s.threads.Pairwise fun t u => ¬ (t.isWriting = true ∧ u.isWriting = true) := by
  refine Pool.exclusive_of (H := fun _ t => TextThread.isWriting t = true) ?_ ?_ ?_ ?_ h
  · intro sh ts op t ht
    cases ht
    exact Bool.false_ne_true
  · intro s i n t sh' t' new hok hi hst ht'
    obtain ⟨⟨sh₁, t₁⟩, htask, heq⟩ := Option.map_eq_some_iff.1 hst
    cases heq
    obtain hself | ⟨text, rfl⟩ := step_begins htask ht'
    · exact .inl hself
    · refine .inr fun u hu => ?_
      rw [quiet_iff.1 (quiet_of_opening hok hi) u hu]
      exact Bool.false_ne_true
  · intro sh ts t n sh' t' new hst u hu
    obtain ⟨r, -, heq⟩ := Option.map_eq_some_iff.1 hst
    cases heq
    cases hu
  · intro sh ts t n sh' t' new u _ hu
    exact hu

/-- **A write call** leaves the text up to its new position, and ends the write when that is all of it. -/
theorem wrote_cases (sh : ConfigText) (hcontent : content = text.take offset) (hle : offset ≤ text.length) :
    (content = text ∧
      sh.wrote content text offset = ({ sh with content := text, finished := text :: sh.finished }, .ended)) ∨
    sh.wrote content text offset = ({ sh with content }, .writing text offset) ∧
      TextThread.Fits { sh with content } (.writing text offset) := by
  unfold ConfigText.wrote
  split
  · next hall =>
    have hcomplete : content = text := by rw [hcontent, hall, List.take_length]
    exact .inl ⟨hcomplete, by rw [hcomplete]⟩
  · exact .inr ⟨rfl, hle, hcontent⟩

/-- The bytes of a call are appended to what has been written. -/
theorem writeAt_taken (hcontent : content = text.take offset) (hle : offset ≤ text.length) (n : Nat) :
    writeAt content offset ((text.drop offset).take n) =
      text.take (offset + ((text.drop offset).take n).length) := by
  have hlength : content.length = offset := by
    rw [hcontent, List.length_take, Nat.min_eq_left hle]
  rw [← take_append_take_drop, ← hcontent]
  nth_rewrite 1 [← hlength]
  exact writeAt_end content _

theorem offset_taken (hle : offset ≤ text.length) (n : Nat) :
    offset + ((text.drop offset).take n).length ≤ text.length := by
  rw [List.length_take, List.length_drop]
  omega

/-! ### Reads -/

/-- **A read call** leaves the file alone. -/
theorem readMore_frame (parses : List UInt8 → Bool) (sh : ConfigText) (ts : List TextThread)
    (op : TextOp) (acc : List UInt8) (since : Nat) (alone : Bool) (n : Nat) :
    (sh.readMore parses ts op acc since alone n).1.content = sh.content ∧
      (sh.readMore parses ts op acc since alone n).1.finished = sh.finished := by
  unfold ConfigText.readMore
  split
  · unfold ConfigText.finishRead
    split <;> exact ⟨rfl, rfl⟩
  · exact ⟨rfl, rfl⟩

/-- A reader that has met no unfinished write has read the newest complete text so far. -/
theorem readMore_fits (hsettled : quiet ts = true → sh.finished.head? = some sh.content)
    (h : TextThread.Fits sh (.reading op acc since alone)) (parses : List UInt8 → Bool) (n : Nat) :
    TextThread.Fits (sh.readMore parses ts op acc since alone n).1
      (sh.readMore parses ts op acc since alone n).2 := by
  unfold ConfigText.readMore
  split
  · unfold ConfigText.finishRead
    split
    · unfold ConfigText.afterRead
      split
      · trivial
      · next edit => cases edit acc <;> trivial
    · trivial
  · refine ⟨h.1, fun halone hsame => ⟨sh.content, ?_, ?_⟩⟩
    · exact hsettled (Bool.and_eq_true_iff.1 halone).2
    · obtain ⟨halone, hquiet⟩ := Bool.and_eq_true_iff.1 halone
      obtain ⟨text, hhead, hacc⟩ := h.2 halone hsame
      obtain rfl : sh.content = text := Option.some.inj ((hsettled hquiet).symm.trans hhead)
      rw [List.length_append, ← take_append_take_drop, ← hacc]

/-- **The end of a read**: a text that parses is a complete one. -/
theorem readMore_applied (hok : writesApart parses s (.run i n) = true)
    (hi : s.threads[i]? = some (.reading op acc since alone)) (hinv : TextInv s) :
    ∀ text ∈ (s.shared.readMore parses s.threads op acc since alone n).1.applied,
      text ∈ s.shared.finished := by
  unfold ConfigText.readMore
  split
  · next hend =>
    unfold ConfigText.finishRead
    split
    · next hparses =>
      obtain ⟨⟨halone, hquiet⟩, hsame⟩ := alone_of_reading hok hi hend hparses
      obtain ⟨text, hhead, hacc⟩ := (hinv.fits _ (List.mem_of_getElem? hi)).2 halone hsame
      obtain rfl : s.shared.content = text := Option.some.inj ((hinv.settled hquiet).symm.trans hhead)
      have hcomplete : acc = s.shared.content := by
        rw [hacc]
        exact List.take_of_length_le (List.drop_eq_nil_iff.1 hend)
      refine List.forall_mem_cons.2 ⟨?_, hinv.applied⟩
      rw [hcomplete]
      exact List.mem_of_mem_head? hhead
    · exact hinv.applied
  · exact hinv.applied

/-! ### Other threads -/

theorem fits_congr (hcontent : sh'.content = sh.content) (hfinished : sh'.finished = sh.finished)
    (h : u.Fits sh) : u.Fits sh' := by
  cases u with
  | reading op acc since alone =>
    unfold TextThread.Fits
    rw [hfinished]
    exact h
  | writing text offset => exact ⟨h.1, hcontent.trans h.2⟩
  | _ => trivial

/-- A write that goes on or ends leaves the readers. -/
theorem fits_of_written (hquiet : u.isWriting = false)
    (hfinished : sh'.finished = sh.finished ∨ ∃ text, sh'.finished = text :: sh.finished) (h : u.Fits sh) :
    u.Fits sh' := by
  cases u with
  | reading op acc since alone =>
    obtain hsame | ⟨text, hmore⟩ := hfinished
    · unfold TextThread.Fits
      rw [hsame]
      exact h
    · have hlength : sh'.finished.length = sh.finished.length + 1 := by rw [hmore, List.length_cons]
      have hle := h.1
      refine ⟨by omega, fun _ hsince => ?_⟩
      omega
  | writing text offset => cases hquiet
  | _ => trivial

end Steps

section Runs

variable {parses : List UInt8 → Bool} {s : ConfigReadsState}

/-- A step of a reader keeps the invariant. -/
theorem TextInv.read {i : Nat} {sh' : ConfigText} {t t' : TextThread} (hinv : TextInv s)
    (hi : s.threads[i]? = some t) (ht : t.isWriting = false) (hcontent : sh'.content = s.shared.content)
    (hfinished : sh'.finished = s.shared.finished) (hfits : t'.Fits sh')
    (happlied : ∀ text ∈ sh'.applied, text ∈ s.shared.finished) :
    TextInv ⟨sh', Pool.stepped s.threads i t' []⟩ where
  fits := by
    refine Pool.forall_mem_stepped hfits (List.forall_mem_nil _) fun j u _ hj => ?_
    exact fits_congr hcontent hfinished (hinv.fits u (List.mem_of_getElem? hj))
  settled := by
    intro hquiet
    dsimp only
    rw [hcontent, hfinished]
    exact hinv.settled (quiet_iff.2 (Pool.forall_of_stepped hi ht (quiet_iff.1 hquiet)))
  applied := by
    dsimp only
    rwa [hfinished]

/-- **A step of a write** keeps it, when nobody else writes. -/
theorem TextInv.write {i : Nat} {t : TextThread} {content text : List UInt8} {offset : Nat}
    (hinv : TextInv s) (hi : s.threads[i]? = some t)
    (hothers : ∀ j u, j ≠ i → s.threads[j]? = some u → u.isWriting = false)
    (hcontent : content = text.take offset) (hle : offset ≤ text.length) :
    TextInv ⟨(s.shared.wrote content text offset).1,
      Pool.stepped s.threads i (s.shared.wrote content text offset).2 []⟩ := by
  obtain ⟨hcomplete, heq⟩ | ⟨heq, hfits⟩ := wrote_cases s.shared hcontent hle
  · rw [heq]
    refine ⟨?_, fun _ => rfl, fun text happlied => .tail _ (hinv.applied text happlied)⟩
    refine Pool.forall_mem_stepped trivial (List.forall_mem_nil _) fun j u hne hj => ?_
    exact fits_of_written (hothers j u hne hj) (.inr ⟨text, rfl⟩) (hinv.fits u (List.mem_of_getElem? hj))
  · rw [heq]
    refine ⟨?_, fun hquiet => ?_, hinv.applied⟩
    · refine Pool.forall_mem_stepped hfits (List.forall_mem_nil _) fun j u hne hj => ?_
      refine fits_of_written (hothers j u hne hj) ?_ (hinv.fits u (List.mem_of_getElem? hj))
      exact .inl rfl
    · cases quiet_iff.1 hquiet _ (Pool.mem_stepped_self hi)

theorem textInv (h : (configReads parses).system.ReachableWhile (fun s a => writesApart parses s a = true) s) :
    TextInv s := by
  refine Pool.invariant_of (J := TextInv) (fun s hs => writing_exclusive hs) ?_ ?_ ?_ h
  · intro sh hinit
    refine ⟨List.forall_mem_nil _, fun _ => ?_, ?_⟩
    · rw [hinit.1]
      rfl
    · rw [hinit.2]
      exact List.forall_mem_nil _
  · intro s op t _ hinv _ ht
    cases ht
    refine ⟨fun u hu => ?_, fun hquiet => hinv.settled ?_, hinv.applied⟩
    · rcases List.mem_append.1 hu with hu | hu
      · exact hinv.fits u hu
      · rw [List.mem_singleton.1 hu]
        trivial
    · exact quiet_iff.2 fun u hu => quiet_iff.1 hquiet u (List.mem_append_left _ hu)
  · intro s i n t sh' t' new hone hinv hok hi hst
    obtain ⟨⟨sh₁, t₁⟩, htask, heq⟩ := Option.map_eq_some_iff.1 hst
    cases heq
    cases t with
    | starting op =>
      cases htask
      refine hinv.read hi rfl rfl rfl ⟨Nat.le_refl _, fun halone _ => ?_⟩ hinv.applied
      exact ⟨s.shared.content, hinv.settled halone, rfl⟩
    | reading op acc since alone =>
      obtain ⟨hcontent, hfinished⟩ :=
        readMore_frame parses s.shared s.threads op acc since alone n
      have hfits := readMore_fits hinv.settled (hinv.fits _ (List.mem_of_getElem? hi)) parses n
      have happlied := readMore_applied hok hi hinv
      rw [Option.some.inj htask] at hcontent hfinished hfits happlied
      exact hinv.read hi rfl hcontent hfinished hfits happlied
    | opening text =>
      have hquiet := quiet_iff.1 (quiet_of_opening hok hi)
      have hnew := hinv.write hi (fun j u _ hj => hquiet u (List.mem_of_getElem? hj))
        (List.take_zero (l := text)).symm (Nat.zero_le _)
      rwa [Option.some.inj htask] at hnew
    | writing text offset =>
      obtain ⟨hle, hcontent⟩ := hinv.fits _ (List.mem_of_getElem? hi)
      have hothers (j : Nat) (u : TextThread) (hne : j ≠ i) (hj : s.threads[j]? = some u) :
          u.isWriting = false := by
        have hnot := Pool.not_holds_of_ne (H := fun _ t => TextThread.isWriting t = true) hone hi rfl hj hne
        exact Bool.not_eq_true _ ▸ hnot
      have hnew := hinv.write hi hothers (writeAt_taken hcontent hle (n + 1)) (offset_taken hle (n + 1))
      rwa [Option.some.inj htask] at hnew
    | ended => cases htask

/-- **What is applied or written back is complete**, as long as reads and writes keep apart. -/
theorem config_reads_complete
    (h : (configReads parses).system.ReachableWhile (fun s a => writesApart parses s a = true) s) :
    ∀ text ∈ s.shared.applied, text ∈ s.shared.finished :=
  (textInv h).applied

end Runs

/-! ## Runs -/

def endpointsText : List UInt8 :=
  [0x65, 0x6e, 0x64, 0x70, 0x6f, 0x69, 0x6e, 0x74, 0x73, 0x3d, 0x5b, 0x7b, 0x6e,
    0x61, 0x6d, 0x65, 0x3d, 0x22, 0x61, 0x22, 0x2c, 0x74, 0x72, 0x61, 0x6e, 0x73,
    0x70, 0x6f, 0x72, 0x74, 0x3d, 0x22, 0x68, 0x74, 0x74, 0x70, 0x22, 0x7d, 0x5d]

/-- An empty file is a config, and the whole text; what is cut off in between does not parse. -/
def endpointsParse (text : List UInt8) : Bool := text = [] || text = endpointsText

def endpointsFile : ConfigReadsState := ⟨⟨endpointsText, [endpointsText], []⟩, []⟩

theorem endpointsFile_init : (configReads endpointsParse).system.init endpointsFile := ⟨⟨rfl, rfl⟩, rfl⟩

def configRewrite : List ConfigReadsAction := .launch (.rewrite some) :: List.replicate 3 (.run 0 99)

/-- A reload after the handler has written the text in two calls. -/
def reloadAfterWrite : List ConfigReadsAction :=
  configRewrite ++ [.run 0 99, .run 0 20, .run 0 99, .launch .reload] ++ List.replicate 4 (.run 1 20)

theorem reloadAfterWrite_run : ∃ s,
    (configReads endpointsParse).system.runWhile (writesApart endpointsParse) endpointsFile reloadAfterWrite = some s ∧
      s.shared.applied = [endpointsText, endpointsText] :=
  ⟨_, rfl, rfl⟩

theorem config_reads_complete_reload : ∃ s,
    (configReads endpointsParse).system.ReachableWhile (fun s a => writesApart endpointsParse s a = true) s ∧
      s.shared.applied = [endpointsText, endpointsText] ∧ ∀ text ∈ s.shared.applied, text ∈ s.shared.finished := by
  obtain ⟨s, hrun, happlied⟩ := reloadAfterWrite_run
  have hreach := (System.ReachableWhile.init endpointsFile_init).run (fun _ _ h => h) hrun
  exact ⟨s, hreach, happlied, config_reads_complete hreach⟩

def reloadDuringWrite : List ConfigReadsAction :=
  configRewrite ++ [.run 0 99, .launch .reload, .run 1 99, .run 1 99, .run 0 99]

theorem reloadDuringWrite_run : ∃ s,
    (configReads endpointsParse).system.run endpointsFile reloadDuringWrite = some s ∧
      s.shared.applied = [[], endpointsText] ∧ s.shared.finished = [endpointsText, endpointsText] :=
  ⟨_, rfl, rfl, rfl⟩

/-- A reload applies the empty config of a truncated file. -/
theorem truncated_config_applied : ∃ s, (configReads endpointsParse).system.Reachable s ∧
    ∃ text ∈ s.shared.applied, text ∉ s.shared.finished ∧
      ∀ complete ∈ s.shared.finished, text <+: complete ∧ text ≠ complete := by
  obtain ⟨s, hrun, happlied, hfinished⟩ := reloadDuringWrite_run
  refine ⟨s, (System.Reachable.init endpointsFile_init).run hrun, [], ?_, ?_, ?_⟩
  · rw [happlied]
    exact .head _
  · rw [hfinished]
    decide
  · rw [hfinished]
    decide

end EndaraRelay
