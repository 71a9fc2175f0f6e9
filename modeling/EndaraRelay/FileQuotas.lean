import EndaraRelay.Lib.Base64.Standard
import EndaraRelay.Lib.Program
import EndaraRelay.WritePaths

/-!
# Quotas of files

`writeFile` and `readFile` of the sandbox (`js_sandbox.rs`) with the limits of one script run: the number
of files, the bytes of one file and the bytes of all. A call looks at the counters of the run, does its
work and moves them; what the file system does is answered from outside, for each call anew.

- `writeFileToRoots` checks the number of files and an estimate of the size, resolves the path, decodes
  the data and checks the total before it writes. Theorem: `write_quotas`.
- `readFile` checks the size of the open file and reads no more than what is left of the quota.
  Theorem: `read_quotas`. A read that fails after its bytes have been pulled has used its quota up
  (`failed_read_consumes`).
-/

namespace EndaraRelay

open Verif Verif.Base64

/-! ## Limits -/

def usizeMax : Nat := 18446744073709551615

def saturatingAdd (a b : Nat) : Nat := min (a + b) usizeMax

def saturatingMul (a b : Nat) : Nat := min (a * b) usizeMax

/-- `WriteLimits` and `ReadLimits`. The limits in use are far from the end of the counters. -/
structure FileLimits where
  maxFileBytes : Nat
  maxFilesPerRun : Nat
  maxTotalBytesPerRun : Nat
  total_lt : maxTotalBytesPerRun < usizeMax

def FileLimits.default : FileLimits where
  maxFileBytes := 33554432
  maxFilesPerRun := 64
  maxTotalBytesPerRun := 268435456
  total_lt := by decide

/-- The files and bytes that a run has written, or has read. -/
structure RunUsage where
  files : Nat := 0
  bytes : Nat := 0
deriving DecidableEq

/-! ## Writing -/

/-- A string of a script, in UTF-8. The language has no strings of `2 ^ 53` code units, and a code unit
takes at most six bytes, where it is escaped. -/
structure ScriptString where
  bytes : List UInt8
  length_le : bytes.length ≤ 6 * 9007199254740991

/-- The second argument of `writeFile`. -/
inductive WriteData where
  | missing
  | notString
  | string (data : ScriptString)

inductive WriteRejection where
  | invalidArgument (msg : String)
  | failed (msg : String)

structure WriteOutcome where
  path : AbsolutePath
  bytes : Nat

/-- The decoder of the base64 crate, with the texts of its errors: it accepts canonical encodings. -/
structure Base64Engine where
  decode : List UInt8 → Except String (List UInt8)
  canonical : ∀ text bytes, decode text = .ok bytes ↔ text = encodeStandard bytes

/-- The texts of its errors apart, this is the decoder. -/
def standardEngine : Base64Engine where
  decode text :=
    match decodeStandard text with
    | some bytes => .ok bytes
    | none => .error "Invalid input"
  canonical text bytes := by
    rw [← decodeStandard_eq_some]
    cases decodeStandard text with
    | none => simp
    | some decoded => simp

/-- A call of `writeFile`: the arguments, and what the file system answers. -/
structure WriteCall where
  path : Option String
  data : WriteData
  encoding : Option String
  answers : PathAnswers
  written : Except String Unit

/-- The size of the decoded data, before it is decoded. -/
def estimatedLen (encoding : String) (data : List UInt8) : Option Nat :=
  if encoding = "utf8" then some data.length
  else if encoding = "base64" then
    let padding := (data.reverse.take 2).countP (· == 0x3D)
    some (saturatingMul data.length 3 / 4 - padding)
  else none

def decodeData (engine : Base64Engine) (op encoding : String) (data : List UInt8) :
    Except WriteRejection (List UInt8) :=
  if encoding = "utf8" then .ok data
  else if encoding = "base64" then
    (engine.decode data).mapError fun e => .failed (op ++ ": invalid base64 data: " ++ e)
  else
    .error (.invalidArgument (op ++ ": unsupported encoding '" ++ encoding ++
      "' (expected \"utf8\" or \"base64\")"))

section Writes

variable (engine : Base64Engine) (display : AbsolutePath → String) (writeRoots : List AbsolutePath)
  (limits : FileLimits)

def writeFileToRoots (op pathStr : String) (data : List UInt8) (encoding : String) (usage : RunUsage)
    (answers : PathAnswers) (written : Except String Unit) : Except WriteRejection WriteOutcome :=
  if limits.maxFilesPerRun ≤ usage.files then
    .error (.failed (op ++ ": per-run limit of " ++ toString limits.maxFilesPerRun ++
      " file writes reached — no further files can be written by this script run"))
  else
    match (estimatedLen encoding data).filter (limits.maxFileBytes < ·) with
    | some estimated =>
      .error (.failed (op ++ ": data is " ++ (if encoding = "base64" then "approximately " else "") ++
        toString estimated ++ " bytes, which exceeds the per-file limit of " ++
        toString limits.maxFileBytes ++ " bytes"))
    | none => do
      let (dest, _) ← (resolveWritePath answers display op pathStr writeRoots).mapError .failed
      let bytes ← decodeData engine op encoding data
      if limits.maxTotalBytesPerRun < saturatingAdd usage.bytes bytes.length then
        .error (.failed (op ++ ": writing " ++ toString bytes.length ++
          " more bytes would exceed the per-run total write limit of " ++
          toString limits.maxTotalBytesPerRun ++ " bytes (" ++ toString usage.bytes ++
          " bytes already written)"))
      else do
        written.mapError .failed
        .ok { path := dest, bytes := bytes.length }

/-- `write_file_native`: the result, and the usage afterwards. -/
def writeFile (usage : RunUsage) (call : WriteCall) :
    Except WriteRejection WriteOutcome × RunUsage :=
  match call.path, call.data with
  | none, _ => (.error (.invalidArgument "writeFile: missing path"), usage)
  | _, .missing => (.error (.invalidArgument "writeFile: missing data"), usage)
  | _, .notString => (.error (.invalidArgument "writeFile: data must be a string"), usage)
  | some path, .string data =>
    match writeFileToRoots engine display writeRoots limits "writeFile" path data.bytes
        (call.encoding.getD "utf8") usage call.answers call.written with
    | .error rejection => (.error rejection, usage)
    | .ok outcome =>
      (.ok outcome,
        { files := usage.files + 1, bytes := saturatingAdd usage.bytes outcome.bytes })

def WriteCall.content (call : WriteCall) : List UInt8 :=
  match call.data with
  | .string data =>
    match decodeData engine "writeFile" (call.encoding.getD "utf8") data.bytes with
    | .ok bytes => bytes
    | .error _ => []
  | _ => []

/-- The calls of a run: the contents of the files that were written, and the usage at the end. -/
def writeRun (usage : RunUsage) : List WriteCall → List (List UInt8) × RunUsage
  | [] => ([], usage)
  | call :: calls =>
    match writeFile engine display writeRoots limits usage call with
    | (.error _, usage') => writeRun usage' calls
    | (.ok _, usage') =>
      let (written, usage'') := writeRun usage' calls
      (call.content engine :: written, usage'')

end Writes

/-! ## The estimate -/

theorem ScriptString.mul_le (data : ScriptString) : data.bytes.length * 3 ≤ usizeMax := by
  have h := data.length_le
  unfold usizeMax
  omega

variable {data : ScriptString} {bytes : List UInt8} {allowed : Nat}

/-- For base64 data the estimate is the number of bytes it encodes. -/
theorem estimatedLen_base64 (h : data.bytes = encodeStandard bytes) :
    estimatedLen "base64" data.bytes = some bytes.length := by
  have hmul := data.mul_le
  rw [h] at hmul
  rw [h, estimatedLen, if_neg (by decide), if_pos rfl]
  dsimp only
  rw [saturatingMul, Nat.min_eq_left hmul, length_estimate]

/-- Whatever is decoded has been estimated. -/
theorem estimatedLen_of_decodeData {engine : Base64Engine} {op encoding : String}
    (h : decodeData engine op encoding data.bytes = .ok bytes) :
    estimatedLen encoding data.bytes = some bytes.length := by
  unfold decodeData at h
  by_cases hutf8 : encoding = "utf8"
  · rw [if_pos hutf8] at h
    cases h
    rw [estimatedLen, if_pos hutf8]
  · by_cases hbase64 : encoding = "base64"
    · subst hbase64
      rw [if_neg hutf8, if_pos rfl] at h
      cases hdecode : engine.decode data.bytes with
      | error e =>
        rw [hdecode] at h
        cases h
      | ok decoded =>
        rw [hdecode] at h
        cases h
        exact estimatedLen_base64 ((engine.canonical _ _).1 hdecode)
    · rw [if_neg hutf8, if_neg hbase64] at h
      cases h

/-! ## The writes of a run -/

section WriteTheorems

variable {engine : Base64Engine} {display : AbsolutePath → String} {writeRoots : List AbsolutePath}
  {limits : FileLimits} {usage : RunUsage}

theorem saturatingAdd_of_le {a b : Nat} (h : saturatingAdd a b ≤ limits.maxTotalBytesPerRun) :
    saturatingAdd a b = a + b := by
  have hlt := limits.total_lt
  unfold saturatingAdd at h ⊢
  omega

/-- What a write that succeeds has passed. -/
structure Admitted (limits : FileLimits) (usage : RunUsage) (size : Nat) : Prop where
  files : usage.files < limits.maxFilesPerRun
  file : size ≤ limits.maxFileBytes
  total : usage.bytes + size ≤ limits.maxTotalBytesPerRun

theorem writeFileToRoots_ok {op pathStr encoding : String} {answers : PathAnswers}
    {written : Except String Unit} {outcome : WriteOutcome}
    (h : writeFileToRoots engine display writeRoots limits op pathStr data.bytes encoding usage answers
      written = .ok outcome) :
    ∃ bytes, decodeData engine op encoding data.bytes = .ok bytes ∧ outcome.bytes = bytes.length ∧
      Admitted limits usage bytes.length := by
  unfold writeFileToRoots at h
  by_cases hfiles : limits.maxFilesPerRun ≤ usage.files
  · rw [if_pos hfiles] at h
    cases h
  · rw [if_neg hfiles] at h
    cases hestimate : (estimatedLen encoding data.bytes).filter (limits.maxFileBytes < ·) with
    | some estimated =>
      rw [hestimate] at h
      cases h
    | none =>
      rw [hestimate] at h
      dsimp only at h
      obtain ⟨dest, -, h⟩ := exists_of_bind_ok h
      obtain ⟨bytes, hdecode, h⟩ := exists_of_bind_ok h
      by_cases htotal : limits.maxTotalBytesPerRun < saturatingAdd usage.bytes bytes.length
      · rw [if_pos htotal] at h
        cases h
      · rw [if_neg htotal] at h
        obtain ⟨-, -, h⟩ := exists_of_bind_ok h
        cases h
        rw [estimatedLen_of_decodeData hdecode] at hestimate
        have hsum := saturatingAdd_of_le (Nat.le_of_not_lt htotal)
        refine ⟨bytes, hdecode, rfl, Nat.lt_of_not_le hfiles, ?_, ?_⟩
        · simpa [Option.filter] using hestimate
        · omega

/-- **A call**: it is rejected and leaves the usage as it was, or it writes its content. -/
theorem writeFile_cases (engine : Base64Engine) (display : AbsolutePath → String)
    (writeRoots : List AbsolutePath) (limits : FileLimits) (usage : RunUsage) (call : WriteCall) :
    (∃ rejection, writeFile engine display writeRoots limits usage call = (.error rejection, usage)) ∨
      ∃ outcome, writeFile engine display writeRoots limits usage call = (.ok outcome,
          ⟨usage.files + 1, usage.bytes + (call.content engine).length⟩) ∧
        Admitted limits usage (call.content engine).length := by
  unfold writeFile
  cases hpath : call.path with
  | none => exact .inl ⟨_, rfl⟩
  | some path =>
    cases hdata : call.data with
    | missing => exact .inl ⟨_, rfl⟩
    | notString => exact .inl ⟨_, rfl⟩
    | string data =>
      dsimp only
      cases hwrite : writeFileToRoots engine display writeRoots limits "writeFile" path data.bytes
          (call.encoding.getD "utf8") usage call.answers call.written with
      | error rejection => exact .inl ⟨rejection, rfl⟩
      | ok outcome =>
        obtain ⟨bytes, hdecode, hbytes, hadmitted⟩ := writeFileToRoots_ok hwrite
        have hcontent : call.content engine = bytes := by
          rw [WriteCall.content, hdata]
          dsimp only
          rw [hdecode]
        have hle : saturatingAdd usage.bytes bytes.length ≤ limits.maxTotalBytesPerRun := by
          have := hadmitted.total
          unfold saturatingAdd
          omega
        refine .inr ⟨outcome, ?_, hcontent ▸ hadmitted⟩
        rw [hcontent]
        dsimp only
        rw [hbytes, saturatingAdd_of_le hle]

/-- The writes of a run stay within what its usage leaves of the limits. -/
theorem writeRun_le (calls : List WriteCall) (hfiles : usage.files ≤ limits.maxFilesPerRun)
    (hbytes : usage.bytes ≤ limits.maxTotalBytesPerRun) :
    let written := (writeRun engine display writeRoots limits usage calls).1
    usage.files + written.length ≤ limits.maxFilesPerRun ∧
      (∀ content ∈ written, content.length ≤ limits.maxFileBytes) ∧
      usage.bytes + written.flatten.length ≤ limits.maxTotalBytesPerRun := by
  induction calls generalizing usage with
  | nil => simpa [writeRun] using ⟨hfiles, hbytes⟩
  | cons call calls ih =>
    obtain ⟨rejection, hcall⟩ | ⟨outcome, hcall, hadmitted⟩ :=
      writeFile_cases engine display writeRoots limits usage call
    · dsimp only
      rw [writeRun, hcall]
      exact ih hfiles hbytes
    · dsimp only
      rw [writeRun, hcall]
      obtain ⟨hlength, hsizes, htotal⟩ :=
        @ih ⟨usage.files + 1, usage.bytes + (call.content engine).length⟩ hadmitted.files
          hadmitted.total
      dsimp only at hlength hsizes htotal ⊢
      refine ⟨?_, List.forall_mem_cons.2 ⟨hadmitted.file, hsizes⟩, ?_⟩
      · rw [List.length_cons]
        omega
      · rw [List.flatten_cons, List.length_append]
        omega

end WriteTheorems

/-- **Theorem.** In a run the number of files written, the size of each and the total stay within the
limits; a rejected call leaves the usage as it was; and the estimate is exact for base64 data. -/
theorem write_quotas (engine : Base64Engine) (display : AbsolutePath → String)
    (writeRoots : List AbsolutePath) (limits : FileLimits) (calls : List WriteCall) :
    let written := (writeRun engine display writeRoots limits {} calls).1
    written.length ≤ limits.maxFilesPerRun ∧
      (∀ content ∈ written, content.length ≤ limits.maxFileBytes) ∧
      written.flatten.length ≤ limits.maxTotalBytesPerRun ∧
      (∀ usage call rejection usage', writeFile engine display writeRoots limits usage call =
        (.error rejection, usage') → usage' = usage) ∧
      ∀ (data : ScriptString) bytes, data.bytes = encodeStandard bytes →
        estimatedLen "base64" data.bytes = some bytes.length := by
  intro written
  obtain ⟨hlength, hsizes, htotal⟩ := @writeRun_le engine display writeRoots limits {} calls
    (Nat.zero_le _) (Nat.zero_le _)
  dsimp only at hlength hsizes htotal
  rw [Nat.zero_add] at hlength htotal
  refine ⟨hlength, hsizes, htotal, ?_, fun _ _ h => estimatedLen_base64 h⟩
  intro usage call rejection usage' h
  obtain ⟨_, hcall⟩ | ⟨_, hcall, -⟩ := writeFile_cases engine display writeRoots limits usage call
  · rw [hcall] at h
    cases h
    rfl
  · rw [hcall] at h
    cases h

/-! ## Reading -/

/-- What one `read` of an open file gives. -/
inductive ReadResult where
  | bytes (chunk : List UInt8)
  | interrupted
  | error (msg : String)

inductive FileKind where
  | directory
  | regular
  | other
deriving DecidableEq

/-- Why a file cannot be opened. -/
inductive OpenError where
  | notFound
  | symlinkLoop
  | other (msg : String)

/-- What the file system answers to a read: the kind of the entry before it is opened, the open file's
kind and length, and then whatever the reads give. -/
structure FileAnswers where
  precheck : Except OpenError FileKind
  opened : Except OpenError Unit
  metadata : Except String (FileKind × Nat)
  reads : List ReadResult

structure ReadCall where
  path : Option String
  encoding : Option String
  answers : PathAnswers
  file : FileAnswers

/-- What a read delivers: the bytes of the file, and the text that stands for them. -/
structure Delivered where
  bytes : List UInt8
  contents : String
deriving DecidableEq

def openErrorMessage (pathStr : String) : OpenError → String
  | .notFound => "readFile: '" ++ pathStr ++ "' does not exist"
  | .symlinkLoop => "readFile: '" ++ pathStr ++ "' refers to a symbolic link or a path containing a " ++
      "symbolic link loop, which cannot be read"
  | .other e => "readFile: failed to read '" ++ pathStr ++ "': " ++ e

def rejectNonRegularKind (pathStr : String) : FileKind → Except String Unit
  | .directory => .error ("readFile: '" ++ pathStr ++ "' is a directory, not a file")
  | .other => .error ("readFile: '" ++ pathStr ++
      "' is not a regular file (FIFOs, devices, and sockets cannot be read)")
  | .regular => .ok ()

/-- `take(limit).read_to_end`: the bytes that were read, and the error that ended it. -/
def readToEnd : Nat → List ReadResult → List UInt8 × Option String
  | _, [] => ([], none)
  | 0, _ :: _ => ([], none)
  | limit + 1, .bytes chunk :: reads =>
    let got := chunk.take (limit + 1)
    if got = [] then ([], none)
    else
      let (rest, error) := readToEnd (limit + 1 - got.length) reads
      (got ++ rest, error)
  | limit + 1, .interrupted :: reads => readToEnd (limit + 1) reads
  | _ + 1, .error msg :: _ => ([], some msg)

/-- `read_bounded`: whether there were more bytes than `allowed`. -/
def readBounded (allowed : Nat) (reads : List ReadResult) : List UInt8 × Except String Bool :=
  let (bytes, error) := readToEnd (saturatingAdd allowed 1) reads
  match error with
  | some msg => (bytes, .error msg)
  | none => (bytes, .ok (decide (allowed < bytes.length)))

section Reads

variable (display : AbsolutePath → String) (writeRoots : List AbsolutePath) (limits : FileLimits)

/-- The checks up to the first byte, and how many may be read. -/
def admitRead (usage : RunUsage) (call : ReadCall) : Except String Nat :=
  match call.path with
  | none => .error "readFile: missing path"
  | some path =>
    let encoding := call.encoding.getD "utf8"
    if encoding ≠ "utf8" ∧ encoding ≠ "base64" then
      .error ("readFile: unsupported encoding '" ++ encoding ++
        "' (expected \"utf8\" or \"base64\")")
    else if limits.maxFilesPerRun ≤ usage.files then
      .error ("readFile: per-run limit of " ++ toString limits.maxFilesPerRun ++
        " file reads reached — no further files can be read by this script run")
    else do
      let _ ← resolveWritePath call.answers display "readFile" path writeRoots
      let kind ← call.file.precheck.mapError (openErrorMessage path)
      rejectNonRegularKind path kind
      call.file.opened.mapError (openErrorMessage path)
      let (kind, len) ← call.file.metadata.mapError fun e =>
        "readFile: failed to read '" ++ path ++ "': " ++ e
      rejectNonRegularKind path kind
      let fileLen := min len usizeMax
      if limits.maxFileBytes < fileLen then
        .error ("readFile: '" ++ path ++ "' is " ++ toString fileLen ++
          " bytes, which exceeds the per-file limit of " ++ toString limits.maxFileBytes ++ " bytes")
      else if limits.maxTotalBytesPerRun < saturatingAdd usage.bytes fileLen then
        .error ("readFile: reading " ++ toString fileLen ++
          " more bytes would exceed the per-run total read limit of " ++
          toString limits.maxTotalBytesPerRun ++ " bytes (" ++ toString usage.bytes ++
          " bytes already read)")
      else .ok (min limits.maxFileBytes (limits.maxTotalBytesPerRun - usage.bytes))

/-- The text of what was read. -/
def decodeContents (path encoding : String) (bytes : List UInt8) : Except String Delivered :=
  if encoding = "utf8" then
    match String.fromUTF8? ⟨bytes.toArray⟩ with
    | some contents => .ok ⟨bytes, contents⟩
    | none => .error ("readFile: '" ++ path ++ "' does not contain valid UTF-8 — use " ++
        "\x7b encoding: \"base64\" \x7d to read binary files")
  else .ok ⟨bytes, Percent.asciiString (encodeStandard bytes)⟩

/-- `read_file_native`: the result, and the usage afterwards. What was pulled counts in any case. -/
def readFile (usage : RunUsage) (call : ReadCall) : Except String Delivered × RunUsage :=
  match admitRead display writeRoots limits usage call with
  | .error msg => (.error msg, usage)
  | .ok allowed =>
    let path := call.path.getD ""
    let (bytes, outcome) := readBounded allowed call.file.reads
    let usage' := { files := usage.files + 1, bytes := saturatingAdd usage.bytes bytes.length }
    match outcome with
    | .error e => (.error ("readFile: failed to read '" ++ path ++ "': " ++ e), usage')
    | .ok true =>
      (.error ("readFile: '" ++ path ++ "' exceeds the remaining read allowance of " ++
        toString allowed ++ " bytes (per-file limit " ++ toString limits.maxFileBytes ++
        " bytes, per-run total limit " ++ toString limits.maxTotalBytesPerRun ++ " bytes, " ++
        toString usage.bytes ++ " bytes already read)"), usage')
    | .ok false => (decodeContents path (call.encoding.getD "utf8") bytes, usage')

/-- The calls of a run: what was delivered, and the usage at the end. -/
def readRun (usage : RunUsage) : List ReadCall → List Delivered × RunUsage
  | [] => ([], usage)
  | call :: calls =>
    match readFile display writeRoots limits usage call with
    | (.error _, usage') => readRun usage' calls
    | (.ok delivered, usage') =>
      let (rest, usage'') := readRun usage' calls
      (delivered :: rest, usage'')

end Reads

/-! ## The reads of a run -/

variable {call : ReadCall} {delivered : Delivered}

section ReadTheorems

variable {display : AbsolutePath → String} {writeRoots : List AbsolutePath} {limits : FileLimits}
  {usage : RunUsage}

theorem readBounded_ok {reads : List ReadResult} (h : readBounded allowed reads = (bytes, .ok false)) :
    bytes.length ≤ allowed := by
  unfold readBounded at h
  dsimp only at h
  cases herror : (readToEnd (saturatingAdd allowed 1) reads).2 with
  | some msg =>
    rw [herror] at h
    cases h
  | none =>
    rw [herror] at h
    obtain ⟨rfl, hle⟩ := Prod.mk.inj h
    simpa using hle

theorem admitRead_ok (h : admitRead display writeRoots limits usage call = .ok allowed) :
    usage.files < limits.maxFilesPerRun ∧
      allowed = min limits.maxFileBytes (limits.maxTotalBytesPerRun - usage.bytes) := by
  unfold admitRead at h
  cases hpath : call.path with
  | none =>
    rw [hpath] at h
    cases h
  | some path =>
    rw [hpath] at h
    dsimp only at h
    by_cases hencoding : call.encoding.getD "utf8" ≠ "utf8" ∧ call.encoding.getD "utf8" ≠ "base64"
    · rw [if_pos hencoding] at h
      cases h
    · rw [if_neg hencoding] at h
      by_cases hfiles : limits.maxFilesPerRun ≤ usage.files
      · rw [if_pos hfiles] at h
        cases h
      · rw [if_neg hfiles] at h
        refine ⟨Nat.lt_of_not_le hfiles, ?_⟩
        obtain ⟨_, -, h⟩ := exists_of_bind_ok h
        obtain ⟨kind, -, h⟩ := exists_of_bind_ok h
        obtain ⟨_, -, h⟩ := exists_of_bind_ok h
        obtain ⟨_, -, h⟩ := exists_of_bind_ok h
        obtain ⟨⟨kind', len⟩, -, h⟩ := exists_of_bind_ok h
        obtain ⟨_, -, h⟩ := exists_of_bind_ok h
        split at h
        · cases h
        · split at h
          · cases h
          · exact (Except.ok.inj h).symm

theorem decodeContents_bytes {path encoding : String}
    (h : decodeContents path encoding bytes = .ok delivered) : delivered.bytes = bytes := by
  unfold decodeContents at h
  split at h
  · split at h
    · cases h
      rfl
    · cases h
  · cases h
    rfl

/-- The usage after a read whose bytes were pulled. -/
def RunUsage.afterRead (usage : RunUsage) (bytes : List UInt8) : RunUsage where
  files := usage.files + 1
  bytes := saturatingAdd usage.bytes bytes.length

/-- A read that is admitted counts, whatever becomes of it. -/
theorem readFile_usage (h : admitRead display writeRoots limits usage call = .ok allowed) :
    (readFile display writeRoots limits usage call).2 =
      usage.afterRead (readBounded allowed call.file.reads).1 := by
  unfold readFile
  rw [h]
  dsimp only
  split <;> rfl

theorem readFile_ok {usage' : RunUsage}
    (h : readFile display writeRoots limits usage call = (.ok delivered, usage')) :
    usage.files < limits.maxFilesPerRun ∧ delivered.bytes.length ≤ limits.maxFileBytes ∧
      delivered.bytes.length ≤ limits.maxTotalBytesPerRun - usage.bytes ∧
      usage' = usage.afterRead delivered.bytes := by
  cases hadmit : admitRead display writeRoots limits usage call with
  | error msg =>
    rw [readFile, hadmit] at h
    cases h
  | ok allowed =>
    have husage := readFile_usage hadmit
    rw [h] at husage
    obtain ⟨hfiles, hallowed⟩ := admitRead_ok hadmit
    rw [readFile, hadmit] at h
    dsimp only at h
    cases houtcome : (readBounded allowed call.file.reads).2 with
    | error e =>
      rw [houtcome] at h
      cases h
    | ok exceeded =>
      rw [houtcome] at h
      cases exceeded with
      | true => cases h
      | false =>
        have hbytes := decodeContents_bytes (Prod.mk.inj h).1
        have hle : (readBounded allowed call.file.reads).1.length ≤ allowed :=
          readBounded_ok (Prod.ext rfl houtcome)
        rw [hbytes]
        exact ⟨hfiles, by omega, by omega, husage⟩

/-- The reads of a run deliver no more than what its usage leaves of the limits. -/
theorem readRun_le (calls : List ReadCall) (hfiles : usage.files ≤ limits.maxFilesPerRun) :
    let delivered := (readRun display writeRoots limits usage calls).1
    usage.files + delivered.length ≤ limits.maxFilesPerRun ∧
      (∀ d ∈ delivered, d.bytes.length ≤ limits.maxFileBytes) ∧
      (delivered.flatMap (·.bytes)).length ≤ limits.maxTotalBytesPerRun - usage.bytes := by
  have hlt := limits.total_lt
  induction calls generalizing usage with
  | nil => simpa [readRun] using hfiles
  | cons call calls ih =>
    dsimp only
    rw [readRun]
    cases hread : readFile display writeRoots limits usage call with
    | mk result usage' =>
      cases result with
      | error msg =>
        dsimp only
        cases hadmit : admitRead display writeRoots limits usage call with
        | error e =>
          rw [readFile, hadmit] at hread
          cases hread
          exact ih hfiles
        | ok allowed =>
          have husage := readFile_usage hadmit
          rw [hread] at husage
          dsimp only at husage
          have hlow := (admitRead_ok hadmit).1
          obtain ⟨hlength, hsizes, htotal⟩ := @ih usage' (by rw [husage]; exact hlow)
          have hfiles' : usage'.files = usage.files + 1 := by rw [husage, RunUsage.afterRead]
          have hbytes' : usage'.bytes =
              min (usage.bytes + (readBounded allowed call.file.reads).1.length) usizeMax := by
            rw [husage, RunUsage.afterRead, saturatingAdd]
          exact ⟨by omega, hsizes, by omega⟩
      | ok d =>
        obtain ⟨hlow, hfile, hrest, husage⟩ := readFile_ok hread
        obtain ⟨hlength, hsizes, htotal⟩ := @ih usage' (by rw [husage]; exact hlow)
        have hfiles' : usage'.files = usage.files + 1 := by rw [husage, RunUsage.afterRead]
        have hbytes' : usage'.bytes = min (usage.bytes + d.bytes.length) usizeMax := by
          rw [husage, RunUsage.afterRead, saturatingAdd]
        refine ⟨?_, List.forall_mem_cons.2 ⟨hfile, hsizes⟩, ?_⟩
        · rw [List.length_cons]
          omega
        · rw [List.flatMap_cons, List.length_append]
          omega

end ReadTheorems

/-- **Theorem.** In a run the number of successful reads, the size of what each delivers and the total
stay within the limits. A read that is refused before its first byte leaves the usage as it was; any
other counts with the bytes it pulled, also when it fails. -/
theorem read_quotas (display : AbsolutePath → String) (writeRoots : List AbsolutePath)
    (limits : FileLimits) (calls : List ReadCall) :
    let delivered := (readRun display writeRoots limits {} calls).1
    delivered.length ≤ limits.maxFilesPerRun ∧
      (∀ d ∈ delivered, d.bytes.length ≤ limits.maxFileBytes) ∧
      (delivered.flatMap (·.bytes)).length ≤ limits.maxTotalBytesPerRun ∧
      ∀ usage call,
        (∀ msg, admitRead display writeRoots limits usage call = .error msg →
          readFile display writeRoots limits usage call = (.error msg, usage)) ∧
        ∀ allowed, admitRead display writeRoots limits usage call = .ok allowed →
          (readFile display writeRoots limits usage call).2 =
            usage.afterRead (readBounded allowed call.file.reads).1 := by
  intro delivered
  obtain ⟨hlength, hsizes, htotal⟩ := @readRun_le display writeRoots limits {} calls (Nat.zero_le _)
  dsimp only at hlength hsizes htotal
  rw [Nat.zero_add] at hlength
  refine ⟨hlength, hsizes, htotal, fun usage call => ⟨fun msg h => ?_, fun _ => readFile_usage⟩⟩
  rw [readFile, h]

/-- A file of one byte under the root `/w` that cannot be read. -/
def unreadable : ReadCall where
  path := some "/w/a"
  encoding := none
  answers := ⟨fun _ => true, fun _ => .ok [[0x77], [0x61]]⟩
  file := ⟨.ok .regular, .ok (), .ok (.regular, 1), [.error "I/O error"]⟩

/-- A read that fails uses up a file of the quota. -/
theorem failed_read_consumes :
    ¬ ∀ display writeRoots limits usage call msg usage',
      readFile display writeRoots limits usage call = (.error msg, usage') → usage' = usage := by
  intro h
  have hread : ∃ msg, readFile (fun _ => "") [[[0x77]]] .default {} unreadable =
      (.error msg, ⟨1, 0⟩) := ⟨_, rfl⟩
  obtain ⟨msg, hread⟩ := hread
  have husage := h _ _ _ _ _ _ _ hread
  cases husage

end EndaraRelay
