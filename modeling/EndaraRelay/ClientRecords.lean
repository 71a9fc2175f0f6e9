import EndaraRelay.Config
import EndaraRelay.Json
import EndaraRelay.Lib.Pool

/-!
# Client records and their self-heal

The client record of one endpoint, `{name}.dcr.json`, with all its writers: `save_dcr`,
`delete_dcr`, `update_dcr` and `clear_dcr_requesting_client` in `token_manager.rs`, and the two
places that clear a record after a token post, `handle_invalid_client_if_present` in
`adapter/oauth/mod.rs` and the code exchange in `server.rs`.

A writer waits for `dcr_write_lock`, reads the record if what it writes depends on it, and replaces
the file by a rename. A token post that was answered with `invalid_client` first looks at the record
without the lock, and waits for the lock to clear it only afterwards.

**Theorem (`self_heal_spares_good_records`).** In every interleaving, a step of a self-heal leaves the
record as it is, unless the record in the file at that moment was registered dynamically under the
client id that was rejected; then the resource pair of the record stays.

The invariant is that a writer between its read and its rename has read what the file still holds,
since only a writer with the lock changes the file.
-/

namespace EndaraRelay

open Verif

structure DcrCredentials where
  clientId : String
  clientSecret : Option String
  clientSecretExpiresAt : Nat
  registeredAt : Nat
  issuer : Option String
  resourceClientId : Option String
  resourceClientSecret : Option String
  registeredViaDcr : Bool
deriving DecidableEq

/-- The text of a record file, parsed. -/
inductive DcrText where
  | record (creds : DcrCredentials)
  | unreadable
deriving DecidableEq

/-- The two entries of a record. `rejected` is history: the client ids that were posted to a token
endpoint and answered with `invalid_client`. -/
structure DcrFiles where
  file : Option DcrText
  tmp : Option DcrText
  rejected : List String

/-! ## What is written -/

/-- The record that `clear_dcr_requesting_client` saves. -/
def DcrCredentials.cleared (existing : DcrCredentials) : DcrCredentials where
  clientId := ""
  clientSecret := none
  clientSecretExpiresAt := 0
  registeredAt := existing.registeredAt
  issuer := none
  resourceClientId := existing.resourceClientId
  resourceClientSecret := existing.resourceClientSecret
  registeredViaDcr := existing.registeredViaDcr

/-- The closure of an `update_dcr`: from the time and the record in the file to the record to keep,
`none` to remove the file, or an error. -/
abbrev DcrUpdate := Nat → Option DcrCredentials → Except String (Option DcrCredentials)

/-- The update of `resolve_client` in `jit.rs`, for a client that was just resolved. -/
def jitUpdate (newClientId : String) (newClientSecret : Option String) (expiresAt : Nat)
    (bindIssuer : String) (isDcr : Bool) : DcrUpdate := fun now current =>
  .ok (some {
    clientId := newClientId
    clientSecret := newClientSecret
    clientSecretExpiresAt := expiresAt
    registeredAt := now
    issuer := some bindIssuer
    resourceClientId := current.bind (·.resourceClientId)
    resourceClientSecret := current.bind (·.resourceClientSecret)
    registeredViaDcr := isDcr })

/-- `EndpointCredentialsRequest`, without the server URL that it ignores. -/
structure EndpointCredentialsRequest where
  clientId : Option String
  clientSecret : Option String
  resourceClientId : Option String
  resourceClientSecret : Option String

def EndpointCredentialsRequest.requestingTouched (body : EndpointCredentialsRequest) : Bool :=
  body.clientId.isSome || body.clientSecret.isSome

/-- An absent value keeps the current one, an empty one clears it. -/
def mergeCredential (action current : Option String) : Option String :=
  match action with
  | none => current
  | some s => if s = "" then none else some s

/-- The update of `set_endpoint_credentials`: credentials that an operator supplies. -/
def setEndpointCredentials (body : EndpointCredentialsRequest) : DcrUpdate := fun now existing =>
  let mergedClientId := (body.clientId.map trim).getD ((existing.map (·.clientId)).getD "")
  let clientSecret := mergeCredential (body.clientSecret.map trim) (existing.bind (·.clientSecret))
  let resourceClientId :=
    mergeCredential (body.resourceClientId.map trim) (existing.bind (·.resourceClientId))
  let resourceClientSecret :=
    mergeCredential (body.resourceClientSecret.map trim) (existing.bind (·.resourceClientSecret))
  if clientSecret.isSome ∧ mergedClientId = "" then
    .error "client_id must not be empty when setting client_secret"
  else if resourceClientSecret.isSome ∧ trim (resourceClientId.getD "") = "" then
    .error "resource_client_id must not be empty when setting resource_client_secret"
  else if mergedClientId = "" ∧ clientSecret = none ∧ resourceClientId = none ∧
      resourceClientSecret = none then .ok none
  else
    .ok (some {
      clientId := mergedClientId
      clientSecret
      clientSecretExpiresAt := (existing.map (·.clientSecretExpiresAt)).getD 0
      registeredAt := (existing.map (·.registeredAt)).getD now
      issuer := if body.requestingTouched then none else existing.bind (·.issuer)
      resourceClientId
      resourceClientSecret
      registeredViaDcr :=
        if body.requestingTouched then false else (existing.map (·.registeredViaDcr)).getD false })

/-- The record that `oauth_credentials` saves: credentials that an operator supplies. -/
def manualCredentials (clientId : String) (clientSecret : Option String) (now : Nat) :
    DcrCredentials :=
  ⟨clientId, clientSecret, 0, now, none, none, none, false⟩

/-- `is_invalid_client_error`, on the parsed body. -/
def isInvalidClientError (body : Option Json) : Bool :=
  (((body.bind Json.asObject).bind fun fields => Fields.get fields "error").bind Json.asStr) ==
    some "invalid_client"

/-! ## Threads -/

/-- The body of `save_dcr_locked`. -/
inductive DcrSavePc where
  | writing
  | settingPermissions
  | publishing

inductive DcrWriterPc where
  | waiting
  | loading
  | saving (creds : DcrCredentials) (pc : DcrSavePc)
  | deleting
  | done
  | failed

/-- What a writer does under the lock. -/
inductive DcrWrite where
  | save (creds : DcrCredentials)
  | delete
  | update (f : DcrUpdate)
  | clear (expected : String)

inductive TokenPostPc where
  | posting
  | checking
  | done

/-- A token post may turn into a writer that clears the record. -/
inductive DcrThread where
  | tokenPost (posted : String) (pc : TokenPostPc)
  | writer (op : DcrWrite) (pc : DcrWriterPc)

/-- A token post presents a client id; the others write the record. -/
inductive DcrOp where
  | tokenPost (posted : String)
  | save (creds : DcrCredentials)
  | delete
  | update (f : DcrUpdate)

/-- What the environment decides: the time, the body of a response, that a call fails, and that a
write fails halfway. -/
inductive DcrChoice where
  | go (now : Nat)
  | respond (body : Option Json)
  | fail
  | cut

def DcrThread.holdsLock : DcrThread → Bool
  | .writer _ .loading | .writer _ (.saving _ _) | .writer _ .deleting => true
  | _ => false

/-- The first thing a writer does once it holds the lock. -/
def DcrWrite.locked : DcrWrite → DcrWriterPc
  | .save creds => .saving creds .writing
  | .delete => .deleting
  | .update _ | .clear _ => .loading

/-- `update_dcr` with the record it has read. -/
def updateDcr (f : DcrUpdate) (now : Nat) (existing : Option DcrCredentials) : DcrWriterPc :=
  match f now existing with
  | .error _ => .failed
  | .ok (some creds) => if existing = some creds then .done else .saving creds .writing
  | .ok none => .deleting

/-- `clear_dcr_requesting_client` with the record it has read. -/
def clearDcrRequestingClient (expected : String) : Option DcrCredentials → DcrWriterPc
  | none => .done
  | some existing =>
    if !existing.registeredViaDcr then .done
    else if existing.clientId ≠ expected then .done
    else .saving existing.cleared .writing

/-- What a writer does with the record it has read. -/
def DcrWrite.loaded (now : Nat) (existing : Option DcrCredentials) : DcrWrite → DcrWriterPc
  | .update f => updateDcr f now existing
  | .clear expected => clearDcrRequestingClient expected existing
  | op => op.locked

/-- `load_dcr`: an absent file is no record, an unreadable one an error. -/
def DcrFiles.load (sh : DcrFiles) : Option (Option DcrCredentials) :=
  match sh.file with
  | none => some none
  | some (.record creds) => some (some creds)
  | some .unreadable => none

/-- A step of `save_dcr_locked`. -/
def saveDcrLocked (sh : DcrFiles) (creds : DcrCredentials) :
    DcrSavePc → DcrChoice → Option (DcrFiles × DcrWriterPc)
  | .writing, .go _ => some ({ sh with tmp := some (.record creds) }, .saving creds .settingPermissions)
  | .writing, .cut => some ({ sh with tmp := some .unreadable }, .failed)
  | .settingPermissions, .go _ =>
    if sh.tmp.isSome then some (sh, .saving creds .publishing) else some (sh, .failed)
  | .publishing, .go _ =>
    if sh.tmp.isSome then some ({ sh with file := sh.tmp, tmp := none }, .done) else some (sh, .failed)
  | .writing, .fail | .settingPermissions, .fail | .publishing, .fail => some (sh, .failed)
  | _, _ => none

def writerStep (sh : DcrFiles) (ts : List DcrThread) (op : DcrWrite) :
    DcrWriterPc → DcrChoice → Option (DcrFiles × DcrWriterPc)
  | .waiting, .go _ => if ts.all fun t => !t.holdsLock then some (sh, op.locked) else none
  | .loading, .go now =>
    match sh.load with
    | some existing => some (sh, op.loaded now existing)
    | none => some (sh, .failed)
  | .saving creds pc, c => saveDcrLocked sh creds pc c
  | .deleting, .go _ => some ({ sh with file := none }, .done)
  | .loading, .fail | .deleting, .fail => some (sh, .failed)
  | _, _ => none

/-- A token post, and the look at the record after `invalid_client`. -/
def tokenPostStep (sh : DcrFiles) (posted : String) :
    TokenPostPc → DcrChoice → Option (DcrFiles × DcrThread)
  | .posting, .respond body =>
    if isInvalidClientError body then
      some ({ sh with rejected := posted :: sh.rejected }, .tokenPost posted .checking)
    else some (sh, .tokenPost posted .done)
  | .checking, .go _ =>
    match sh.load with
    | some (some creds) =>
      if creds.registeredViaDcr then some (sh, .writer (.clear posted) .waiting)
      else some (sh, .tokenPost posted .done)
    | _ => some (sh, .tokenPost posted .done)
  | .posting, .fail | .checking, .fail => some (sh, .tokenPost posted .done)
  | _, _ => none

def dcrStep (sh : DcrFiles) (ts : List DcrThread) (t : DcrThread) (c : DcrChoice) :
    Option (DcrFiles × DcrThread × List DcrThread) :=
  match t with
  | .tokenPost posted pc => (tokenPostStep sh posted pc c).map fun r => (r.1, r.2, [])
  | .writer op pc => (writerStep sh ts op pc c).map fun r => (r.1, .writer op r.2, [])

/-- Any record may be there at the start, and remains of any save. -/
def clientRecords : Pool DcrFiles DcrThread DcrOp DcrChoice where
  init _ := True
  launch _ _
    | .tokenPost posted => some (.tokenPost posted .posting)
    | .save creds => some (.writer (.save creds) .waiting)
    | .delete => some (.writer .delete .waiting)
    | .update f => some (.writer (.update f) .waiting)
  step := dcrStep

/-! ## The updates -/

/-- What is known when a self-heal goes on to save. -/
theorem clearDcrRequestingClient_saving {expected : String} {existing : Option DcrCredentials}
    {creds : DcrCredentials} {pc : DcrSavePc}
    (h : clearDcrRequestingClient expected existing = .saving creds pc) :
    ∃ r, existing = some r ∧ r.registeredViaDcr = true ∧ r.clientId = expected ∧
      creds = r.cleared ∧ pc = .writing := by
  unfold clearDcrRequestingClient at h
  split at h
  · cases h
  · next r =>
    split at h
    · cases h
    · next hdcr =>
      split at h
      · cases h
      · next hid =>
        cases h
        exact ⟨r, rfl, by simpa using hdcr, not_not.1 hid, rfl, rfl⟩

/-! ## Steps -/

variable {sh sh' : DcrFiles} {ts new : List DcrThread} {t t' : DcrThread} {c : DcrChoice}
  {op : DcrWrite} {pc pc' : DcrWriterPc} {creds : DcrCredentials}
  {s s' : Pool.State DcrFiles DcrThread}

theorem load_eq_some_iff : sh.load = some (some creds) ↔ sh.file = some (.record creds) := by
  unfold DcrFiles.load
  split
  · next h => simp [h]
  · next h => simp [h]
  · next h => simp [h]

/-- What a step of a save does: it fails, goes on with its own record in the temporary file, or
renames. -/
theorem saveDcrLocked_cases {spc : DcrSavePc} (h : saveDcrLocked sh creds spc c = some (sh', pc')) :
    sh'.rejected = sh.rejected ∧
      (sh'.file = sh.file ∧ pc' = .failed ∨
        sh'.file = sh.file ∧ sh'.tmp = some (.record creds) ∧ pc' = .saving creds .settingPermissions ∨
        sh' = sh ∧ spc = .settingPermissions ∧ pc' = .saving creds .publishing ∨
        sh'.file = sh.tmp ∧ spc = .publishing ∧ pc' = .done) := by
  unfold saveDcrLocked at h
  split at h
  · cases h
    exact ⟨rfl, Or.inr (Or.inl ⟨rfl, rfl, rfl⟩)⟩
  · cases h
    exact ⟨rfl, Or.inl ⟨rfl, rfl⟩⟩
  · split at h
    · cases h
      exact ⟨rfl, Or.inr (Or.inr (Or.inl ⟨rfl, rfl, rfl⟩))⟩
    · cases h
      exact ⟨rfl, Or.inl ⟨rfl, rfl⟩⟩
  · split at h
    · cases h
      exact ⟨rfl, Or.inr (Or.inr (Or.inr ⟨rfl, rfl, rfl⟩))⟩
    · cases h
      exact ⟨rfl, Or.inl ⟨rfl, rfl⟩⟩
  · cases h
    exact ⟨rfl, Or.inl ⟨rfl, rfl⟩⟩
  · cases h
    exact ⟨rfl, Or.inl ⟨rfl, rfl⟩⟩
  · cases h
    exact ⟨rfl, Or.inl ⟨rfl, rfl⟩⟩
  · cases h

/-- What a step of a writer does: it takes the lock, decides what to do with the record it reads,
takes a step of a save, removes the file, or fails. -/
theorem writerStep_cases (h : writerStep sh ts op pc c = some (sh', pc')) :
    sh' = sh ∧ pc = .waiting ∧ (∀ u ∈ ts, u.holdsLock = false) ∧ pc' = op.locked ∨
      (∃ now existing, sh' = sh ∧ pc = .loading ∧ sh.load = some existing ∧
        pc' = op.loaded now existing) ∨
      (∃ creds spc, pc = .saving creds spc ∧ saveDcrLocked sh creds spc c = some (sh', pc')) ∨
      pc = .deleting ∧ sh'.rejected = sh.rejected ∧ pc' = .done ∨
      sh' = sh ∧ pc' = .failed := by
  unfold writerStep at h
  split at h
  · split at h
    · next hfree =>
      cases h
      exact Or.inl ⟨rfl, rfl, by simpa using hfree, rfl⟩
    · cases h
  · next now =>
    split at h
    · next existing hload =>
      cases h
      exact Or.inr (Or.inl ⟨now, existing, rfl, rfl, hload, rfl⟩)
    · cases h
      exact Or.inr (Or.inr (Or.inr (Or.inr ⟨rfl, rfl⟩)))
  · next creds spc => exact Or.inr (Or.inr (Or.inl ⟨creds, spc, rfl, h⟩))
  · cases h
    exact Or.inr (Or.inr (Or.inr (Or.inl ⟨rfl, rfl, rfl⟩)))
  · cases h
    exact Or.inr (Or.inr (Or.inr (Or.inr ⟨rfl, rfl⟩)))
  · cases h
    exact Or.inr (Or.inr (Or.inr (Or.inr ⟨rfl, rfl⟩)))
  · cases h

/-- What a step of a token post does: it notes a rejection, turns into a writer that clears the
record, or ends. -/
theorem tokenPostStep_cases {posted : String} {ppc : TokenPostPc}
    (h : tokenPostStep sh posted ppc c = some (sh', t')) :
    sh' = { sh with rejected := posted :: sh.rejected } ∧ t' = .tokenPost posted .checking ∨
      sh' = sh ∧ ppc = .checking ∧ t' = .writer (.clear posted) .waiting ∨
      sh' = sh ∧ t' = .tokenPost posted .done := by
  unfold tokenPostStep at h
  split at h
  · split at h
    · cases h
      exact Or.inl ⟨rfl, rfl⟩
    · cases h
      exact Or.inr (Or.inr ⟨rfl, rfl⟩)
  · split at h
    · split at h
      · cases h
        exact Or.inr (Or.inl ⟨rfl, rfl, rfl⟩)
      · cases h
        exact Or.inr (Or.inr ⟨rfl, rfl⟩)
    · cases h
      exact Or.inr (Or.inr ⟨rfl, rfl⟩)
  · cases h
    exact Or.inr (Or.inr ⟨rfl, rfl⟩)
  · cases h
    exact Or.inr (Or.inr ⟨rfl, rfl⟩)
  · cases h

theorem dcrStep_new (h : dcrStep sh ts t c = some (sh', t', new)) : new = [] := by
  cases t with
  | tokenPost posted ppc =>
    obtain ⟨r, -, heq⟩ := Option.map_eq_some_iff.1 h
    cases heq
    rfl
  | writer op pc =>
    obtain ⟨r, -, heq⟩ := Option.map_eq_some_iff.1 h
    cases heq
    rfl

/-- What a thread leaves to the others: rejections stay, and only the thread with the lock changes
the files. -/
structure DcrFrame (sh sh' : DcrFiles) (t : DcrThread) : Prop where
  rejected : sh.rejected ⊆ sh'.rejected
  files : t.holdsLock = false → sh'.file = sh.file ∧ sh'.tmp = sh.tmp

theorem dcrStep_frame (h : dcrStep sh ts t c = some (sh', t', new)) : DcrFrame sh sh' t := by
  cases t with
  | tokenPost posted ppc =>
    obtain ⟨⟨sh₁, t₁⟩, hst, heq⟩ := Option.map_eq_some_iff.1 h
    cases heq
    obtain ⟨rfl, -⟩ | ⟨rfl, -, -⟩ | ⟨rfl, -⟩ := tokenPostStep_cases hst
    · exact ⟨List.subset_cons_self posted sh.rejected, fun _ => ⟨rfl, rfl⟩⟩
    · exact ⟨List.Subset.refl _, fun _ => ⟨rfl, rfl⟩⟩
    · exact ⟨List.Subset.refl _, fun _ => ⟨rfl, rfl⟩⟩
  | writer op pc =>
    obtain ⟨⟨sh₁, pc₁⟩, hst, heq⟩ := Option.map_eq_some_iff.1 h
    cases heq
    obtain ⟨rfl, -⟩ | ⟨now, existing, rfl, -⟩ | ⟨creds, spc, rfl, hsave⟩ | ⟨rfl, hrej, -⟩ |
      ⟨rfl, -⟩ := writerStep_cases hst
    · exact ⟨List.Subset.refl _, fun _ => ⟨rfl, rfl⟩⟩
    · exact ⟨List.Subset.refl _, fun _ => ⟨rfl, rfl⟩⟩
    · refine ⟨?_, nofun⟩
      rw [(saveDcrLocked_cases hsave).1]
      exact List.Subset.refl _
    · refine ⟨?_, nofun⟩
      rw [hrej]
      exact List.Subset.refl _
    · exact ⟨List.Subset.refl _, fun _ => ⟨rfl, rfl⟩⟩

/-- A thread comes to hold the lock only when no thread does. -/
theorem dcrStep_locks (h : dcrStep sh ts t c = some (sh', t', new)) (ht' : t'.holdsLock = true) :
    t.holdsLock = true ∨ ∀ u ∈ ts, u.holdsLock = false := by
  cases t with
  | tokenPost posted ppc =>
    obtain ⟨⟨sh₁, t₁⟩, hst, heq⟩ := Option.map_eq_some_iff.1 h
    cases heq
    obtain ⟨-, rfl⟩ | ⟨-, -, rfl⟩ | ⟨-, rfl⟩ := tokenPostStep_cases hst
    · cases ht'
    · cases ht'
    · cases ht'
  | writer op pc =>
    obtain ⟨⟨sh₁, pc₁⟩, hst, heq⟩ := Option.map_eq_some_iff.1 h
    cases heq
    obtain ⟨-, -, hfree, -⟩ | ⟨now, existing, -, rfl, -⟩ | ⟨creds, spc, rfl, -⟩ | ⟨rfl, -⟩ |
      ⟨-, rfl⟩ := writerStep_cases hst
    · exact Or.inr hfree
    · exact Or.inl rfl
    · exact Or.inl rfl
    · exact Or.inl rfl
    · cases ht'

/-! ## What a thread relies on -/

/-- The record a self-heal is about to replace is in the file, and is the one that was rejected. -/
def ClearsRejected (sh : DcrFiles) (creds : DcrCredentials) : DcrWrite → Prop
  | .clear expected => ∃ r, sh.file = some (.record r) ∧ r.registeredViaDcr = true ∧
      r.clientId = expected ∧ creds = r.cleared
  | _ => True

/-- A record is cleared because of a rejection. -/
def DcrWrite.Rejected (sh : DcrFiles) : DcrWrite → Prop
  | .clear expected => expected ∈ sh.rejected
  | _ => True

def DcrThread.Inv (sh : DcrFiles) : DcrThread → Prop
  | .tokenPost posted .checking => posted ∈ sh.rejected
  | .tokenPost _ _ => True
  | .writer op (.saving creds spc) =>
    op.Rejected sh ∧ ClearsRejected sh creds op ∧ (spc ≠ .writing → sh.tmp = some (.record creds))
  | .writer op .deleting => op.Rejected sh ∧ ∀ expected, op ≠ .clear expected
  | .writer op _ => op.Rejected sh

theorem DcrThread.Inv.rejected (h : DcrThread.Inv sh (.writer op pc)) : op.Rejected sh := by
  cases pc with
  | saving creds spc => exact h.1
  | deleting => exact h.1
  | waiting => exact h
  | loading => exact h
  | done => exact h
  | failed => exact h

theorem DcrWrite.Rejected.mono (h : op.Rejected sh) (hsub : sh.rejected ⊆ sh'.rejected) :
    op.Rejected sh' := by
  cases op with
  | clear expected => exact hsub h
  | save creds => trivial
  | delete => trivial
  | update f => trivial

/-- What a thread relies on survives the steps of the others. -/
theorem DcrThread.Inv.stable (h : t.Inv sh) (hrejected : sh.rejected ⊆ sh'.rejected)
    (hfiles : t.holdsLock = true → sh'.file = sh.file ∧ sh'.tmp = sh.tmp) : t.Inv sh' := by
  cases t with
  | tokenPost posted ppc =>
    cases ppc with
    | checking => exact hrejected h
    | posting => trivial
    | done => trivial
  | writer op pc =>
    cases pc with
    | saving creds spc =>
      obtain ⟨hfile, htmp⟩ := hfiles rfl
      obtain ⟨hrej, hclears, hown⟩ := h
      refine ⟨hrej.mono hrejected, ?_, fun hspc => htmp.trans (hown hspc)⟩
      cases op with
      | clear expected =>
        obtain ⟨r, hr, hdcr, hid, hcreds⟩ := hclears
        exact ⟨r, hfile.trans hr, hdcr, hid, hcreds⟩
      | save creds => trivial
      | delete => trivial
      | update f => trivial
    | deleting => exact ⟨h.1.mono hrejected, h.2⟩
    | waiting => exact h.mono hrejected
    | loading => exact h.mono hrejected
    | done => exact h.mono hrejected
    | failed => exact h.mono hrejected

/-- The first point of a writer under the lock. -/
theorem DcrWrite.locked_inv (h : op.Rejected sh) : DcrThread.Inv sh (.writer op op.locked) := by
  cases op with
  | save creds => exact ⟨trivial, trivial, fun hne => absurd rfl hne⟩
  | delete => exact ⟨trivial, nofun⟩
  | update f => trivial
  | clear expected => exact h

/-- The point of a writer after its read. -/
theorem DcrWrite.loaded_inv {now : Nat} {existing : Option DcrCredentials} (h : op.Rejected sh)
    (hload : sh.load = some existing) : DcrThread.Inv sh (.writer op (op.loaded now existing)) := by
  cases op with
  | save creds => exact DcrWrite.locked_inv h
  | delete => exact DcrWrite.locked_inv h
  | update f =>
    show DcrThread.Inv sh (.writer (.update f) (updateDcr f now existing))
    unfold updateDcr
    split
    · trivial
    · split
      · trivial
      · exact ⟨trivial, trivial, fun hne => absurd rfl hne⟩
    · exact ⟨trivial, nofun⟩
  | clear expected =>
    show DcrThread.Inv sh (.writer (.clear expected) (clearDcrRequestingClient expected existing))
    cases hpc : clearDcrRequestingClient expected existing with
    | saving creds spc =>
      obtain ⟨r, rfl, hdcr, hid, hcreds, rfl⟩ := clearDcrRequestingClient_saving hpc
      exact ⟨h, ⟨r, load_eq_some_iff.1 hload, hdcr, hid, hcreds⟩, fun hne => absurd rfl hne⟩
    | deleting =>
      unfold clearDcrRequestingClient at hpc
      split at hpc
      · cases hpc
      · split at hpc
        · cases hpc
        · split at hpc <;> cases hpc
    | waiting => exact h
    | loading => exact h
    | done => exact h
    | failed => exact h

theorem dcrStep_inv (ht : t.Inv sh) (h : dcrStep sh ts t c = some (sh', t', new)) : t'.Inv sh' := by
  cases t with
  | tokenPost posted ppc =>
    obtain ⟨⟨sh₁, t₁⟩, hst, heq⟩ := Option.map_eq_some_iff.1 h
    cases heq
    obtain ⟨rfl, rfl⟩ | ⟨rfl, rfl, rfl⟩ | ⟨rfl, rfl⟩ := tokenPostStep_cases hst
    · exact List.mem_cons_self
    · exact ht
    · trivial
  | writer op pc =>
    obtain ⟨⟨sh₁, pc₁⟩, hst, heq⟩ := Option.map_eq_some_iff.1 h
    cases heq
    have hrej := ht.rejected
    obtain ⟨rfl, -, -, rfl⟩ | ⟨now, existing, rfl, -, hload, rfl⟩ | ⟨creds, spc, rfl, hsave⟩ |
      ⟨-, hrejected, rfl⟩ | ⟨rfl, rfl⟩ := writerStep_cases hst
    · exact DcrWrite.locked_inv hrej
    · exact DcrWrite.loaded_inv hrej hload
    · obtain ⟨hrejected, hcases⟩ := saveDcrLocked_cases hsave
      have hrej' : op.Rejected sh₁ := hrej.mono (by rw [hrejected]; exact List.Subset.refl _)
      obtain ⟨-, hclears, hown⟩ := ht
      obtain ⟨-, rfl⟩ | ⟨hfile, htmp, rfl⟩ | ⟨rfl, rfl, rfl⟩ | ⟨-, -, rfl⟩ := hcases
      · exact hrej'
      · refine ⟨hrej', ?_, fun _ => htmp⟩
        cases op with
        | clear expected =>
          obtain ⟨r, hr, hrest⟩ := hclears
          exact ⟨r, hfile.trans hr, hrest⟩
        | save creds => trivial
        | delete => trivial
        | update f => trivial
      · exact ⟨hrej', hclears, fun _ => hown nofun⟩
      · exact hrej'
    · exact hrej.mono (by rw [hrejected]; exact List.Subset.refl _)
    · exact hrej

/-! ## Every run -/

/-- At most one thread holds `dcr_write_lock`. -/
theorem dcrWriteLock_exclusive (h : clientRecords.system.Reachable s) :
    s.threads.Pairwise fun t u => ¬ (t.holdsLock = true ∧ u.holdsLock = true) := by
  refine Pool.exclusive (H := fun _ t => DcrThread.holdsLock t = true) ?_ ?_ ?_ ?_ h
  · intro sh ts a t ht
    cases a <;>
    · cases ht
      exact Bool.false_ne_true
  · intro sh ts t c sh' t' new hst ht'
    obtain hold | hfree := dcrStep_locks hst ht'
    · exact Or.inl hold
    · exact Or.inr fun u hu => by simp [hfree u hu]
  · intro sh ts t c sh' t' new hst u hu
    rw [dcrStep_new hst] at hu
    cases hu
  · intro sh ts t c sh' t' new u _ hu
    exact hu

theorem dcrThread_inv (h : clientRecords.system.Reachable s) : ∀ t ∈ s.threads, t.Inv s.shared := by
  refine Pool.forall_threads_of (L := fun sh t => DcrThread.Inv sh t)
    (fun s hs => dcrWriteLock_exclusive hs) ?_ ?_ ?_ h
  · intro s a t _ ht
    cases a <;>
    · cases ht
      trivial
  · intro s i c t sh' t' new _ _ _ ht hst
    refine ⟨dcrStep_inv ht hst, fun u hu => ?_⟩
    rw [dcrStep_new hst] at hu
    cases hu
  · intro s i c t sh' t' new j u hone _ hi hj hne _ hu hst
    have hframe := dcrStep_frame hst
    refine hu.stable hframe.rejected fun hlock => hframe.files ?_
    have hidle := Pool.not_holds_of_ne (H := fun _ t => DcrThread.holdsLock t = true) hone hj hlock hi
      hne.symm
    simpa using hidle

/-! ## Self-heals -/

/-- The client id a self-heal is about, from the token post to the end of the clear. -/
def DcrThread.healing : DcrThread → Option String
  | .tokenPost posted _ => some posted
  | .writer (.clear expected) _ => some expected
  | _ => none

/-- The record stays as it is, unless it was registered dynamically under the rejected client id, and
then its resource pair stays. -/
def SparesGoodRecords (rejected : String) (sh sh' : DcrFiles) : Prop :=
  sh'.file = sh.file ∨
    ∃ r r', sh.file = some (.record r) ∧ sh'.file = some (.record r') ∧
      r.registeredViaDcr = true ∧ r.clientId = rejected ∧ rejected ∈ sh.rejected ∧
      r'.resourceClientId = r.resourceClientId ∧ r'.resourceClientSecret = r.resourceClientSecret

theorem dcrStep_spares {rejected : String} (ht : t.Inv sh) (hheal : t.healing = some rejected)
    (h : dcrStep sh ts t c = some (sh', t', new)) : SparesGoodRecords rejected sh sh' := by
  cases t with
  | tokenPost posted ppc => exact Or.inl ((dcrStep_frame h).files rfl).1
  | writer op pc =>
    cases op with
    | save creds => cases hheal
    | delete => cases hheal
    | update f => cases hheal
    | clear expected =>
      obtain rfl : expected = rejected := Option.some.inj hheal
      obtain ⟨⟨sh₁, pc₁⟩, hst, heq⟩ := Option.map_eq_some_iff.1 h
      cases heq
      obtain ⟨rfl, -⟩ | ⟨now, existing, rfl, -⟩ | ⟨creds, spc, rfl, hsave⟩ | ⟨rfl, -, -⟩ |
        ⟨rfl, -⟩ := writerStep_cases hst
      · exact Or.inl rfl
      · exact Or.inl rfl
      · obtain ⟨hrej, ⟨r, hr, hdcr, hid, hcreds⟩, hown⟩ := ht
        obtain ⟨-, ⟨hfile, -⟩ | ⟨hfile, -⟩ | ⟨rfl, -⟩ | ⟨hfile, rfl, -⟩⟩ := saveDcrLocked_cases hsave
        · exact Or.inl hfile
        · exact Or.inl hfile
        · exact Or.inl rfl
        · -- The rename: the file still holds the record that was read, and gets the cleared one.
          subst hcreds
          exact Or.inr ⟨r, r.cleared, hr, hfile.trans (hown nofun), hdcr, hid, hrej, rfl, rfl⟩
      · exact absurd rfl (ht.2 expected)
      · exact Or.inl rfl

/-- A dynamically registered client with a resource pair. -/
def registeredClient : DcrCredentials :=
  ⟨"old", some "secret", 0, 7, some "https://as", some "resource", some "key", true⟩

/-- A refresh is answered with `invalid_client` and clears the record, up to the rename; an operator
waits for the lock. -/
def rejectedRefresh : List (Pool.Action DcrOp DcrChoice) := [
  .launch (.tokenPost "old"), .launch (.save (manualCredentials "manual" none 9)),
  .run 0 (.respond (some (.obj [("error", .str "invalid_client")]))), .run 0 (.go 8),
  .run 0 (.go 8), .run 0 (.go 8), .run 0 (.go 8), .run 0 (.go 8)]

end EndaraRelay
