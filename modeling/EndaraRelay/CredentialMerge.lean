import EndaraRelay.ClientRecords

/-!
# Merging the credentials of an operator

`set_endpoint_credentials` with no other writer: the record that was stored, the request, and the record that
is stored afterwards. Four fields are kept, cleared or set, each by its own part of the request.

**What is asked (`Merges`).** A request that would leave a secret without its client id is rejected and changes
nothing. Any other one merges the fields one by one and removes a record that is left empty. What is
recorded about the secret follows the secret: a touched client is the operator's, bound to no issuer, and an
expiry belongs to the secret it came with.

**Theorem (`merges_iff`).** This holds except in two cases. A new or cleared secret gets the expiry of the one
that it replaces, when that one had any. And a client id of white space, which the check of the resource pair
would not take for one, is taken for one when it is stored already.
-/

namespace EndaraRelay

open Verif

/-! ## A run alone -/

/-- The steps of a writer that no other thread and no failure interrupts. -/
def writeAlone (op : DcrWrite) (now : Nat) : Nat → DcrFiles × DcrWriterPc → DcrFiles × DcrWriterPc
  | 0, s => s
  | n + 1, s =>
    match writerStep s.1 [] op s.2 (.go now) with
    | some s' => writeAlone op now n s'
    | none => s

/-- The handler, from `update_dcr` on; a writer takes five steps at most. -/
def setCredentialsAlone (body : EndpointCredentialsRequest) (now : Nat) (sh : DcrFiles) :
    DcrFiles × DcrWriterPc :=
  writeAlone (.update (setEndpointCredentials body)) now 5 (sh, .waiting)

variable {sh : DcrFiles} {stored : Option DcrCredentials} {body : EndpointCredentialsRequest} {now : Nat}

theorem load_of_file (h : sh.file = stored.map .record) : sh.load = some stored := by
  unfold DcrFiles.load
  rw [h]
  cases stored <;> rfl

/-- What a run alone leaves: it is what the update says. -/
theorem setCredentialsAlone_eq (h : sh.file = stored.map .record) :
    setCredentialsAlone body now sh =
      match setEndpointCredentials body now stored with
      | .error _ => (sh, .failed)
      | .ok none => ({ sh with file := none }, .done)
      | .ok (some creds) =>
        if stored = some creds then (sh, .done)
        else ({ sh with file := some (.record creds), tmp := none }, .done) := by
  have hload := load_of_file h
  simp only [setCredentialsAlone, writeAlone, writerStep, List.all_nil, if_true, DcrWrite.locked, hload,
    DcrWrite.loaded, updateDcr]
  cases setEndpointCredentials body now stored with
  | error e => rfl
  | ok next =>
    cases next with
    | none => rfl
    | some creds =>
      by_cases hsame : stored = some creds
      · simp only [if_pos hsame]
      · simp only [if_neg hsame]
        rfl

/-! ## What is asked -/

/-- What a field ends as: what was stored when the request has nothing for it, nothing when it has white
space, and what it has otherwise. -/
def endsAs (action stored : Option String) : Option String :=
  match action with
  | none => stored
  | some s => if trim s = "" then none else some (trim s)

/-- The client id of a record, which holds none as an empty text. -/
def clientIdOf (stored : Option DcrCredentials) : Option String :=
  (stored.map (·.clientId)).filter (· ≠ "")

namespace EndpointCredentialsRequest

variable (body : EndpointCredentialsRequest) (stored : Option DcrCredentials)

def idEnds : Option String := endsAs body.clientId (clientIdOf stored)

def secretEnds : Option String := endsAs body.clientSecret (stored.bind (·.clientSecret))

def resourceIdEnds : Option String := endsAs body.resourceClientId (stored.bind (·.resourceClientId))

def resourceSecretEnds : Option String :=
  endsAs body.resourceClientSecret (stored.bind (·.resourceClientSecret))

/-- A resource secret without its id; an id of white space is none. -/
def ResourceSecretAlone : Prop :=
  body.resourceSecretEnds stored ≠ none ∧ trim ((body.resourceIdEnds stored).getD "") = ""

/-- The request would leave a secret without its client id. -/
def LeavesSecretAlone : Prop :=
  body.secretEnds stored ≠ none ∧ trim ((body.idEnds stored).getD "") = "" ∨
    body.ResourceSecretAlone stored

/-- The request would leave an empty record. -/
def LeavesNothing : Prop :=
  body.idEnds stored = none ∧ body.secretEnds stored = none ∧ body.resourceIdEnds stored = none ∧
    body.resourceSecretEnds stored = none

instance : Decidable (body.ResourceSecretAlone stored) := inferInstanceAs (Decidable (_ ∧ _))

instance : Decidable (body.LeavesSecretAlone stored) := inferInstanceAs (Decidable (_ ∨ _))

instance : Decidable (body.LeavesNothing stored) := inferInstanceAs (Decidable (_ ∧ _))

/-- What is recorded about the requesting client: one that an operator touched is theirs. An expiry stays
only with the secret that it came with. -/
def ProvenanceFollows (creds : DcrCredentials) : Prop :=
  creds.registeredViaDcr = (!body.requestingTouched && (stored.map (·.registeredViaDcr)).getD false) ∧
    creds.issuer = (if body.requestingTouched then none else stored.bind (·.issuer)) ∧
    creds.clientSecretExpiresAt =
      (if creds.clientSecret = stored.bind (·.clientSecret) then
        (stored.map (·.clientSecretExpiresAt)).getD 0 else 0)

/-- **The merge of a request into a record.** -/
structure Merges (before : DcrFiles) (after : DcrFiles × DcrWriterPc) : Prop where
  rejected : body.LeavesSecretAlone stored → after = (before, .failed)
  deleted : ¬ body.LeavesSecretAlone stored → body.LeavesNothing stored →
    after.2 = .done ∧ after.1.file = none
  saved : ¬ body.LeavesSecretAlone stored → ¬ body.LeavesNothing stored →
    after.2 = .done ∧ ∃ creds, after.1.file = some (.record creds) ∧
      clientIdOf (some creds) = body.idEnds stored ∧
      creds.clientSecret = body.secretEnds stored ∧
      creds.resourceClientId = body.resourceIdEnds stored ∧
      creds.resourceClientSecret = body.resourceSecretEnds stored ∧
      body.ProvenanceFollows stored creds

/-! ## Where it fails -/

/-- A stored client id of white space stays, with a secret. -/
def KeepsBlankId : Prop :=
  body.clientId = none ∧ (∃ r, stored = some r ∧ r.clientId ≠ "" ∧ trim r.clientId = "") ∧
    body.secretEnds stored ≠ none ∧ ¬ body.ResourceSecretAlone stored

/-- The secret changes in a record that has an expiry. -/
def KeepsExpiry : Prop :=
  ¬ body.LeavesSecretAlone stored ∧ ¬ body.LeavesNothing stored ∧
    ∃ r, stored = some r ∧ r.clientSecretExpiresAt ≠ 0 ∧ body.secretEnds stored ≠ r.clientSecret

/-! ## The update, field by field -/

theorem mergeCredential_trim (action current : Option String) :
    mergeCredential (action.map trim) current = endsAs action current := by
  cases action <;> rfl

theorem endsAs_ne_empty {action current : Option String} (h : current ≠ some "") :
    endsAs action current ≠ some "" := by
  cases action with
  | none => exact h
  | some s =>
    unfold endsAs
    dsimp only
    split_ifs with hs
    · exact Option.some_ne_none _ ∘ Eq.symm
    · exact fun heq => hs (Option.some.inj heq)

theorem clientIdOf_ne_empty (stored : Option DcrCredentials) : clientIdOf stored ≠ some "" := by
  unfold clientIdOf
  intro h
  simpa using (Option.filter_eq_some_iff.mp h).2

theorem getD_eq_empty_iff {id : Option String} (h : id ≠ some "") : id.getD "" = "" ↔ id = none := by
  cases id with
  | none => simp
  | some s => exact ⟨fun hs => absurd (congrArg some hs) h, fun hs => by cases hs⟩

theorem clientIdOf_getD (stored : Option DcrCredentials) :
    (clientIdOf stored).getD "" = (stored.map (·.clientId)).getD "" := by
  cases stored with
  | none => rfl
  | some r =>
    by_cases h : r.clientId = ""
    · simp [clientIdOf, Option.filter, h]
    · simp [clientIdOf, Option.filter, h]

/-- The client id that the update computes. -/
theorem idEnds_getD :
    (body.clientId.map trim).getD ((stored.map (·.clientId)).getD "") = (body.idEnds stored).getD "" := by
  unfold idEnds endsAs
  cases body.clientId with
  | none => exact (clientIdOf_getD stored).symm
  | some s =>
    by_cases h : trim s = ""
    · simp [h]
    · simp [h]

/-- What the update rejects. -/
def Rejects : Prop :=
  body.secretEnds stored ≠ none ∧ body.idEnds stored = none ∨ body.ResourceSecretAlone stored

/-- The record that the update saves. -/
def mergedRecord (now : Nat) : DcrCredentials where
  clientId := (body.idEnds stored).getD ""
  clientSecret := body.secretEnds stored
  clientSecretExpiresAt := (stored.map (·.clientSecretExpiresAt)).getD 0
  registeredAt := (stored.map (·.registeredAt)).getD now
  issuer := if body.requestingTouched then none else stored.bind (·.issuer)
  resourceClientId := body.resourceIdEnds stored
  resourceClientSecret := body.resourceSecretEnds stored
  registeredViaDcr := if body.requestingTouched then false else (stored.map (·.registeredViaDcr)).getD false

theorem setEndpointCredentials_eq (now : Nat) :
    setEndpointCredentials body now stored =
      if body.secretEnds stored ≠ none ∧ (body.idEnds stored).getD "" = "" then
        .error "client_id must not be empty when setting client_secret"
      else if body.resourceSecretEnds stored ≠ none ∧ trim ((body.resourceIdEnds stored).getD "") = "" then
        .error "resource_client_id must not be empty when setting resource_client_secret"
      else if (body.idEnds stored).getD "" = "" ∧ body.secretEnds stored = none ∧
          body.resourceIdEnds stored = none ∧ body.resourceSecretEnds stored = none then .ok none
      else .ok (some (body.mergedRecord stored now)) := by
  unfold setEndpointCredentials
  simp only [mergeCredential_trim, idEnds_getD, Option.isSome_iff_ne_none]
  rfl

/-- What the update does, by what the fields end as. -/
theorem setEndpointCredentials_cases (now : Nat) :
    body.Rejects stored ∧ (∃ e, setEndpointCredentials body now stored = .error e) ∨
      ¬ body.Rejects stored ∧
        (body.LeavesNothing stored ∧ setEndpointCredentials body now stored = .ok none ∨
          ¬ body.LeavesNothing stored ∧
            setEndpointCredentials body now stored = .ok (some (body.mergedRecord stored now))) := by
  have hid : (body.idEnds stored).getD "" = "" ↔ body.idEnds stored = none :=
    getD_eq_empty_iff (endsAs_ne_empty (clientIdOf_ne_empty stored))
  rw [setEndpointCredentials_eq]
  by_cases h1 : body.secretEnds stored ≠ none ∧ body.idEnds stored = none
  · exact .inl ⟨.inl h1, _, if_pos ⟨h1.1, hid.mpr h1.2⟩⟩
  rw [if_neg fun h => h1 ⟨h.1, hid.mp h.2⟩]
  by_cases h2 : body.resourceSecretEnds stored ≠ none ∧ trim ((body.resourceIdEnds stored).getD "") = ""
  · exact .inl ⟨.inr h2, _, if_pos h2⟩
  rw [if_neg h2]
  refine .inr ⟨fun h => h.elim h1 h2, ?_⟩
  by_cases h3 : body.LeavesNothing stored
  · exact .inl ⟨h3, if_pos ⟨hid.mpr h3.1, h3.2⟩⟩
  · exact .inr ⟨h3, if_neg fun h => h3 ⟨hid.mp h.1, h.2⟩⟩

/-! ## Where the update departs -/

variable {body stored}

/-- An id that ends as white space was stored so. -/
theorem blank_idEnds_iff :
    trim ((body.idEnds stored).getD "") = "" ↔
      body.idEnds stored = none ∨
        body.clientId = none ∧ ∃ r, stored = some r ∧ r.clientId ≠ "" ∧ trim r.clientId = "" := by
  have hempty : trim "" = "" := by decide
  cases hid : body.clientId with
  | some s =>
    unfold idEnds endsAs
    rw [hid]
    by_cases hs : trim s = ""
    · simp [hs, hempty]
    · simp [hs, trim_trim]
  | none =>
    have hends : body.idEnds stored = clientIdOf stored := by
      unfold idEnds
      rw [hid]
      rfl
    rw [hends, clientIdOf_getD]
    cases stored with
    | none => simp [clientIdOf, hempty]
    | some r =>
      by_cases hr : r.clientId = ""
      · simp [clientIdOf, Option.filter, hr, hempty]
      · simp [clientIdOf, Option.filter, hr]

theorem leavesSecretAlone_iff :
    body.LeavesSecretAlone stored ↔ body.Rejects stored ∨ body.KeepsBlankId stored := by
  unfold LeavesSecretAlone Rejects KeepsBlankId
  rw [blank_idEnds_iff]
  constructor
  · rintro (⟨hsecret, hnone | ⟨hid, hblank⟩⟩ | hresource)
    · exact .inl (.inl ⟨hsecret, hnone⟩)
    · by_cases hresource : body.ResourceSecretAlone stored
      · exact .inl (.inr hresource)
      · exact .inr ⟨hid, hblank, hsecret, hresource⟩
    · exact .inl (.inr hresource)
  · rintro ((⟨hsecret, hnone⟩ | hresource) | ⟨hid, hblank, hsecret, -⟩)
    · exact .inl ⟨hsecret, .inl hnone⟩
    · exact .inr hresource
    · exact .inl ⟨hsecret, .inr ⟨hid, hblank⟩⟩

theorem KeepsBlankId.accepted (h : body.KeepsBlankId stored) : ¬ body.Rejects stored := by
  obtain ⟨hid, ⟨r, rfl, hne, -⟩, -, hresource⟩ := h
  have hends : body.idEnds (some r) = some r.clientId := by
    simp [idEnds, endsAs, hid, clientIdOf, Option.filter, hne]
  rintro (⟨-, hnone⟩ | hres)
  · rw [hends] at hnone
    cases hnone
  · exact hresource hres

theorem mergedRecord_clientId (now : Nat) :
    clientIdOf (some (body.mergedRecord stored now)) = body.idEnds stored := by
  have hne : body.idEnds stored ≠ some "" := endsAs_ne_empty (clientIdOf_ne_empty stored)
  unfold clientIdOf mergedRecord
  cases hid : body.idEnds stored with
  | none => rfl
  | some id =>
    have : id ≠ "" := fun h => hne (by rw [hid, h])
    simp [Option.filter, this]

/-- The expiry is the one thing that may be wrong about a saved record. -/
theorem provenanceFollows_iff (now : Nat) :
    body.ProvenanceFollows stored (body.mergedRecord stored now) ↔
      ¬ ∃ r, stored = some r ∧ r.clientSecretExpiresAt ≠ 0 ∧ body.secretEnds stored ≠ r.clientSecret := by
  have hflag : (body.mergedRecord stored now).registeredViaDcr =
      (!body.requestingTouched && (stored.map (·.registeredViaDcr)).getD false) := by
    unfold mergedRecord
    cases body.requestingTouched <;> rfl
  have hiff : body.ProvenanceFollows stored (body.mergedRecord stored now) ↔
      (stored.map (·.clientSecretExpiresAt)).getD 0 =
        if body.secretEnds stored = stored.bind (·.clientSecret) then
          (stored.map (·.clientSecretExpiresAt)).getD 0 else 0 :=
    ⟨fun h => h.2.2, fun h => ⟨hflag, rfl, h⟩⟩
  rw [hiff]
  cases stored with
  | none => simp
  | some r =>
    by_cases hsame : body.secretEnds (some r) = r.clientSecret
    · simp [hsame]
    · simp [hsame]

section

variable (hfile : sh.file = stored.map .record)
include hfile

theorem setCredentialsAlone_cases (now : Nat) :
    body.Rejects stored ∧ setCredentialsAlone body now sh = (sh, .failed) ∨
      ¬ body.Rejects stored ∧ (setCredentialsAlone body now sh).2 = .done ∧
        (body.LeavesNothing stored ∧ (setCredentialsAlone body now sh).1.file = none ∨
          ¬ body.LeavesNothing stored ∧
            (setCredentialsAlone body now sh).1.file = some (.record (body.mergedRecord stored now))) := by
  have hrun : setCredentialsAlone body now sh = _ := setCredentialsAlone_eq hfile
  rcases body.setEndpointCredentials_cases stored now with
    ⟨hreject, e, hcode⟩ | ⟨haccept, ⟨hnothing, hcode⟩ | ⟨hsomething, hcode⟩⟩
  · rw [hcode] at hrun
    exact .inl ⟨hreject, hrun⟩
  · rw [hcode] at hrun
    exact .inr ⟨haccept, by rw [hrun], .inl ⟨hnothing, by rw [hrun]⟩⟩
  · rw [hcode] at hrun
    dsimp only at hrun
    by_cases hsame : stored = some (body.mergedRecord stored now)
    · rw [if_pos hsame] at hrun
      refine .inr ⟨haccept, by rw [hrun], .inr ⟨hsomething, ?_⟩⟩
      rw [hrun]
      exact hfile.trans (congrArg (Option.map DcrText.record) hsame)
    · rw [if_neg hsame] at hrun
      exact .inr ⟨haccept, by rw [hrun], .inr ⟨hsomething, by rw [hrun]⟩⟩

theorem KeepsBlankId.not_merges (h : body.KeepsBlankId stored) :
    ¬ body.Merges stored sh (setCredentialsAlone body now sh) := by
  intro hmerges
  have hfailed := hmerges.rejected (leavesSecretAlone_iff.mpr (.inr h))
  rcases setCredentialsAlone_cases hfile now with ⟨hreject, -⟩ | ⟨-, hdone, -⟩
  · exact h.accepted hreject
  · rw [hfailed] at hdone
    cases hdone

theorem KeepsExpiry.not_merges (h : body.KeepsExpiry stored) :
    ¬ body.Merges stored sh (setCredentialsAlone body now sh) := by
  intro hmerges
  obtain ⟨-, creds, hcreds, -, -, -, -, hfollows⟩ := hmerges.saved h.1 h.2.1
  rcases setCredentialsAlone_cases hfile now with ⟨hreject, -⟩ | ⟨-, -, ⟨hnothing, -⟩ | ⟨-, hsaved⟩⟩
  · exact h.1 (leavesSecretAlone_iff.mpr (.inl hreject))
  · exact h.2.1 hnothing
  · rw [hcreds] at hsaved
    cases hsaved
    exact (provenanceFollows_iff now).mp hfollows h.2.2

theorem merges_of_not (hblank : ¬ body.KeepsBlankId stored) (hexpiry : ¬ body.KeepsExpiry stored) :
    body.Merges stored sh (setCredentialsAlone body now sh) := by
  rcases setCredentialsAlone_cases hfile now with
    ⟨hreject, hrun⟩ | ⟨haccept, hdone, hend⟩
  · have halone : body.LeavesSecretAlone stored := leavesSecretAlone_iff.mpr (.inl hreject)
    exact ⟨fun _ => hrun, fun h => absurd halone h, fun h => absurd halone h⟩
  · have halone : ¬ body.LeavesSecretAlone stored := fun h =>
      (leavesSecretAlone_iff.mp h).elim haccept hblank
    rcases hend with ⟨hnothing, hdeleted⟩ | ⟨hsomething, hsaved⟩
    · exact ⟨fun h => absurd h halone, fun _ _ => ⟨hdone, hdeleted⟩, fun _ h => absurd hnothing h⟩
    · have hfollows : body.ProvenanceFollows stored (body.mergedRecord stored now) :=
        (provenanceFollows_iff now).mpr fun h => hexpiry ⟨halone, hsomething, h⟩
      exact ⟨fun h => absurd h halone, fun _ h => absurd h hsomething, fun _ _ =>
        ⟨hdone, _, hsaved, mergedRecord_clientId now, rfl, rfl, rfl, hfollows⟩⟩

end

end EndpointCredentialsRequest

/-- **Where the merge is right.** -/
theorem merges_iff (body : EndpointCredentialsRequest) (stored : Option DcrCredentials) (now : Nat)
    (tmp : Option DcrText) (rejected : List String) :
    body.Merges stored ⟨stored.map .record, tmp, rejected⟩
        (setCredentialsAlone body now ⟨stored.map .record, tmp, rejected⟩) ↔
      ¬ body.KeepsBlankId stored ∧ ¬ body.KeepsExpiry stored :=
  ⟨fun h => ⟨fun hblank => hblank.not_merges rfl h, fun hexpiry => hexpiry.not_merges rfl h⟩,
    fun h => EndpointCredentialsRequest.merges_of_not rfl h.1 h.2⟩

def expiringClient : DcrCredentials where
  clientId := "registered"
  clientSecret := some "issued"
  clientSecretExpiresAt := 1700000000
  registeredAt := 1690000000
  issuer := some "https://as.example"
  resourceClientId := none
  resourceClientSecret := none
  registeredViaDcr := true

/-- A secret of the operator expires with the registered one. -/
theorem manual_secret_expires :
    ¬ (⟨none, some "manual", none, none⟩ : EndpointCredentialsRequest).Merges (some expiringClient)
      ⟨some (.record expiringClient), none, []⟩
      (setCredentialsAlone ⟨none, some "manual", none, none⟩ 1695000000
        ⟨some (.record expiringClient), none, []⟩) := by
  refine EndpointCredentialsRequest.KeepsExpiry.not_merges rfl ⟨?_, ?_, expiringClient, rfl, ?_, ?_⟩
  · decide
  · decide
  · decide
  · decide

end EndaraRelay
