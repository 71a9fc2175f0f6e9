import EndaraRelay.ClientWriters

/-!
# The client of a login

Which client a login uses: `oauth_start` in `management.rs` chooses between the config of the endpoint and
the stored record, and registers one if it has to; `oauth_callback` in `server.rs` checks that the stored
record is still about this client; `resolve_oauth_client_creds` in `watcher.rs` chooses again after a
restart. No other writer of the record is at work here.

**Theorem (`login_client_agrees_iff`).** A login that is started has a client id, passes the checks of the
callback and is what a restart resolves to, if and only if `ClientAgrees`: each of the three reads the
config and the record in an order of its own, and they agree when the record that is there has a client id
that is still to be used, and the config names no other one.
-/

namespace EndaraRelay

/-! ## Reading and writing the record -/

/-- `load_dcr`, where an error is no record. -/
def storedRecord : Option DcrText → Option DcrCredentials
  | some (.record creds) => some creds
  | _ => none

/-- `save_dcr`, if it succeeds. -/
def saveDcr (saved : Bool) (creds : DcrCredentials) (file : Option DcrText) : Option DcrText :=
  if saved then some (.record creds) else file

/-- `delete_dcr`, if it succeeds. -/
def deleteDcr (deleted : Bool) (file : Option DcrText) : Option DcrText := if deleted then none else file

/-- `update_dcr`. -/
def updateDcrFile (saved : Bool) (now : Nat) (f : DcrUpdate) (file : Option DcrText) : Option DcrText :=
  match file with
  | some .unreadable => file
  | _ => match f now (storedRecord file) with
    | .error _ => file
    | .ok none => deleteDcr saved file
    | .ok (some creds) => if storedRecord file = some creds then file else saveDcr saved creds file

def dcrIssuerAllowsReuse : Option String → Option String → Bool
  | some stored, some current => stored = current
  | _, _ => true

/-- The record as it is used with an issuer: what was registered with another one is no client. -/
def DcrCredentials.boundTo (issuer : Option String) (creds : DcrCredentials) : DcrCredentials :=
  if creds.registeredViaDcr && !dcrIssuerAllowsReuse creds.issuer issuer then
    { creds with
      clientId := ""
      clientSecret := none
      clientSecretExpiresAt := 0
      issuer := none
      registeredViaDcr := true }
  else creds

/-! ## The start of a login -/

/-- The client in the config of an endpoint. -/
structure EndpointClient where
  clientId : Option String := none
  clientSecret : Option String := none
deriving DecidableEq

/-- What a start finds out: the registration endpoint and the issuer, the answer of the registration
endpoint, and whether the record can be written. -/
structure LoginEnvironment where
  registrationEndpoint : Option String := none
  issuer : Option String := none
  registration : Except String RegisteredClient := .error ""
  saved : Bool := true
  now : Nat := 0

/-- The client of a flow, and whether it comes from the record. -/
structure FlowClient where
  clientId : String
  clientSecret : Option String
  dcrUsed : Bool
deriving DecidableEq

def FlowClient.pair (flow : FlowClient) : String × Option String := (flow.clientId, flow.clientSecret)

/-- The client is registered again. If that fails the record is used, unless it has no client. -/
def reregister (env : LoginEnvironment) (creds : DcrCredentials) (file : Option DcrText) :
    Except String FlowClient × Option DcrText :=
  match env.registration with
  | .ok resp =>
    (.ok ⟨resp.clientId, resp.clientSecret, true⟩,
      updateDcrFile env.saved env.now (reregistrationUpdate
        (((storedRecord file).filter (·.registeredViaDcr)).map (·.clientId)) resp env.issuer) file)
  | .error _ =>
    if creds.clientId = "" then (.error "dcr_registration_unavailable", file)
    else (.ok ⟨creds.clientId, creds.clientSecret, true⟩, file)

/-- The client of the config, with the secret of the record if that is about the same client. -/
def configClient (cfg : EndpointClient) (cid : String) (persisted : Option DcrCredentials) : FlowClient :=
  match persisted with
  | some creds =>
    if creds.clientId = cid then ⟨cid, creds.clientSecret, false⟩ else ⟨cid, cfg.clientSecret, false⟩
  | none => ⟨cid, cfg.clientSecret, false⟩

/-- The client is registered for the first time. -/
def registerFirst (env : LoginEnvironment) (file : Option DcrText) :
    Except String FlowClient × Option DcrText :=
  match env.registrationEndpoint, env.registration with
  | some _, .ok resp =>
    (.ok ⟨resp.clientId, resp.clientSecret, true⟩,
      saveDcr env.saved (firstRegistration resp env.issuer env.now) file)
  | _, _ => (.error "dcr_unsupported", file)

/-- The choice of the client in `oauth_start_inner`, and the record file it leaves. -/
def startClient (cfg : EndpointClient) (env : LoginEnvironment) (file : Option DcrText) :
    Except String FlowClient × Option DcrText :=
  let persisted := (storedRecord file).map (DcrCredentials.boundTo env.issuer)
  match persisted.filter fun creds => creds.registeredViaDcr && env.registrationEndpoint.isSome with
  | some creds => reregister env creds file
  | none =>
    match cfg.clientId with
    | some cid => (.ok (configClient cfg cid persisted), file)
    | none =>
      match persisted with
      | some creds => (.ok ⟨creds.clientId, creds.clientSecret, true⟩, file)
      | none => registerFirst env file

/-! ## The callback and the restart -/

/-- The two checks of the callback, before the code is exchanged and before it commits: the record has no
other client. -/
def passesSupersession (flowClientId : String) (file : Option DcrText) : Bool :=
  match storedRecord file with
  | some creds => creds.clientId = "" || creds.clientId = flowClientId
  | none => true

def resolveOauthClientCreds (cfg : EndpointClient) (file : Option DcrText) : String × Option String :=
  match storedRecord file with
  | some creds => (creds.clientId, creds.clientSecret)
  | none => (cfg.clientId.getD "", cfg.clientSecret)

/-- A login commits with a client, and a restart goes on with it. -/
structure LoginAgrees (cfg : EndpointClient) (flow : FlowClient) (file : Option DcrText) : Prop where
  named : flow.clientId ≠ ""
  passes : passesSupersession flow.clientId file = true
  restart : resolveOauthClientCreds cfg file = flow.pair

/-! ## When they agree -/

/-- The record may be used with the issuer. -/
def DcrCredentials.usable (issuer : Option String) (creds : DcrCredentials) : Bool :=
  !creds.registeredViaDcr || dcrIssuerAllowsReuse creds.issuer issuer

/-- A freshly registered client is one, and replaces the record. -/
def FreshAgrees (env : LoginEnvironment) (old : Option (String × Option String)) : Prop :=
  match env.registration with
  | .ok resp => resp.clientId ≠ "" ∧ (env.saved = true ∨ old = some (resp.clientId, resp.clientSecret))
  | .error _ => True

/-- What the config and the record have to be for the three to agree. -/
def ClientAgrees (cfg : EndpointClient) (env : LoginEnvironment) (file : Option DcrText) : Prop :=
  match storedRecord file with
  | none =>
    match cfg.clientId with
    | some cid => cid ≠ ""
    | none => FreshAgrees env none
  | some creds =>
    if creds.registeredViaDcr && env.registrationEndpoint.isSome then
      FreshAgrees env (some (creds.clientId, creds.clientSecret))
    else creds.clientId ≠ "" ∧ (cfg.clientId = none ∨ cfg.clientId = some creds.clientId) ∧
      (creds.usable env.issuer = true ∨ cfg.clientId ≠ none ∧ cfg.clientSecret = creds.clientSecret)

variable {cfg : EndpointClient} {env : LoginEnvironment} {file file' : Option DcrText} {flow : FlowClient}
  {creds : DcrCredentials}

theorem boundTo_usable (h : creds.usable env.issuer = true) : creds.boundTo env.issuer = creds := by
  unfold DcrCredentials.boundTo
  unfold DcrCredentials.usable at h
  rw [if_neg]
  intro hunusable
  rw [Bool.and_eq_true, Bool.not_eq_true'] at hunusable
  rw [hunusable.1, hunusable.2] at h
  exact Bool.false_ne_true h

theorem boundTo_unusable (h : creds.usable env.issuer = false) :
    (creds.boundTo env.issuer).clientId = "" ∧ (creds.boundTo env.issuer).clientSecret = none ∧
      (creds.boundTo env.issuer).registeredViaDcr = true := by
  unfold DcrCredentials.boundTo
  unfold DcrCredentials.usable at h
  rw [if_pos (by simpa [Bool.or_eq_false_iff] using h)]
  exact ⟨rfl, rfl, rfl⟩

theorem boundTo_registeredViaDcr (issuer : Option String) :
    (creds.boundTo issuer).registeredViaDcr = creds.registeredViaDcr := by
  unfold DcrCredentials.boundTo
  split
  · next h => simp_all
  · rfl

/-- A login whose record is about its client. -/
theorem loginAgrees_stored (hfile : storedRecord file = some creds) : LoginAgrees cfg flow file ↔
    flow.clientId ≠ "" ∧ (creds.clientId, creds.clientSecret) = flow.pair := by
  constructor
  · intro h
    refine ⟨h.named, ?_⟩
    have hrestart := h.restart
    unfold resolveOauthClientCreds at hrestart
    rwa [hfile] at hrestart
  · rintro ⟨hnamed, hpair⟩
    have hid : creds.clientId = flow.clientId := congrArg Prod.fst hpair
    refine ⟨hnamed, ?_, ?_⟩
    · unfold passesSupersession
      rw [hfile]
      simp [hid]
    · unfold resolveOauthClientCreds
      rw [hfile]
      exact hpair

theorem loginAgrees_unstored (hfile : storedRecord file = none) : LoginAgrees cfg flow file ↔
    flow.clientId ≠ "" ∧ (cfg.clientId.getD "", cfg.clientSecret) = flow.pair := by
  constructor
  · intro h
    refine ⟨h.named, ?_⟩
    have hrestart := h.restart
    unfold resolveOauthClientCreds at hrestart
    rwa [hfile] at hrestart
  · rintro ⟨hnamed, hpair⟩
    refine ⟨hnamed, ?_, ?_⟩
    · unfold passesSupersession
      rw [hfile]
    · unfold resolveOauthClientCreds
      rw [hfile]
      exact hpair

theorem eq_record_of_stored (h : storedRecord file = some creds) : file = some (.record creds) := by
  unfold storedRecord at h
  split at h
  · cases h
    rfl
  · cases h

theorem updateDcrFile_record (saved : Bool) (now : Nat) {f : DcrUpdate} {updated : DcrCredentials}
    (h : f now (some creds) = .ok (some updated)) :
    ∃ r, storedRecord (updateDcrFile saved now f (some (.record creds))) = some r ∧
      (saved = true → r = updated) ∧ (saved = false → r = creds) := by
  have hfile : updateDcrFile saved now f (some (.record creds)) =
      if some creds = some updated then some (.record creds)
      else saveDcr saved updated (some (.record creds)) := by
    show (match f now (some creds) with
      | .error _ => _
      | .ok none => _
      | .ok (some creds') => _) = _
    rw [h]
    rfl
  rw [hfile]
  split
  · next hsame => exact ⟨creds, rfl, fun _ => Option.some.inj hsame, fun _ => rfl⟩
  · cases saved with
    | true => exact ⟨updated, rfl, fun _ => rfl, fun h => absurd h.symm Bool.false_ne_true⟩
    | false => exact ⟨creds, rfl, fun h => absurd h Bool.false_ne_true, fun _ => rfl⟩

/-- The record after a registration: that of the new client if it can be written, the old one if not. -/
theorem reregistered_record (env : LoginEnvironment) (resp : RegisteredClient) (hdcr : creds.registeredViaDcr = true) :
    ∃ r, storedRecord (updateDcrFile env.saved env.now
        (reregistrationUpdate (some creds.clientId) resp env.issuer) (some (.record creds))) = some r ∧
      (env.saved = true → (r.clientId, r.clientSecret) = (resp.clientId, resp.clientSecret)) ∧
      (env.saved = false → r = creds) := by
  have hmatches : matchesSnapshot (some creds.clientId) (some creds) = true := by
    simp [matchesSnapshot, hdcr]
  have hupdate : reregistrationUpdate (some creds.clientId) resp env.issuer env.now (some creds) =
      .ok (some _) := if_pos hmatches
  obtain ⟨r, hr, hsaved, hunsaved⟩ := updateDcrFile_record env.saved env.now hupdate
  refine ⟨r, hr, fun hs => ?_, hunsaved⟩
  rw [hsaved hs]

/-- **A client that is registered again.** The record takes it when it can be written. -/
theorem reregister_agrees (hfile : storedRecord file = some creds) (hdcr : creds.registeredViaDcr = true)
    (h : reregister env (creds.boundTo env.issuer) file = (.ok flow, file')) :
    LoginAgrees cfg flow file' ↔ FreshAgrees env (some (creds.clientId, creds.clientSecret)) := by
  unfold reregister at h
  unfold FreshAgrees
  cases hreg : env.registration with
  | ok resp =>
    rw [hreg] at h
    cases h
    obtain rfl := eq_record_of_stored hfile
    have hsnapshot : (((storedRecord (some (.record creds))).filter (·.registeredViaDcr)).map
        (·.clientId)) = some creds.clientId := by
      simp [storedRecord, Option.filter, hdcr]
    rw [hsnapshot]
    obtain ⟨r, hr, hsaved, hunsaved⟩ := reregistered_record env resp hdcr
    rw [loginAgrees_stored hr]
    refine and_congr_right fun _ => ?_
    cases hs : env.saved with
    | true => exact ⟨fun _ => .inl rfl, fun _ => hsaved hs⟩
    | false =>
      rw [hunsaved hs]
      exact ⟨fun hpair => .inr (congrArg some hpair), fun hpair =>
        Option.some.inj (hpair.resolve_left Bool.false_ne_true)⟩
  | error e =>
    rw [hreg] at h
    dsimp only at h
    split at h
    · cases h
    · next hid =>
      cases h
      have husable : creds.usable env.issuer = true := by
        by_contra hnot
        exact hid (boundTo_unusable (Bool.not_eq_true _ ▸ hnot)).1
      rw [boundTo_usable husable] at hid ⊢
      rw [loginAgrees_stored hfile]
      exact ⟨fun _ => trivial, fun _ => ⟨hid, rfl⟩⟩

/-- **A client of the config.** -/
theorem configClient_agrees {cid : String} (hfile : storedRecord file = some creds)
    (hcid : cfg.clientId = some cid) :
    LoginAgrees cfg (configClient cfg cid (some (creds.boundTo env.issuer))) file ↔
      creds.clientId ≠ "" ∧ cid = creds.clientId ∧
        (creds.usable env.issuer = true ∨ cfg.clientSecret = creds.clientSecret) := by
  rw [loginAgrees_stored hfile]
  unfold configClient
  dsimp only
  by_cases husable : creds.usable env.issuer = true
  · rw [boundTo_usable husable]
    split
    · next hid =>
      subst hid
      exact ⟨fun h => ⟨h.1, rfl, .inl husable⟩, fun h => ⟨h.1, rfl⟩⟩
    · next hid =>
      exact ⟨fun h => absurd (congrArg Prod.fst h.2) hid, fun h => absurd h.2.1.symm hid⟩
  · obtain ⟨hid, -, -⟩ := boundTo_unusable (Bool.not_eq_true _ ▸ husable)
    rw [hid]
    split
    · next hempty =>
      subst hempty
      exact ⟨fun h => absurd rfl h.1, fun h => absurd h.2.1.symm h.1⟩
    · constructor
      · rintro ⟨hne, hpair⟩
        obtain ⟨hid, hsecret⟩ := Prod.mk.inj hpair
        have hid : creds.clientId = cid := hid
        exact ⟨hid ▸ hne, hid.symm, .inr hsecret.symm⟩
      · rintro ⟨hne, rfl, hsecret⟩
        refine ⟨hne, ?_⟩
        rw [← hsecret.resolve_left husable]
        rfl

/-- **A client of the record.** -/
theorem recordClient_agrees (hfile : storedRecord file = some creds) :
    LoginAgrees cfg ⟨(creds.boundTo env.issuer).clientId, (creds.boundTo env.issuer).clientSecret, true⟩
        file ↔ creds.clientId ≠ "" ∧ creds.usable env.issuer = true := by
  rw [loginAgrees_stored hfile]
  by_cases husable : creds.usable env.issuer = true
  · rw [boundTo_usable husable]
    exact ⟨fun h => ⟨h.1, husable⟩, fun h => ⟨h.1, rfl⟩⟩
  · obtain ⟨hid, -, -⟩ := boundTo_unusable (Bool.not_eq_true _ ▸ husable)
    exact ⟨fun h => absurd hid h.1, fun h => absurd h.2 husable⟩

/-- **A client that is registered for the first time.** -/
theorem registerFirst_agrees (hfile : storedRecord file = none) (hcid : cfg.clientId = none)
    (h : registerFirst env file = (.ok flow, file')) : LoginAgrees cfg flow file' ↔ FreshAgrees env none := by
  unfold registerFirst at h
  unfold FreshAgrees
  split at h
  · next resp _ hreg =>
    cases h
    rw [hreg]
    dsimp only
    unfold saveDcr
    cases hs : env.saved with
    | true =>
      rw [if_pos rfl, loginAgrees_stored rfl]
      exact ⟨fun hnamed => ⟨hnamed.1, .inl rfl⟩, fun hnamed => ⟨hnamed.1, rfl⟩⟩
    | false =>
      rw [if_neg Bool.false_ne_true, loginAgrees_unstored hfile, hcid]
      constructor
      · rintro ⟨hnamed, hpair⟩
        exact absurd (congrArg Prod.fst hpair).symm hnamed
      · rintro ⟨-, hsaved | hpair⟩
        · exact absurd hsaved Bool.false_ne_true
        · cases hpair
  · cases h

/-- **An undisturbed login** has a client, passes the checks of the callback and goes on after a restart, if
and only if the record that is there has a client that may be used and the config names no other one. -/
theorem login_client_agrees_iff (h : startClient cfg env file = (.ok flow, file')) :
    LoginAgrees cfg flow file' ↔ ClientAgrees cfg env file := by
  unfold startClient at h
  unfold ClientAgrees
  cases hfile : storedRecord file with
  | none =>
    rw [hfile] at h
    dsimp only [Option.map_none, Option.filter_none] at h ⊢
    cases hcid : cfg.clientId with
    | none =>
      rw [hcid] at h
      exact registerFirst_agrees hfile hcid h
    | some cid =>
      rw [hcid] at h
      cases h
      rw [loginAgrees_unstored hfile, hcid]
      exact ⟨fun hnamed => hnamed.1, fun hnamed => ⟨hnamed, rfl⟩⟩
  | some creds =>
    rw [hfile] at h
    simp only [Option.map_some, Option.filter_some, boundTo_registeredViaDcr] at h
    dsimp only
    by_cases hdcr : (creds.registeredViaDcr && env.registrationEndpoint.isSome) = true
    · rw [if_pos hdcr] at h ⊢
      exact reregister_agrees hfile (Bool.and_eq_true _ _ ▸ hdcr).1 h
    · rw [if_neg hdcr] at h ⊢
      cases hcid : cfg.clientId with
      | some cid =>
        rw [hcid] at h
        cases h
        rw [configClient_agrees hfile hcid]
        refine and_congr_right fun _ => ?_
        simp
      | none =>
        rw [hcid] at h
        cases h
        rw [recordClient_agrees hfile]
        simp

/-! ### Two endpoints -/

def manualRecord : Option DcrText := some (.record (manualCredentials "manual" (some "secret") 7))

theorem login_client_agrees_manual :
    startClient ⟨some "manual", none⟩ {} manualRecord = (.ok ⟨"manual", some "secret", false⟩, manualRecord) ∧
      (LoginAgrees ⟨some "manual", none⟩ ⟨"manual", some "secret", false⟩ manualRecord ↔
        ClientAgrees ⟨some "manual", none⟩ {} manualRecord) :=
  ⟨rfl, login_client_agrees_iff rfl⟩

/-- Only the credentials at the resource's authorization server are stored. -/
def resourceRecord : Option DcrText :=
  some (.record ⟨"", none, 0, 7, none, some "resource", some "key", false⟩)

/-- A login without a client id, and one that its own callback rejects. -/
theorem undisturbed_login_fails :
    (startClient {} { registrationEndpoint := some "https://as/register" } resourceRecord =
        (.ok ⟨"", none, true⟩, resourceRecord) ∧
      ¬ LoginAgrees {} ⟨"", none, true⟩ resourceRecord) ∧
    startClient ⟨some "configured", none⟩ {} manualRecord =
        (.ok ⟨"configured", none, false⟩, manualRecord) ∧
      ¬ LoginAgrees ⟨some "configured", none⟩ ⟨"configured", none, false⟩ manualRecord := by
  refine ⟨⟨rfl, fun h => h.named rfl⟩, rfl, fun h => ?_⟩
  exact absurd h.passes (by decide)

end EndaraRelay
