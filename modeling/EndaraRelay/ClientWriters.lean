import EndaraRelay.ClientRecords

/-!
# The writers of a client record

Who writes `{name}.dcr.json`, and what becomes of the resource pair of the record.

**The writers.** `ClientWrite` lists them with what they write: the handlers of `management.rs` that take
credentials, the registrations of `oauth_start` and `oauth_setup`, the commit of a setup session, the
check of the callback in `server.rs`, the client that `jit.rs` resolves and the self-heal. Some are
updates of the record in the file. Others save a record they have built from scratch, whatever is in the
file.

**Theorem (`resource_pair_survives`).** In every run in which a record built from scratch is renamed only
over a record without a resource pair, the pair of the file changes only in a step of a credentials
request that names it, or of a deletion.
-/

namespace EndaraRelay

open Verif

/-! ## What is written -/

/-- The fields of `ClientRegistrationResponse` that are kept. -/
structure RegisteredClient where
  clientId : String
  clientSecret : Option String := none
  clientSecretExpiresAt : Nat := 0
deriving DecidableEq

/-- The record that `oauth_start` saves for an endpoint without one. -/
def firstRegistration (resp : RegisteredClient) (issuer : Option String) (now : Nat) : DcrCredentials :=
  ⟨resp.clientId, resp.clientSecret, resp.clientSecretExpiresAt, now, issuer, none, none, true⟩

/-- The record is still the one that was registered dynamically under `expected`, or still absent. -/
def matchesSnapshot (expected : Option String) (current : Option DcrCredentials) : Bool :=
  match current, expected with
  | some c, some expected => c.registeredViaDcr && c.clientId = expected
  | none, none => true
  | _, _ => false

/-- The update of `oauth_start` for a client that was registered again. -/
def reregistrationUpdate (expected : Option String) (resp : RegisteredClient) (issuer : Option String) :
    DcrUpdate := fun now current =>
  if matchesSnapshot expected current then
    .ok (some {
      clientId := resp.clientId
      clientSecret := resp.clientSecret
      clientSecretExpiresAt := resp.clientSecretExpiresAt
      registeredAt := now
      issuer
      resourceClientId := current.bind (·.resourceClientId)
      resourceClientSecret := current.bind (·.resourceClientSecret)
      registeredViaDcr := true })
  else .ok current

/-- Where the client of a setup session comes from. -/
inductive ClientRegistration where
  | manual
  | preregistered
  | cimd
  | dcr
deriving DecidableEq

/-- The record that `oauth_setup` saves. -/
def setupRegistration (resolved : RegisteredClient) (registration : ClientRegistration) (issuer : String)
    (now : Nat) : DcrCredentials :=
  ⟨resolved.clientId, resolved.clientSecret, resolved.clientSecretExpiresAt, now,
    if registration = .manual then none else some issuer, none, none, registration = .dcr⟩

/-- What the commit of a setup session reads of its client. -/
structure SessionClient where
  clientId : String
  clientSecret : Option String
  clientSecretExpiresAt : Nat
  issuer : Option String
  registeredViaDcr : Bool
deriving DecidableEq

/-- The update of `commit_claimed_session`: the client is saved if there is no record, and has to be that of
the record if there is one. -/
def commitUpdate (session : SessionClient) : DcrUpdate := fun now existing =>
  match existing with
  | none => .ok (some {
      clientId := session.clientId
      clientSecret := session.clientSecret
      clientSecretExpiresAt := session.clientSecretExpiresAt
      registeredAt := now
      issuer := if session.registeredViaDcr then session.issuer else none
      resourceClientId := none
      resourceClientSecret := none
      registeredViaDcr := session.registeredViaDcr })
  | some existing =>
    if existing.clientId = session.clientId ∧ existing.clientSecret = session.clientSecret then
      .ok (some existing)
    else .error "dcr_record_mismatch"

/-- The update of the callback: it only looks. -/
def callbackUpdate : DcrUpdate := fun _ current => .ok current

/-- The writers of the record of an endpoint. -/
inductive ClientWrite where
  | oauthCredentials (clientId : String) (clientSecret : Option String) (now : Nat)
  | setEndpointCredentials (body : EndpointCredentialsRequest)
  | firstRegistration (resp : RegisteredClient) (issuer : Option String) (now : Nat)
  | reregistration (expected : Option String) (resp : RegisteredClient) (issuer : Option String)
  | setupRegistration (resolved : RegisteredClient) (registration : ClientRegistration) (issuer : String)
      (now : Nat)
  | setupCredentials (clientId : String) (clientSecret : Option String) (now : Nat)
  | setupCommit (session : SessionClient)
  | callbackCommit
  | jit (resp : RegisteredClient) (bindIssuer : String) (isDcr : Bool)
  | delete
  | tokenPost (posted : String)

/-- What a writer does under the lock. -/
def ClientWrite.write : ClientWrite → DcrWrite
  | .oauthCredentials clientId clientSecret now => .save (manualCredentials clientId clientSecret now)
  | .setEndpointCredentials body => .update (EndaraRelay.setEndpointCredentials body)
  | .firstRegistration resp issuer now => .save (EndaraRelay.firstRegistration resp issuer now)
  | .reregistration expected resp issuer => .update (reregistrationUpdate expected resp issuer)
  | .setupRegistration resolved registration issuer now =>
    .save (EndaraRelay.setupRegistration resolved registration issuer now)
  | .setupCredentials clientId clientSecret now => .save (manualCredentials clientId clientSecret now)
  | .setupCommit session => .update (commitUpdate session)
  | .callbackCommit => .update callbackUpdate
  | .jit resp bindIssuer isDcr =>
    .update (jitUpdate resp.clientId resp.clientSecret resp.clientSecretExpiresAt bindIssuer isDcr)
  | .delete => .delete
  | .tokenPost posted => .clear posted

/-- A token post writes only once it has been rejected. -/
def ClientWrite.op (w : ClientWrite) : DcrOp :=
  match w, w.write with
  | .tokenPost posted, _ => .tokenPost posted
  | _, .save creds => .save creds
  | _, .update f => .update f
  | _, .delete => .delete
  | _, .clear posted => .tokenPost posted

/-- Any number of writers of the record of one endpoint. -/
def clientWriters : Pool DcrFiles DcrThread ClientWrite DcrChoice := clientRecords.relabel ClientWrite.op

/-! ## The resource pair -/

/-- The credentials at the resource's own authorization server. -/
def DcrCredentials.resourcePair (creds : DcrCredentials) : Option String × Option String :=
  (creds.resourceClientId, creds.resourceClientSecret)

def resourcePair (existing : Option DcrCredentials) : Option String × Option String :=
  (existing.map DcrCredentials.resourcePair).getD (none, none)

/-- The pair of the record in the file; none if it cannot be read. -/
def DcrFiles.resourcePair (sh : DcrFiles) : Option String × Option String :=
  match sh.file with
  | some (.record creds) => creds.resourcePair
  | _ => (none, none)

/-- A credentials request that names the resource pair. -/
def EndpointCredentialsRequest.namesResource (body : EndpointCredentialsRequest) : Bool :=
  body.resourceClientId.isSome || body.resourceClientSecret.isSome

def ClientWrite.namesResource : ClientWrite → Bool
  | .setEndpointCredentials body => body.namesResource
  | .delete => true
  | _ => false

/-- An update that leaves the pair. -/
def KeepsPair (f : DcrUpdate) : Prop :=
  ∀ now existing result, f now existing = .ok result → resourcePair result = resourcePair existing

variable {body : EndpointCredentialsRequest} {now : Nat} {resp : RegisteredClient} {w : ClientWrite}
  {existing : Option DcrCredentials} {built : DcrCredentials}

/-- The pair an update of an operator leaves. -/
theorem resourcePair_setEndpointCredentials {existing result : Option DcrCredentials}
    (h : setEndpointCredentials body now existing = .ok result) :
    resourcePair result =
      (mergeCredential (body.resourceClientId.map trim) (existing.bind (·.resourceClientId)),
        mergeCredential (body.resourceClientSecret.map trim) (existing.bind (·.resourceClientSecret))) := by
  unfold setEndpointCredentials at h
  dsimp only at h
  split at h
  · cases h
  · split at h
    · cases h
    · split at h
      · next hnone =>
        cases h
        obtain ⟨-, -, hid, hsecret⟩ := hnone
        rw [hid, hsecret]
        rfl
      · cases h
        rfl

theorem keepsPair_setEndpointCredentials (h : body.namesResource = false) :
    KeepsPair (setEndpointCredentials body) := by
  intro now existing result hresult
  obtain ⟨hid, hsecret⟩ := Bool.or_eq_false_iff.1 h
  rw [Option.isSome_eq_false_iff, Option.isNone_iff_eq_none] at hid hsecret
  rw [resourcePair_setEndpointCredentials hresult, hid, hsecret]
  cases existing <;> rfl

theorem keepsPair_reregistrationUpdate {expected : Option String} {issuer : Option String} :
    KeepsPair (reregistrationUpdate expected resp issuer) := by
  intro now existing result hresult
  unfold reregistrationUpdate at hresult
  split at hresult
  · cases hresult
    cases existing <;> rfl
  · cases hresult
    rfl

theorem keepsPair_commitUpdate {session : SessionClient} : KeepsPair (commitUpdate session) := by
  intro now existing result hresult
  unfold commitUpdate at hresult
  cases existing with
  | none =>
    cases hresult
    rfl
  | some r =>
    dsimp only at hresult
    split at hresult
    · cases hresult
      rfl
    · cases hresult

theorem keepsPair_jitUpdate {bindIssuer : String} {isDcr : Bool} :
    KeepsPair (jitUpdate resp.clientId resp.clientSecret resp.clientSecretExpiresAt bindIssuer isDcr) := by
  intro now existing result hresult
  cases hresult
  cases existing <;> rfl

theorem keepsPair_callbackUpdate : KeepsPair callbackUpdate := by
  intro now existing result hresult
  cases hresult
  rfl

/-- What a writer does that is not about the pair: an update leaves it, and what is built from scratch has
none. -/
def DcrWrite.SparesPair : DcrWrite → Prop
  | .save creds => creds.resourcePair = (none, none)
  | .update f => KeepsPair f
  | .clear _ => True
  | .delete => False

theorem ClientWrite.sparesPair (h : w.namesResource = false) : w.write.SparesPair := by
  cases w with
  | setEndpointCredentials body => exact keepsPair_setEndpointCredentials h
  | reregistration expected resp issuer => exact keepsPair_reregistrationUpdate
  | setupCommit session => exact keepsPair_commitUpdate
  | callbackCommit => exact keepsPair_callbackUpdate
  | jit resp bindIssuer isDcr => exact keepsPair_jitUpdate
  | delete => cases h
  | tokenPost posted => trivial
  | _ => rfl

/-! ## Runs -/

variable {s s' : Pool.State DcrFiles DcrThread} {sh sh' : DcrFiles} {ts new : List DcrThread}
  {t t' : DcrThread} {c : DcrChoice} {op : DcrWrite} {creds : DcrCredentials} {spc : DcrSavePc}

/-- What is built from scratch is renamed over a record without a resource pair. -/
def sparesPair (s : Pool.State DcrFiles DcrThread) : Pool.Action ClientWrite DcrChoice → Bool
  | .run i (.go _) => match s.threads[i]? with
    | some (.writer (.save _) (.saving _ .publishing)) => s.shared.resourcePair = (none, none)
    | _ => true
  | _ => true

/-- The thread is one of a writer. -/
def DcrThread.From (w : ClientWrite) : DcrThread → Prop
  | .tokenPost posted _ => w = .tokenPost posted
  | .writer op _ => op = w.write

theorem DcrThread.From.step {w : ClientWrite} (hfrom : t.From w)
    (h : dcrStep sh ts t c = some (sh', t', new)) : t'.From w := by
  cases t with
  | tokenPost posted ppc =>
    obtain ⟨⟨sh₁, t₁⟩, hst, heq⟩ := Option.map_eq_some_iff.1 h
    cases heq
    cases hfrom
    obtain ⟨-, rfl⟩ | ⟨-, -, rfl⟩ | ⟨-, rfl⟩ := tokenPostStep_cases hst
    · rfl
    · rfl
    · rfl
  | writer op pc =>
    obtain ⟨⟨sh₁, pc₁⟩, hst, heq⟩ := Option.map_eq_some_iff.1 h
    cases heq
    exact hfrom

theorem from_launched {a : DcrThread} (h : clientWriters.launch sh ts w = some a) : a.From w := by
  cases w <;>
  · cases h
    rfl

theorem clientWriters_from {ok : Pool.State DcrFiles DcrThread → Pool.Action ClientWrite DcrChoice → Prop}
    (h : clientWriters.system.ReachableWhile ok s) : ∀ t ∈ s.threads, ∃ w, t.From w := by
  refine Pool.forall_threads (L := fun _ t => ∃ w, DcrThread.From w t) ?_ ?_ ?_ h
  · intro s w t _ ht
    exact ⟨w, from_launched ht⟩
  · intro sh ts t c sh' t' new ⟨w, hw⟩ hst
    refine ⟨⟨w, hw.step hst⟩, fun u hu => ?_⟩
    rw [dcrStep_new hst] at hu
    cases hu
  · intro sh ts t c sh' t' new u _ hu _
    exact hu

/-! ### What a writer relies on -/

theorem load_resourcePair (h : sh.load = some existing) : resourcePair existing = sh.resourcePair := by
  unfold DcrFiles.load at h
  unfold DcrFiles.resourcePair
  split at h
  · next hfile =>
    cases h
    rw [hfile]
    rfl
  · next hfile =>
    cases h
    rw [hfile]
    rfl
  · cases h

/-- The record that is about to be saved is the one that was built, or has the pair of the file. -/
def DcrWrite.Leaves (sh : DcrFiles) (creds : DcrCredentials) : DcrWrite → Prop
  | .save built => creds = built
  | op => op.SparesPair → creds.resourcePair = sh.resourcePair

/-- What is about to be removed has no pair. -/
def DcrWrite.Removes (sh : DcrFiles) : DcrWrite → Prop
  | .save _ => False
  | op => op.SparesPair → sh.resourcePair = (none, none)

def DcrThread.PairInv (sh : DcrFiles) : DcrThread → Prop
  | .writer op (.saving creds _) => op.Leaves sh creds
  | .writer op .deleting => op.Removes sh
  | _ => True

theorem DcrWrite.locked_pairInv : DcrThread.PairInv sh (.writer op op.locked) := by
  cases op with
  | save creds => rfl
  | delete => exact fun h => absurd h id
  | update f => trivial
  | clear expected => trivial

/-- The point of a writer after its read. -/
theorem DcrWrite.loaded_pairInv (hload : sh.load = some existing) :
    DcrThread.PairInv sh (.writer op (op.loaded now existing)) := by
  have hpair := load_resourcePair hload
  cases op with
  | save creds => exact DcrWrite.locked_pairInv
  | delete => exact DcrWrite.locked_pairInv
  | update f =>
    show DcrThread.PairInv sh (.writer (.update f) (updateDcr f now existing))
    unfold updateDcr
    split
    · trivial
    · next creds hok =>
      split
      · trivial
      · exact fun hkeeps => (hkeeps now existing _ hok).trans hpair
    · next hok => exact fun hkeeps => hpair.symm.trans (hkeeps now existing _ hok).symm
  | clear expected =>
    show DcrThread.PairInv sh (.writer (.clear expected) (clearDcrRequestingClient expected existing))
    unfold clearDcrRequestingClient
    split
    · trivial
    · split
      · trivial
      · split
        · trivial
        · exact fun _ => hpair

theorem resourcePair_congr (h : sh'.file = sh.file) : sh'.resourcePair = sh.resourcePair := by
  unfold DcrFiles.resourcePair
  rw [h]

theorem DcrWrite.Leaves.congr (h : op.Leaves sh creds) (hfile : sh'.file = sh.file) :
    op.Leaves sh' creds := by
  cases op with
  | save built => exact h
  | _ => exact fun hspares => (h hspares).trans (resourcePair_congr hfile).symm

theorem DcrWrite.Removes.congr (h : op.Removes sh) (hfile : sh'.file = sh.file) : op.Removes sh' := by
  cases op with
  | save built => exact h
  | _ => exact fun hspares => (resourcePair_congr hfile).trans (h hspares)

/-- What a writer relies on survives the steps of the others. -/
theorem DcrThread.PairInv.stable (h : t.PairInv sh) (hfile : t.holdsLock = true → sh'.file = sh.file) :
    t.PairInv sh' := by
  cases t with
  | tokenPost posted ppc => trivial
  | writer op pc =>
    cases pc with
    | saving creds spc => exact DcrWrite.Leaves.congr h (hfile rfl)
    | deleting => exact DcrWrite.Removes.congr h (hfile rfl)
    | _ => trivial

theorem dcrStep_pairInv (ht : t.PairInv sh) (h : dcrStep sh ts t c = some (sh', t', new)) :
    t'.PairInv sh' := by
  cases t with
  | tokenPost posted ppc =>
    obtain ⟨⟨sh₁, t₁⟩, hst, heq⟩ := Option.map_eq_some_iff.1 h
    cases heq
    obtain ⟨-, rfl⟩ | ⟨-, -, rfl⟩ | ⟨-, rfl⟩ := tokenPostStep_cases hst
    · trivial
    · trivial
    · trivial
  | writer op pc =>
    obtain ⟨⟨sh₁, pc₁⟩, hst, heq⟩ := Option.map_eq_some_iff.1 h
    cases heq
    obtain ⟨rfl, -, -, rfl⟩ | ⟨now, existing, rfl, -, hload, rfl⟩ | ⟨creds, spc, rfl, hsave⟩ |
      ⟨-, -, rfl⟩ | ⟨-, rfl⟩ := writerStep_cases hst
    · exact DcrWrite.locked_pairInv
    · exact DcrWrite.loaded_pairInv hload
    · obtain ⟨-, ⟨-, rfl⟩ | ⟨hfile, -, rfl⟩ | ⟨rfl, -, rfl⟩ | ⟨-, -, rfl⟩⟩ := saveDcrLocked_cases hsave
      · trivial
      · exact DcrWrite.Leaves.congr ht hfile
      · exact ht
      · trivial
    · trivial
    · trivial

theorem dcrThread_pairInv (h : clientRecords.system.Reachable s) :
    ∀ t ∈ s.threads, t.PairInv s.shared := by
  refine Pool.forall_threads_of (L := fun sh t => DcrThread.PairInv sh t)
    (fun s hs => dcrWriteLock_exclusive hs) ?_ ?_ ?_ h
  · intro s a t _ ht
    cases a <;>
    · cases ht
      trivial
  · intro s i c t sh' t' new _ _ _ ht hst
    refine ⟨dcrStep_pairInv ht hst, fun u hu => ?_⟩
    rw [dcrStep_new hst] at hu
    cases hu
  · intro s i c t sh' t' new j u hone _ hi hj hne _ hu hst
    refine hu.stable fun hlock => ((dcrStep_frame hst).files ?_).1
    have hidle := Pool.not_holds_of_ne (H := fun _ t => DcrThread.holdsLock t = true) hone hj hlock hi
      hne.symm
    simpa using hidle

/-! ### The pair -/

/-- The steps of a writer that change the file: a rename and a removal. -/
theorem writerStep_file {pc pc' : DcrWriterPc} (h : writerStep sh ts op pc c = some (sh', pc')) :
    sh'.file = sh.file ∨
      (∃ creds now, pc = .saving creds .publishing ∧ c = .go now ∧ sh'.file = sh.tmp) ∨
      pc = .deleting ∧ sh'.file = none := by
  unfold writerStep at h
  split at h
  · split at h
    · cases h
      exact .inl rfl
    · cases h
  · split at h <;>
    · cases h
      exact .inl rfl
  · next creds spc =>
    unfold saveDcrLocked at h
    split at h
    · cases h
      exact .inl rfl
    · cases h
      exact .inl rfl
    · split at h <;>
      · cases h
        exact .inl rfl
    · next now =>
      split at h
      · cases h
        exact .inr (.inl ⟨creds, now, rfl, rfl, rfl⟩)
      · cases h
        exact .inl rfl
    · cases h
      exact .inl rfl
    · cases h
      exact .inl rfl
    · cases h
      exact .inl rfl
    · cases h
  · cases h
    exact .inr (.inr ⟨rfl, rfl⟩)
  · cases h
    exact .inl rfl
  · cases h
    exact .inl rfl
  · cases h

/-- What is built from scratch has no pair, in the file either. -/
theorem rename_resourcePair
    (hfrom : DcrThread.From w (.writer (.save built) (.saving creds .publishing)))
    (hinv : DcrThread.Inv sh (.writer (.save built) (.saving creds .publishing)))
    (hpair : DcrThread.PairInv sh (.writer (.save built) (.saving creds .publishing)))
    (h : dcrStep sh ts (.writer (.save built) (.saving creds .publishing)) (.go now) =
      some (sh', t', new)) : sh'.resourcePair = (none, none) := by
  have htmp : sh.tmp = some (.record creds) := hinv.2.2 (fun hne => by cases hne)
  obtain rfl : creds = built := hpair
  have hspares : creds.resourcePair = (none, none) := by
    cases w with
    | setEndpointCredentials body => cases hfrom
    | reregistration expected resp issuer => cases hfrom
    | setupCommit session => cases hfrom
    | callbackCommit => cases hfrom
    | jit resp bindIssuer isDcr => cases hfrom
    | delete => cases hfrom
    | tokenPost posted => cases hfrom
    | _ =>
      cases hfrom
      rfl
  obtain ⟨⟨sh₁, pc₁⟩, hst, heq⟩ := Option.map_eq_some_iff.1 h
  cases heq
  have hrename : (if sh.tmp.isSome then some ({ sh with file := sh.tmp, tmp := none }, DcrWriterPc.done)
      else some (sh, .failed)) = some (sh₁, pc₁) := hst
  rw [htmp] at hrename
  cases hrename
  exact hspares

/-- The pair after a step of a writer that is no rename of what was built from scratch. -/
theorem dcrStep_resourcePair (hfrom : t.From w) (hnames : w.namesResource = false) (hinv : t.Inv sh)
    (hpair : t.PairInv sh) (h : dcrStep sh ts t c = some (sh', t', new)) :
    sh'.resourcePair = sh.resourcePair ∨
      ∃ built creds now, t = .writer (.save built) (.saving creds .publishing) ∧ c = .go now := by
  cases t with
  | tokenPost posted ppc => exact .inl (resourcePair_congr ((dcrStep_frame h).files rfl).1)
  | writer op pc =>
    obtain ⟨⟨sh₁, pc₁⟩, hst, heq⟩ := Option.map_eq_some_iff.1 h
    cases heq
    have hspares : op.SparesPair := hfrom ▸ ClientWrite.sparesPair hnames
    obtain hfile | ⟨creds, now, rfl, rfl, hfile⟩ | ⟨rfl, hfile⟩ := writerStep_file hst
    · exact .inl (resourcePair_congr hfile)
    · -- The rename: the record in the temporary file is the writer's own.
      have htmp : sh.tmp = some (.record creds) := hinv.2.2 (fun hne => by cases hne)
      have hrenamed : sh₁.resourcePair = creds.resourcePair := by
        unfold DcrFiles.resourcePair
        rw [hfile, htmp]
      cases op with
      | save built => exact .inr ⟨built, creds, now, rfl, rfl⟩
      | update f => exact .inl (hrenamed.trans (hpair hspares))
      | clear expected => exact .inl (hrenamed.trans (hpair hspares))
      | delete => exact absurd hspares id
    · have hnone : sh.resourcePair = (none, none) := by
        cases op with
        | save built => exact absurd hpair id
        | update f => exact hpair hspares
        | clear expected => exact hpair hspares
        | delete => exact absurd hspares id
      left
      rw [hnone]
      unfold DcrFiles.resourcePair
      rw [hfile]

/-- What is built from scratch is not about the pair. -/
theorem namesResource_of_save (h : .save built = w.write) : w.namesResource = false := by
  cases w with
  | setEndpointCredentials body => cases h
  | delete => cases h
  | _ => rfl

theorem sparesPair_iff {i : Nat} (hi : s.threads[i]? = some t) : sparesPair s (.run i c) = true ↔
    ∀ built creds now, t = .writer (.save built) (.saving creds .publishing) → c = .go now →
      s.shared.resourcePair = (none, none) := by
  unfold sparesPair
  constructor
  · rintro h built creds now rfl rfl
    dsimp only at h
    rw [hi] at h
    exact of_decide_eq_true h
  · intro h
    split
    · next j now heq =>
      cases heq
      rw [hi]
      split
      · next built creds heq =>
        cases heq
        exact decide_eq_true (h built creds now rfl rfl)
      · rfl
    · rfl

/-- **The resource pair survives**, in every run, exactly the steps that do not rename a record built from
scratch over a record with a pair; only a request that names the pair and a deletion may do otherwise. -/
theorem resource_pair_survives {i : Nat} (h : clientWriters.system.Reachable s)
    (hi : s.threads[i]? = some t) (hst : clientWriters.system.step s (.run i c) = some s') :
    (s'.shared.resourcePair = s.shared.resourcePair ∨ ∃ w, t.From w ∧ w.namesResource = true) ↔
      sparesPair s (.run i c) = true := by
  obtain ⟨u, sh', t', new, hu, hstep, rfl⟩ := Pool.next_run hst
  obtain rfl : t = u := Option.some.inj (hi.symm.trans hu)
  have hmem := List.mem_of_getElem? hi
  have hrun := Pool.reachable_of_relabel h
  have hinv := dcrThread_inv hrun t hmem
  have hpair := dcrThread_pairInv hrun t hmem
  obtain ⟨w, hfrom⟩ := clientWriters_from h t hmem
  rw [sparesPair_iff hi]
  constructor
  · rintro hkept built creds now rfl rfl
    obtain hkept | ⟨w', hfrom', hnames⟩ := hkept
    · exact hkept.symm.trans (rename_resourcePair hfrom hinv hpair hstep)
    · rw [namesResource_of_save hfrom'] at hnames
      cases hnames
  · intro hnone
    by_cases hnames : w.namesResource = true
    · exact .inr ⟨w, hfrom, hnames⟩
    · obtain hkept | ⟨built, creds, now, rfl, rfl⟩ :=
        dcrStep_resourcePair hfrom (Bool.not_eq_true _ ▸ hnames) hinv hpair hstep
      · exact .inl hkept
      · have hgone := rename_resourcePair hfrom hinv hpair hstep
        exact .inl (hgone.trans (hnone built creds now rfl rfl).symm)

/-- A dynamically registered client with a resource pair is stored. -/
def pairStored : Pool.State DcrFiles DcrThread := ⟨⟨some (.record registeredClient), none, []⟩, []⟩

theorem pairStored_init : clientWriters.system.init pairStored := ⟨trivial, rfl⟩

def healing : List (Pool.Action ClientWrite DcrChoice) :=
  [.launch (.tokenPost "old"), .run 0 (.respond (some (.obj [("error", .str "invalid_client")])))] ++
  List.replicate 5 (.run 0 (.go 8))

theorem healing_run : ∃ s, clientWriters.system.run pairStored healing = some s ∧
    s.threads[0]? = some (.writer (.clear "old") (.saving registeredClient.cleared .publishing)) ∧
    ∃ s', clientWriters.system.step s (.run 0 (.go 8)) = some s' :=
  ⟨_, rfl, rfl, _, rfl⟩

theorem resource_pair_survives_healing : ∃ s s' t,
    clientWriters.system.run pairStored healing = some s ∧ s.threads[0]? = some t ∧
      clientWriters.system.step s (.run 0 (.go 8)) = some s' ∧
      ((s'.shared.resourcePair = s.shared.resourcePair ∨ ∃ w, t.From w ∧ w.namesResource = true) ↔
        sparesPair s (.run 0 (.go 8)) = true) := by
  obtain ⟨s, hrun, hi, s', hst⟩ := healing_run
  have hreach := (System.Reachable.init pairStored_init).run hrun
  exact ⟨s, s', _, hrun, hi, hst, resource_pair_survives hreach hi hst⟩

def suppliedClient : List (Pool.Action ClientWrite DcrChoice) :=
  .launch (.oauthCredentials "manual" none 9) :: List.replicate 3 (.run 0 (.go 9))

theorem suppliedClient_run : ∃ s, clientWriters.system.run pairStored suppliedClient = some s ∧
    s.threads[0]? = some (.writer (.save (manualCredentials "manual" none 9))
      (.saving (manualCredentials "manual" none 9) .publishing)) ∧
    s.shared.resourcePair = (some "resource", some "key") ∧
    ∃ s', clientWriters.system.step s (.run 0 (.go 9)) = some s' ∧
      s'.shared.resourcePair = (none, none) :=
  ⟨_, rfl, rfl, rfl, _, rfl, rfl⟩

/-- Credentials that are supplied for the requesting client wipe the resource pair. -/
theorem supplied_client_drops_pair : ∃ s s' t, clientWriters.system.Reachable s ∧
    s.threads[0]? = some t ∧ clientWriters.system.step s (.run 0 (.go 9)) = some s' ∧
    ¬ (s'.shared.resourcePair = s.shared.resourcePair ∨ ∃ w, t.From w ∧ w.namesResource = true) := by
  obtain ⟨s, hrun, hi, hpair, s', hst, hgone⟩ := suppliedClient_run
  refine ⟨s, s', _, (System.Reachable.init pairStored_init).run hrun, hi, hst, ?_⟩
  rintro (hkept | ⟨w, hfrom, hnames⟩)
  · rw [hpair, hgone] at hkept
    cases hkept
  · rw [namesResource_of_save hfrom] at hnames
    cases hnames

end EndaraRelay
