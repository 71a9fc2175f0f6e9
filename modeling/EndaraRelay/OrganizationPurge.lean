import EndaraRelay.ConfigRequests
import EndaraRelay.Lib.Pool
import EndaraRelay.Lib.Table

/-!
# Forgetting the credentials of an organization

An organization has a token set of its identity provider and perhaps a client secret, both stored under its
name. A request that changes who the organization is, or deletes it, should leave neither behind, and no
sign-in that was started before it should bring one back.

**The model.** Requests on organizations, sign-ins and their callbacks interleave at every `await`. Every
request reads the list of organizations first and writes the whole list later. What is stored and what is
under way carries how many requests had changed or deleted the organization when its record was read; the
code does not see that number.

**The slips.** `delete_organization` leaves the client secret. Neither request invalidates the flows that are
pending or takes the commit lock, which a reset of an endpoint does. And a purge that fails is only logged.

**Theorem (`credentials_forgotten`).** In every run whose steps find `nothingUnderWay` nothing is stored under a
name that comes from before a request on it that has been answered.
-/

namespace EndaraRelay

open Verif

/-! ## What is stored -/

/-- The token set of a sign-in, and how many requests had changed or deleted the organization by then. -/
structure OrgTokens where
  issuer : String
  revision : Nat
deriving DecidableEq

/-- The `{org}.dcr.json` of an organization. -/
structure OrgSecret where
  clientId : String
  secret : String
  issuer : String
  revision : Nat
deriving DecidableEq

/-- A pending sign-in: for which endpoint or organization, at which issuer, and the key its tokens are to be
stored under. -/
structure OrgFlow where
  endpointName : String
  issuer : String
  key : String
  revision : Nat
deriving DecidableEq

structure OrgStore where
  organizations : List ConfigOrganization
  idp : Table String OrgTokens
  dcr : Table String OrgSecret
  pending : List OrgFlow
  /-- How many requests have changed or deleted the organization of a name. -/
  revisions : String → Nat
  /-- The last of them that has been answered. -/
  answered : String → Nat

/-- What is stored under a name comes from after every request on it that has been answered. -/
structure OrgStore.Forgotten (sh : OrgStore) : Prop where
  idp : ∀ name tokens, sh.idp.lookup name = some tokens → sh.answered name ≤ tokens.revision
  dcr : ∀ name secret, sh.dcr.lookup name = some secret → sh.answered name ≤ secret.revision

/-! ## Requests -/

/-- The body of `POST /api/organizations`. -/
structure OrganizationCreation extends CreateOrganizationRequest where
  clientId : Option String := none
  clientSecret : Option String := none

/-- The body of `PUT /api/organizations/{org}`. -/
structure OrganizationUpdate extends UpdateOrganizationRequest where
  clientId : Option String := none
  clientSecret : Option String := none

/-- What a step is answered. -/
structure OrgAnswer where
  /-- The request, the write or the deletion succeeds. -/
  succeeds : Bool := true
  /-- The client that is registered where none is given, and whether it is to be persisted. -/
  registered : String := "client"
  persisted : Bool := false

/-- `persisted_client_id`: the client that is given, or the one that is registered. -/
def OrgAnswer.persistedClientId (env : OrgAnswer) (explicit : Option String) : Option String :=
  explicit.or (if env.persisted then some env.registered else none)

/-- The client an update gives: an empty one clears the one there is. -/
def OrganizationUpdate.explicitClientId (body : OrganizationUpdate) (current : ConfigOrganization) :
    Option String :=
  match body.clientId with
  | some id => trimmedNonEmpty (some id)
  | none => trimmedNonEmpty current.clientId

/-- The record after an update. -/
def OrganizationUpdate.updated (body : OrganizationUpdate) (current prepared : ConfigOrganization)
    (env : OrgAnswer) : ConfigOrganization :=
  { prepared with clientId := env.persistedClientId (body.explicitClientId current) }

def identityChanged (current new : ConfigOrganization) : Bool :=
  new.name ≠ current.name || new.idp ≠ current.idp || new.clientId ≠ current.clientId

/-- What a request does once the organizations are written. -/
inductive OrgTask where
  | deleteIdp (name : String)
  | deleteDcr (name : String)
  /-- An empty secret in the body. -/
  | clearSecret (name : String)
  | saveSecret (name : String) (secret : OrgSecret)
  | startFlow (flow : OrgFlow)
deriving DecidableEq

/-- The tasks of an update that makes `new` of `current`, when `revision` is that of the new name. -/
def updateTasks (current new : ConfigOrganization) (clientSecret : Option String) (clientId : String)
    (revision : Nat) : List OrgTask :=
  (if identityChanged current new then
    .deleteIdp current.name ::
      if new.name ≠ current.name then [.deleteIdp new.name, .deleteDcr current.name] else [.deleteDcr new.name]
  else []) ++
  (match clientSecret.map trim with
  | none => []
  | some "" => [.clearSecret new.name]
  | some secret => [.saveSecret new.name ⟨clientId, secret, new.idp, revision⟩]) ++
  (if identityChanged current new then [.startFlow ⟨new.name, new.idp, new.name, revision⟩] else [])

/-- The tasks of a creation. -/
def createTasks (org : ConfigOrganization) (clientSecret : Option String) (clientId : String)
    (revision : Nat) : List OrgTask :=
  (match trimmedNonEmpty clientSecret with
  | none => []
  | some secret => [.saveSecret org.name ⟨clientId, secret, org.idp, revision⟩]) ++
  [.startFlow ⟨org.name, org.idp, org.name, revision⟩]

def OrgTask.savesUnder (name : String) : OrgTask → Bool
  | .saveSecret n _ => n = name
  | _ => false

/-! ## The operations -/

inductive OrgOp where
  | create (body : OrganizationCreation)
  | update (name : String) (body : OrganizationUpdate)
  | delete (name : String)
  | reauthenticate (name : String)
  /-- The adapter of an endpoint composes a sign-in. -/
  | signIn (endpoint issuer key : String)
  /-- The provider redirects to the callback of a pending flow. -/
  | callback (n : Nat)

/-- A request that is to leave nothing behind: on which name, and the how many-th it is. -/
structure Forgetting where
  name : String
  number : Nat

inductive OrgPc where
  | create (body : OrganizationCreation)
  /-- The name is free; the issuer is discovered next. -/
  | creating (org : ConfigOrganization) (body : OrganizationCreation)
  /-- The organizations are read; they are written next. -/
  | createWriting (organizations : List ConfigOrganization) (org : ConfigOrganization)
      (body : OrganizationCreation) (clientId : String)
  | update (name : String) (body : OrganizationUpdate)
  /-- The record and the organizations are read; after the discovery they are written. -/
  | updating (current : ConfigOrganization) (organizations : List ConfigOrganization)
      (prepared : ConfigOrganization) (body : OrganizationUpdate)
  | delete (name : String)
  | deleteWriting (name : String) (organizations : List ConfigOrganization)
  | reauthenticate (name : String)
  | signIn (endpoint issuer key : String)
  /-- The record is read; the flow is started next. -/
  | composing (flow : OrgFlow)
  | working (about : Option Forgetting) (todo : List OrgTask)
  | callback (n : Nat)
  /-- The flow is consumed; its code is exchanged next. -/
  | exchanging (flow : OrgFlow)
  /-- Waits for the commit lock. -/
  | committing (flow : OrgFlow) (tokens : OrgTokens)
  | capturing (flow : OrgFlow) (tokens : OrgTokens)
  | done

def OrgOp.pc : OrgOp → OrgPc
  | .create body => .create body
  | .update name body => .update name body
  | .delete name => .delete name
  | .reauthenticate name => .reauthenticate name
  | .signIn endpoint issuer key => .signIn endpoint issuer key
  | .callback n => .callback n

namespace OrgStore

variable (sh : OrgStore)

/-- A request on the organization has changed or deleted it. -/
def revise (name : String) : OrgStore :=
  { sh with revisions := Function.update sh.revisions name (sh.revisions name + 1) }

/-- `save_idp`. -/
def saveIdp (name : String) (tokens : OrgTokens) : OrgStore := { sh with idp := sh.idp.insert name tokens }

def deleteIdp (name : String) : OrgStore := { sh with idp := sh.idp.erase name }

def saveDcr (name : String) (secret : OrgSecret) : OrgStore := { sh with dcr := sh.dcr.insert name secret }

def deleteDcr (name : String) : OrgStore := { sh with dcr := sh.dcr.erase name }

/-- The organizations are written. -/
def write (organizations : List ConfigOrganization) : OrgStore := { sh with organizations := organizations }

def answer : Option Forgetting → OrgStore
  | none => sh
  | some f => { sh with answered := Function.update sh.answered f.name (max (sh.answered f.name) f.number) }

end OrgStore

namespace OrgPc

/-- Has the commit lock of the endpoint or organization. -/
def commits (endpointName : String) : OrgPc → Bool
  | .capturing flow _ => flow.endpointName = endpointName
  | _ => false

/-- One task of a request. A purge that fails is logged, a secret that cannot be stored ends the request. -/
def perform (sh : OrgStore) (about : Option Forgetting) (todo : List OrgTask) (succeeds : Bool) :
    OrgTask → OrgStore × OrgPc
  | .deleteIdp name => (if succeeds then sh.deleteIdp name else sh, .working about todo)
  | .deleteDcr name => (if succeeds then sh.deleteDcr name else sh, .working about todo)
  | .clearSecret name =>
    if succeeds then (sh.deleteDcr name, .working about todo) else (sh, .working about [])
  | .saveSecret name secret =>
    if succeeds then (sh.saveDcr name secret, .working about todo) else (sh, .working about [])
  | .startFlow flow => ({ sh with pending := sh.pending ++ [flow] }, .working about todo)

/-- The record of an organization is replaced in the list. -/
def replaceOrg (current new : ConfigOrganization) : List ConfigOrganization → List ConfigOrganization
  | [] => []
  | o :: rest => if o.name = current.name then new :: rest else o :: replaceOrg current new rest

/-- What comes next of a request, a sign-in or a callback; `none` while it waits for the commit lock. -/
def step (sh : OrgStore) (ts : List OrgPc) (env : OrgAnswer) : OrgPc → Option (OrgStore × OrgPc)
  | .create body =>
    match prepareOrganization body.toCreateOrganizationRequest sh.organizations with
    | .error _ => some (sh, .done)
    | .ok org => some (sh, .creating org body)
  | .creating org body =>
    if env.succeeds then
      some (sh, .createWriting (sh.organizations ++
        [{ org with clientId := env.persistedClientId (trimmedNonEmpty body.clientId) }]) org body
        ((trimmedNonEmpty body.clientId).getD env.registered))
    else some (sh, .done)
  | .createWriting organizations org body clientId =>
    if env.succeeds then
      some (sh.write organizations,
        .working none (createTasks org body.clientSecret clientId (sh.revisions org.name)))
    else some (sh, .done)
  | .update name body =>
    match sh.organizations.find? (fun o => o.name = name),
      prepareOrganizationUpdate name body.toUpdateOrganizationRequest sh.organizations with
    | some current, .ok prepared => some (sh, .updating current sh.organizations prepared body)
    | _, _ => some (sh, .done)
  | .updating current organizations prepared body =>
    if env.succeeds then
      if identityChanged current (body.updated current prepared env) then
        some ((sh.write (replaceOrg current (body.updated current prepared env) organizations)).revise current.name,
          .working (some ⟨current.name, sh.revisions current.name + 1⟩)
            (updateTasks current (body.updated current prepared env) body.clientSecret
              ((body.explicitClientId current).getD env.registered)
              ((sh.revise current.name).revisions (body.updated current prepared env).name)))
      else
        some (sh.write (replaceOrg current (body.updated current prepared env) organizations),
          .working none (updateTasks current (body.updated current prepared env) body.clientSecret
            ((body.explicitClientId current).getD env.registered)
            (sh.revisions (body.updated current prepared env).name)))
    else some (sh, .done)
  | .delete name =>
    if sh.organizations.any fun o => o.name = name then
      some (sh, .deleteWriting name (sh.organizations.filter fun o => o.name ≠ name))
    else some (sh, .done)
  | .deleteWriting name organizations =>
    if env.succeeds then
      some ((sh.write organizations).revise name,
        .working (some ⟨name, sh.revisions name + 1⟩) [.deleteIdp name])
    else some (sh, .done)
  | .reauthenticate name =>
    match sh.organizations.find? fun o => o.name = name with
    | none => some (sh, .done)
    | some org => some (sh, .composing ⟨name, org.idp, name, sh.revisions name⟩)
  | .signIn endpoint issuer key => some (sh, .composing ⟨endpoint, issuer, key, sh.revisions key⟩)
  | .composing flow =>
    if env.succeeds then some ({ sh with pending := sh.pending ++ [flow] }, .done) else some (sh, .done)
  | .working about [] => some (sh.answer about, .done)
  | .working about (task :: todo) => some (perform sh about todo env.succeeds task)
  | .callback n =>
    match sh.pending[n]? with
    | none => some (sh, .done)
    | some flow =>
      some ({ sh with pending := sh.pending.eraseIdx n }, if env.succeeds then .exchanging flow else .done)
  | .exchanging flow =>
    some (sh, if env.succeeds then .committing flow ⟨flow.issuer, flow.revision⟩ else .done)
  | .committing flow tokens =>
    if ts.any (commits flow.endpointName) then none
    else some (sh, if env.succeeds then .capturing flow tokens else .done)
  | .capturing flow tokens =>
    some (if env.succeeds then sh.saveIdp flow.key tokens else sh, .done)
  | .done => none

/-- Is about to store something under the name: the tokens of an exchange, or a secret. -/
def storesNext (name : String) : OrgPc → Bool
  | .committing flow _ | .capturing flow _ => flow.key = name
  | .working _ todo => todo.any (OrgTask.savesUnder name)
  | _ => false

end OrgPc

/-- Requests, sign-ins and callbacks over one store. At the start no request has changed anything. -/
def organizationPurge : Pool OrgStore OrgPc OrgOp OrgAnswer where
  init sh := ∀ name, sh.answered name = 0
  launch _ _ op := some op.pc
  step sh ts pc env := (pc.step sh ts env).map fun r => (r.1, r.2, [])

abbrev OrgState := Pool.State OrgStore OrgPc

/-- A request that changes or deletes an organization comes while nothing is about to be stored under its
name; one that deletes it finds no secret; its purges succeed; and the code of a sign-in is exchanged only
while the organization is as it was when the sign-in was started. -/
def nothingUnderWay (s : OrgState) : Pool.Action OrgOp OrgAnswer → Bool
  | .launch _ => true
  | .run i env =>
    match s.threads[i]? with
    | some (.updating current _ prepared body) =>
      !env.succeeds || !identityChanged current (body.updated current prepared env) ||
        s.threads.all fun u => !u.storesNext current.name
    | some (.deleteWriting name _) =>
      !env.succeeds ||
        ((s.shared.dcr.lookup name).isNone && s.threads.all fun u => !u.storesNext name)
    | some (.working (some f) (.deleteIdp name :: _)) =>
      env.succeeds || name ≠ f.name || (s.shared.idp.lookup name).isNone
    | some (.working (some f) (.deleteDcr name :: _)) =>
      env.succeeds || name ≠ f.name || (s.shared.dcr.lookup name).isNone
    | some (.exchanging flow) => !env.succeeds || flow.revision = s.shared.revisions flow.key
    | _ => true

/-! ## What the threads have -/

/-- A purge of the request is still to come, or what is stored comes from after the request. -/
structure Clears (sh : OrgStore) (f : Forgetting) (todo : List OrgTask) : Prop where
  number_le : f.number ≤ sh.revisions f.name
  idp : .deleteIdp f.name ∈ todo ∨ ∀ tokens, sh.idp.lookup f.name = some tokens → f.number ≤ tokens.revision
  dcr : .deleteDcr f.name ∈ todo ∨ ∀ secret, sh.dcr.lookup f.name = some secret → f.number ≤ secret.revision

def OrgTask.isPurge : OrgTask → Bool
  | .deleteIdp _ | .deleteDcr _ => true
  | _ => false

structure FitTasks (sh : OrgStore) (about : Option Forgetting) (todo : List OrgTask) : Prop where
  clears : ∀ f ∈ about, Clears sh f todo
  secrets : ∀ name secret, .saveSecret name secret ∈ todo → secret.revision = sh.revisions name
  purgesFirst : todo.Pairwise fun task later => task.isPurge = false → later.isPurge = false

/-- What a thread is about to store is of the present revision, and a request that has begun to purge goes on. -/
def OrgPc.Fits (sh : OrgStore) : OrgPc → Prop
  | .committing flow tokens | .capturing flow tokens => tokens.revision = sh.revisions flow.key
  | .working about todo => FitTasks sh about todo
  | _ => True

/-- What a step does to what is stored and to the revisions. -/
inductive OrgEffect (sh : OrgStore) (ts : List OrgPc) (sh' : OrgStore) : Prop
  | none : sh'.idp = sh.idp → sh'.dcr = sh.dcr → sh'.revisions = sh.revisions → OrgEffect sh ts sh'
  | saveIdp (name tokens) : tokens.revision = sh.revisions name → sh' = sh.saveIdp name tokens →
      OrgEffect sh ts sh'
  | saveDcr (name secret) : secret.revision = sh.revisions name → sh' = sh.saveDcr name secret →
      OrgEffect sh ts sh'
  | deleteIdp (name) : sh' = sh.deleteIdp name → OrgEffect sh ts sh'
  | deleteDcr (name) : sh' = sh.deleteDcr name → OrgEffect sh ts sh'
  | revise (name organizations) : (∀ u ∈ ts, u.storesNext name = false) →
      sh' = (sh.write organizations).revise name → OrgEffect sh ts sh'

variable {clientSecret : Option String} {clientId : String} {about : Option Forgetting}

section Effects

variable {sh sh' : OrgStore} {ts : List OrgPc} {pc pc' u : OrgPc} {env : OrgAnswer} {name m : String}
  {f : Forgetting} {todo : List OrgTask}

theorem revisions_revise_ne (hm : m ≠ name) : (sh.revise name).revisions m = sh.revisions m :=
  Function.update_of_ne hm _ _

theorem revisions_revise_self : (sh.revise name).revisions name = sh.revisions name + 1 :=
  Function.update_self _ _ _

theorem revisions_le_revise : sh.revisions m ≤ (sh.revise name).revisions m := by
  by_cases hm : m = name
  · subst hm
    rw [revisions_revise_self]
    exact Nat.le_succ _
  · rw [revisions_revise_ne hm]

/-- A request goes on while others store what is of the present revision. -/
theorem clears_effect (h : Clears sh f todo) (he : OrgEffect sh ts sh') : Clears sh' f todo := by
  cases he with
  | none hidp hdcr hrevisions =>
    exact ⟨hrevisions ▸ h.number_le, hidp ▸ h.idp, hdcr ▸ h.dcr⟩
  | saveIdp name tokens htokens heq =>
    subst heq
    refine ⟨h.number_le, h.idp.imp_right fun hall t ht => ?_, h.dcr⟩
    rcases AList.lookup_insert_cases ht with ⟨hname, rfl⟩ | ⟨-, ht⟩
    · rw [htokens, ← hname]
      exact h.number_le
    · exact hall t ht
  | saveDcr name secret hsecret heq =>
    subst heq
    refine ⟨h.number_le, h.idp, h.dcr.imp_right fun hall t ht => ?_⟩
    rcases AList.lookup_insert_cases ht with ⟨hname, rfl⟩ | ⟨-, ht⟩
    · rw [hsecret, ← hname]
      exact h.number_le
    · exact hall t ht
  | deleteIdp name heq =>
    subst heq
    exact ⟨h.number_le, h.idp.imp_right fun hall t ht => hall t (AList.lookup_of_erase ht).2, h.dcr⟩
  | deleteDcr name heq =>
    subst heq
    exact ⟨h.number_le, h.idp, h.dcr.imp_right fun hall t ht => hall t (AList.lookup_of_erase ht).2⟩
  | revise name organizations _ heq =>
    subst heq
    exact ⟨Nat.le_trans h.number_le revisions_le_revise, h.idp, h.dcr⟩

/-- A secret that is still to be saved is of the present revision, unless a request has come. -/
theorem revision_effect (he : OrgEffect sh ts sh') (hu : u ∈ ts) (hstores : u.storesNext m = true) :
    sh'.revisions m = sh.revisions m := by
  cases he with
  | none _ _ hrevisions => rw [hrevisions]
  | saveIdp name tokens _ heq | saveDcr name secret _ heq | deleteIdp name heq | deleteDcr name heq => rw [heq]; rfl
  | revise name organizations hidle heq =>
    rw [heq]
    refine revisions_revise_ne fun hm => ?_
    rw [hm, hidle u hu] at hstores
    cases hstores

theorem savesUnder_saveSecret (secret : OrgSecret) : OrgTask.savesUnder name (.saveSecret name secret) = true :=
  decide_eq_true rfl

/-- What a thread has stays fit under what others do. -/
theorem fits_effect (he : OrgEffect sh ts sh') (hu : u ∈ ts) (h : u.Fits sh) : u.Fits sh' := by
  cases u with
  | committing flow tokens | capturing flow tokens =>
    exact Eq.trans h (revision_effect he hu (decide_eq_true rfl)).symm
  | working about todo =>
    refine ⟨fun f hf => clears_effect (FitTasks.clears h f hf) he, fun name secret hmem => ?_, h.purgesFirst⟩
    refine (h.secrets name secret hmem).trans (revision_effect he hu ?_).symm
    exact List.any_eq_true.2 ⟨_, hmem, savesUnder_saveSecret secret⟩
  | _ => trivial

/-! ## What a step does -/

theorem purgesFirst_append (purges rest : List OrgTask) (hpurges : ∀ task ∈ purges, task.isPurge = true)
    (hrest : ∀ task ∈ rest, task.isPurge = false) :
    (purges ++ rest).Pairwise fun task later => task.isPurge = false → later.isPurge = false := by
  refine List.pairwise_append.2 ⟨?_, ?_, fun task _ later hlater _ => hrest later hlater⟩
  · refine List.pairwise_of_forall_mem_list fun task htask later _ hno => ?_
    rw [hpurges task htask] at hno
    cases hno
  · exact List.pairwise_of_forall_mem_list fun task _ later hlater _ => hrest later hlater

/-- The tasks of an update purge what there is of the organization, and then save what is new. -/
theorem fit_updateTasks (sh : OrgStore) {current new : ConfigOrganization}
    (habout : ∀ f ∈ about, identityChanged current new = true ∧ f.name = current.name ∧
      f.number ≤ sh.revisions f.name) :
    FitTasks sh about (updateTasks current new clientSecret clientId (sh.revisions new.name)) := by
  refine ⟨fun f hf => ?_, fun name secret hmem => ?_, ?_⟩
  · obtain ⟨hchanged, hname, hle⟩ := habout f hf
    refine ⟨hle, .inl ?_, .inl ?_⟩
    · simp [updateTasks, hchanged, hname]
    · by_cases hrenamed : new.name = current.name <;> simp [updateTasks, hchanged, hname, hrenamed]
  · unfold updateTasks at hmem
    rcases List.mem_append.1 hmem with hmem | hmem
    · rcases List.mem_append.1 hmem with hmem | hmem
      · split at hmem
        · split at hmem <;> simp at hmem
        · cases hmem
      · split at hmem
        · cases hmem
        · simp at hmem
        · cases List.mem_singleton.1 hmem
          rfl
    · split at hmem <;> simp at hmem
  · unfold updateTasks
    rw [List.append_assoc]
    refine purgesFirst_append _ _ (fun task htask => ?_) (fun task htask => ?_)
    · split at htask
      · split at htask <;> simp at htask <;> rcases htask with rfl | rfl | rfl <;> rfl
      · cases htask
    · rcases List.mem_append.1 htask with htask | htask
      · split at htask
        · cases htask
        · cases List.mem_singleton.1 htask
          rfl
        · cases List.mem_singleton.1 htask
          rfl
      · split at htask
        · cases List.mem_singleton.1 htask
          rfl
        · cases htask

theorem fit_createTasks (sh : OrgStore) {org : ConfigOrganization} :
    FitTasks sh none (createTasks org clientSecret clientId (sh.revisions org.name)) := by
  refine ⟨nofun, fun name secret hmem => ?_, ?_⟩
  · unfold createTasks at hmem
    rcases List.mem_append.1 hmem with hmem | hmem
    · split at hmem
      · cases hmem
      · cases List.mem_singleton.1 hmem
        rfl
    · simp at hmem
  · unfold createTasks
    refine purgesFirst_append [] _ (List.forall_mem_nil _) fun task htask => ?_
    rcases List.mem_append.1 htask with htask | htask
    · split at htask
      · cases htask
      · cases List.mem_singleton.1 htask
        rfl
    · cases List.mem_singleton.1 htask
      rfl

variable {about : Option Forgetting} {task : OrgTask}

/-- The tasks that are left when one is done. -/
theorem fit_tail (h : FitTasks sh about (task :: todo)) (he : OrgEffect sh ts sh')
    (hrevisions : sh'.revisions = sh.revisions)
    (hidp : ∀ f ∈ about, task = .deleteIdp f.name → sh'.idp.lookup f.name = none)
    (hdcr : ∀ f ∈ about, task = .deleteDcr f.name → sh'.dcr.lookup f.name = none) :
    FitTasks sh' about todo := by
  refine ⟨fun f hf => ?_, fun name secret hmem => ?_, h.purgesFirst.tail⟩
  · obtain ⟨hle, hi, hd⟩ := clears_effect (h.clears f hf) he
    refine ⟨hle, ?_, ?_⟩
    · rcases hi with hmem | hall
      · rcases List.mem_cons.1 hmem with heq | hmem
        · refine .inr fun t ht => ?_
          rw [hidp f hf heq.symm] at ht
          cases ht
        · exact .inl hmem
      · exact .inr hall
    · rcases hd with hmem | hall
      · rcases List.mem_cons.1 hmem with heq | hmem
        · refine .inr fun t ht => ?_
          rw [hdcr f hf heq.symm] at ht
          cases ht
        · exact .inl hmem
      · exact .inr hall
  · rw [hrevisions]
    exact h.secrets name secret (List.mem_cons_of_mem _ hmem)

/-- A request that gives up has made its purges. -/
theorem fit_nil (h : FitTasks sh about (task :: todo)) (htask : task.isPurge = false) :
    FitTasks sh about [] := by
  have hnone {purge : OrgTask} (hpurge : purge.isPurge = true) : purge ∉ task :: todo := by
    intro hmem
    rcases List.mem_cons.1 hmem with rfl | hmem
    · rw [htask] at hpurge
      cases hpurge
    · rw [List.rel_of_pairwise_cons h.purgesFirst hmem htask] at hpurge
      cases hpurge
  refine ⟨fun f hf => ?_, nofun, List.Pairwise.nil⟩
  obtain ⟨hle, hi, hd⟩ := h.clears f hf
  exact ⟨hle, .inr (hi.resolve_left (hnone rfl)), .inr (hd.resolve_left (hnone rfl))⟩

/-- What a step does: its effect, what the thread has afterwards, and whether a request is answered. -/
structure OrgMove (sh : OrgStore) (ts : List OrgPc) (pc : OrgPc) (sh' : OrgStore) (pc' : OrgPc) : Prop where
  effect : OrgEffect sh ts sh'
  fits : pc'.Fits sh'
  answered : sh'.answered = sh.answered ∨ ∃ about, pc = .working about [] ∧ sh'.answered = (sh.answer about).answered

theorem orgMove_idle (h : pc'.Fits sh) : OrgMove sh ts pc sh pc' := ⟨.none rfl rfl rfl, h, .inl rfl⟩

/-- One task, when a purge of the request's own organization leaves nothing. -/
theorem orgMove_perform {succeeds : Bool} (h : OrgPc.perform sh about todo succeeds task = (sh', pc'))
    (hfit : FitTasks sh about (task :: todo))
    (hidp : ∀ f ∈ about, ∀ name, task = .deleteIdp name →
      succeeds = true ∨ name ≠ f.name ∨ sh.idp.lookup name = none)
    (hdcr : ∀ f ∈ about, ∀ name, task = .deleteDcr name →
      succeeds = true ∨ name ≠ f.name ∨ sh.dcr.lookup name = none) :
    OrgMove sh ts pc sh' pc' := by
  cases task with
  | deleteIdp name =>
    cases h
    cases succeeds with
    | true =>
      have he : OrgEffect sh ts (sh.deleteIdp name) := .deleteIdp name rfl
      refine ⟨he, fit_tail hfit he rfl (fun f _ heq => ?_) nofun, .inl rfl⟩
      cases heq
      exact AList.lookup_erase _ _
    | false =>
      have he : OrgEffect sh ts sh := .none rfl rfl rfl
      refine orgMove_idle (fit_tail hfit he rfl (fun f hf heq => ?_) nofun)
      cases heq
      rcases hidp f hf _ rfl with hno | hne | hnone
      · cases hno
      · exact absurd rfl hne
      · exact hnone
  | deleteDcr name =>
    cases h
    cases succeeds with
    | true =>
      have he : OrgEffect sh ts (sh.deleteDcr name) := .deleteDcr name rfl
      refine ⟨he, fit_tail hfit he rfl nofun (fun f _ heq => ?_), .inl rfl⟩
      cases heq
      exact AList.lookup_erase _ _
    | false =>
      have he : OrgEffect sh ts sh := .none rfl rfl rfl
      refine orgMove_idle (fit_tail hfit he rfl nofun fun f hf heq => ?_)
      cases heq
      rcases hdcr f hf _ rfl with hno | hne | hnone
      · cases hno
      · exact absurd rfl hne
      · exact hnone
  | clearSecret name =>
    cases succeeds with
    | true =>
      cases h
      have he : OrgEffect sh ts (sh.deleteDcr name) := .deleteDcr name rfl
      exact ⟨he, fit_tail hfit he rfl nofun nofun, .inl rfl⟩
    | false =>
      cases h
      exact orgMove_idle (fit_nil hfit rfl)
  | saveSecret name secret =>
    cases succeeds with
    | true =>
      cases h
      have he : OrgEffect sh ts (sh.saveDcr name secret) :=
        .saveDcr name secret (hfit.secrets name secret (List.mem_cons_self ..)) rfl
      exact ⟨he, fit_tail hfit he rfl nofun nofun, .inl rfl⟩
    | false =>
      cases h
      exact orgMove_idle (fit_nil hfit rfl)
  | startFlow flow =>
    cases h
    have he : OrgEffect sh ts { sh with pending := sh.pending ++ [flow] } := .none rfl rfl rfl
    exact ⟨he, fit_tail hfit he rfl nofun nofun, .inl rfl⟩

end Effects

section Steps

variable {s : OrgState} {i : Nat} {env : OrgAnswer} {pc pc' : OrgPc} {sh' : OrgStore}

/-- **One step** of a thread, with nothing in its way. -/
theorem org_move (hi : s.threads[i]? = some pc) (h : pc.step s.shared s.threads env = some (sh', pc'))
    (hok : nothingUnderWay s (.run i env) = true) (hfits : pc.Fits s.shared) :
    OrgMove s.shared s.threads pc sh' pc' := by
  cases pc with
  | create body =>
    unfold OrgPc.step at h
    dsimp only at h
    split at h <;> cases h <;> exact orgMove_idle trivial
  | creating org body =>
    unfold OrgPc.step at h
    dsimp only at h
    split at h <;> cases h <;> exact orgMove_idle trivial
  | createWriting organizations org body clientId =>
    unfold OrgPc.step at h
    dsimp only at h
    split at h <;> cases h
    · exact ⟨.none rfl rfl rfl, fit_createTasks (s.shared.write organizations), .inl rfl⟩
    · exact orgMove_idle trivial
  | update name body =>
    unfold OrgPc.step at h
    dsimp only at h
    split at h <;> cases h <;> exact orgMove_idle trivial
  | updating current organizations prepared body =>
    unfold OrgPc.step at h
    dsimp only at h
    split at h
    · next hsucceeds =>
      split at h <;> cases h
      · next hchanged =>
        have hidle : ∀ u ∈ s.threads, u.storesNext current.name = false := by
          simpa [nothingUnderWay, hi, hsucceeds, hchanged] using hok
        refine ⟨.revise current.name _ hidle rfl, ?_, .inl rfl⟩
        refine fit_updateTasks ((s.shared.write _).revise current.name) fun f hf => ?_
        cases hf
        exact ⟨hchanged, rfl, Nat.le_of_eq revisions_revise_self.symm⟩
      · exact ⟨.none rfl rfl rfl, fit_updateTasks (s.shared.write _) nofun, .inl rfl⟩
    · cases h
      exact orgMove_idle trivial
  | delete name =>
    unfold OrgPc.step at h
    dsimp only at h
    split at h <;> cases h <;> exact orgMove_idle trivial
  | deleteWriting name organizations =>
    unfold OrgPc.step at h
    dsimp only at h
    split at h <;> cases h
    · next hsucceeds =>
      have hguard : s.shared.dcr.lookup name = none ∧ ∀ u ∈ s.threads, u.storesNext name = false := by
        simpa [nothingUnderWay, hi, hsucceeds] using hok
      refine ⟨.revise name _ hguard.2 rfl, ⟨fun f hf => ?_, ?_, List.pairwise_singleton _ _⟩, .inl rfl⟩
      · cases hf
        refine ⟨Nat.le_of_eq revisions_revise_self.symm, .inl (List.mem_singleton.2 rfl), .inr fun t ht => ?_⟩
        rw [show s.shared.dcr.lookup name = some t from ht] at hguard
        cases hguard.1
      · intro n secret hmem
        simp at hmem
    · exact orgMove_idle trivial
  | reauthenticate name =>
    unfold OrgPc.step at h
    dsimp only at h
    split at h <;> cases h <;> exact orgMove_idle trivial
  | signIn endpoint issuer key =>
    cases h
    exact orgMove_idle trivial
  | composing flow =>
    unfold OrgPc.step at h
    dsimp only at h
    split at h <;> cases h
    · exact ⟨.none rfl rfl rfl, trivial, .inl rfl⟩
    · exact orgMove_idle trivial
  | working about todo =>
    cases todo with
    | nil =>
      cases h
      refine ⟨?_, trivial, .inr ⟨about, rfl, rfl⟩⟩
      cases about <;> exact .none rfl rfl rfl
    | cons task todo =>
      refine orgMove_perform (Option.some.inj h) hfits (fun f hf name htask => ?_) (fun f hf name htask => ?_)
      · cases hf
        cases htask
        simpa [nothingUnderWay, hi, or_assoc] using hok
      · cases hf
        cases htask
        simpa [nothingUnderWay, hi, or_assoc] using hok
  | callback n =>
    unfold OrgPc.step at h
    dsimp only at h
    split at h <;> cases h
    · exact orgMove_idle trivial
    · refine ⟨.none rfl rfl rfl, ?_, .inl rfl⟩
      split <;> trivial
  | exchanging flow =>
    cases h
    refine orgMove_idle ?_
    split
    · next hsucceeds =>
      have hcurrent : flow.revision = s.shared.revisions flow.key := by
        simpa [nothingUnderWay, hi, hsucceeds] using hok
      exact hcurrent
    · trivial
  | committing flow tokens =>
    unfold OrgPc.step at h
    dsimp only at h
    split at h <;> cases h
    refine orgMove_idle ?_
    split
    · exact hfits
    · trivial
  | capturing flow tokens =>
    cases h
    split
    · exact ⟨.saveIdp flow.key tokens hfits rfl, trivial, .inl rfl⟩
    · exact orgMove_idle trivial
  | done => cases h

/-! ## Every undisturbed run -/

theorem org_fits (h : organizationPurge.system.ReachableWhile (fun s a => nothingUnderWay s a = true) s) :
    ∀ t ∈ s.threads, t.Fits s.shared := by
  refine Pool.forall_threads_of (P := organizationPurge) (I := fun _ => True) (L := fun sh t => t.Fits sh)
    (fun _ _ => trivial) ?_ ?_ ?_ h
  · intro s op t _ ht
    cases ht
    cases op <;> trivial
  · intro s i env t sh' t' new _ hok hi ht hst
    obtain ⟨⟨sh₁, t₁⟩, hstep, hr⟩ := Option.map_eq_some_iff.1 hst
    cases hr
    exact ⟨(org_move hi hstep hok ht).fits, List.forall_mem_nil _⟩
  · intro s i env t sh' t' new j u _ hok hi hj _ ht hu hst
    obtain ⟨⟨sh₁, t₁⟩, hstep, hr⟩ := Option.map_eq_some_iff.1 hst
    cases hr
    exact fits_effect (org_move hi hstep hok ht).effect (List.mem_of_getElem? hj) hu

/-- Nothing is answered that has not come. -/
def AnsweredCame (sh : OrgStore) : Prop := ∀ name, sh.answered name ≤ sh.revisions name

/-- What is stored stays from after what was answered, whatever a step stores. -/
theorem forgotten_effect {sh sh' : OrgStore} {ts : List OrgPc} (he : OrgEffect sh ts sh')
    (hanswered : sh'.answered = sh.answered) (hcame : AnsweredCame sh) (h : sh.Forgotten) :
    AnsweredCame sh' ∧ sh'.Forgotten := by
  cases he with
  | none hidp hdcr hrevisions =>
    refine ⟨fun name => ?_, ⟨?_, ?_⟩⟩
    · rw [hanswered, hrevisions]
      exact hcame name
    · rw [hidp, hanswered]
      exact h.idp
    · rw [hdcr, hanswered]
      exact h.dcr
  | saveIdp name tokens htokens heq =>
    subst heq
    refine ⟨hcame, ⟨fun m t ht => ?_, h.dcr⟩⟩
    rcases AList.lookup_insert_cases ht with ⟨rfl, rfl⟩ | ⟨-, ht⟩
    · rw [htokens]
      exact hcame m
    · exact h.idp m t ht
  | saveDcr name secret hsecret heq =>
    subst heq
    refine ⟨hcame, ⟨h.idp, fun m t ht => ?_⟩⟩
    rcases AList.lookup_insert_cases ht with ⟨rfl, rfl⟩ | ⟨-, ht⟩
    · rw [hsecret]
      exact hcame m
    · exact h.dcr m t ht
  | deleteIdp name heq =>
    subst heq
    exact ⟨hcame, ⟨fun m t ht => h.idp m t (AList.lookup_of_erase ht).2, h.dcr⟩⟩
  | deleteDcr name heq =>
    subst heq
    exact ⟨hcame, ⟨h.idp, fun m t ht => h.dcr m t (AList.lookup_of_erase ht).2⟩⟩
  | revise name organizations _ heq =>
    subst heq
    exact ⟨fun m => Nat.le_trans (hcame m) revisions_le_revise, ⟨h.idp, h.dcr⟩⟩

/-- A request is answered once it has purged. -/
theorem forgotten_answer {sh : OrgStore} (hfit : FitTasks sh about []) (hcame : AnsweredCame sh)
    (h : sh.Forgotten) : AnsweredCame (sh.answer about) ∧ (sh.answer about).Forgotten := by
  cases about with
  | none => exact ⟨hcame, h⟩
  | some f =>
    obtain ⟨hle, hidp, hdcr⟩ := hfit.clears f rfl
    have hanswered (m : String) (n : Nat) (hn : sh.answered m ≤ n) (hf : m = f.name → f.number ≤ n) :
        (sh.answer (some f)).answered m ≤ n := by
      by_cases hm : m = f.name
      · subst hm
        simp only [OrgStore.answer, Function.update_self]
        exact Nat.max_le.2 ⟨hn, hf rfl⟩
      · simp only [OrgStore.answer, Function.update_of_ne hm]
        exact hn
    refine ⟨fun m => hanswered m _ (hcame m) fun hm => hm ▸ hle, ⟨fun m t ht => ?_, fun m t ht => ?_⟩⟩
    · refine hanswered m _ (h.idp m t ht) fun hm => ?_
      exact hidp.resolve_left (List.not_mem_nil) t (hm ▸ ht)
    · refine hanswered m _ (h.dcr m t ht) fun hm => ?_
      exact hdcr.resolve_left (List.not_mem_nil) t (hm ▸ ht)

/-- **Credentials are forgotten** in every undisturbed run: whatever is stored under the name of an
organization comes from after every change and deletion of it that has been answered. -/
theorem credentials_forgotten
    (h : organizationPurge.system.ReachableWhile (fun s a => nothingUnderWay s a = true) s) :
    s.shared.Forgotten := by
  have hsound : AnsweredCame s.shared ∧ s.shared.Forgotten := by
    refine Pool.invariant_of (P := organizationPurge)
      (J := fun s => AnsweredCame s.shared ∧ s.shared.Forgotten) (fun _ hs => org_fits hs) ?_ ?_ ?_ h
    · intro sh hsh
      have hzero (name : String) (n : Nat) : sh.answered name ≤ n := by
        rw [hsh name]
        exact Nat.zero_le n
      exact ⟨fun name => hzero name _, ⟨fun name t _ => hzero name _, fun name t _ => hzero name _⟩⟩
    · exact fun _ _ _ _ hJ _ _ => hJ
    · intro s i env t sh' t' new hfits hJ hok hi hst
      obtain ⟨⟨sh₁, t₁⟩, hstep, hr⟩ := Option.map_eq_some_iff.1 hst
      cases hr
      have ht := hfits t (List.mem_of_getElem? hi)
      obtain ⟨heffect, -, hanswered | ⟨about, rfl, -⟩⟩ := org_move hi hstep hok ht
      · exact forgotten_effect heffect hanswered hJ.1 hJ.2
      · cases hstep
        exact forgotten_answer ht hJ.1 hJ.2
  exact hsound.2

end Steps

/-! ## Three runs -/

def acme : OrganizationCreation :=
  { name := "acme", provider := "custom", idp := some "https://idp.test", clientSecret := some "secret" }

def noOrganizations : OrgStore := ⟨[], ∅, ∅, [], fun _ => 0, fun _ => 0⟩

theorem noOrganizations_start : organizationPurge.system.init ⟨noOrganizations, []⟩ := ⟨fun _ => rfl, rfl⟩

def orgSteps (i n : Nat) : List (Pool.Action OrgOp OrgAnswer) := List.replicate n (.run i {})

def createAcme : List (Pool.Action OrgOp OrgAnswer) :=
  .launch (.create acme) :: orgSteps 0 6

def moveAcme : OrgOp := .update "acme" { idp := some "https://other.test" }

def movedRun : List (Pool.Action OrgOp OrgAnswer) :=
  createAcme ++ .launch (.callback 0) :: orgSteps 1 4 ++ .launch moveAcme :: orgSteps 2 6

/-- After the change nothing is left of the sign-in and of the secret. -/
theorem forgotten_moved : ∃ s, organizationPurge.system.run ⟨noOrganizations, []⟩ movedRun = some s ∧
    s.shared.answered "acme" = 1 ∧ s.shared.Forgotten := by
  have hrun : ∃ s, organizationPurge.system.runWhile nothingUnderWay ⟨noOrganizations, []⟩ movedRun = some s ∧
      organizationPurge.system.run ⟨noOrganizations, []⟩ movedRun = some s ∧ s.shared.answered "acme" = 1 :=
    ⟨_, rfl, rfl, rfl⟩
  obtain ⟨s, hwhile, hrun, hanswered⟩ := hrun
  exact ⟨s, hrun, hanswered, credentials_forgotten
    ((System.ReachableWhile.init noOrganizations_start).run (fun _ _ h => h) hwhile)⟩

def deletedRun : List (Pool.Action OrgOp OrgAnswer) :=
  createAcme ++ .launch (.delete "acme") :: orgSteps 1 4

/-- The sign-in that was started at its creation is completed after the change. -/
def lateRun : List (Pool.Action OrgOp OrgAnswer) :=
  createAcme ++ .launch moveAcme :: orgSteps 1 6 ++ .launch (.callback 0) :: orgSteps 2 4

/-- **The secret of a deleted organization** is left, and **a late callback** brings the old issuer back. -/
theorem credentials_left :
    (∃ s, organizationPurge.system.Reachable s ∧ s.shared.answered "acme" = 1 ∧
      s.shared.dcr.lookup "acme" = some ⟨"client", "secret", "https://idp.test", 0⟩ ∧ ¬ s.shared.Forgotten) ∧
    ∃ s, organizationPurge.system.Reachable s ∧ s.shared.answered "acme" = 1 ∧
      s.shared.idp.lookup "acme" = some ⟨"https://idp.test", 0⟩ ∧ ¬ s.shared.Forgotten := by
  have hdeleted : ∃ s, organizationPurge.system.run ⟨noOrganizations, []⟩ deletedRun = some s ∧
      s.shared.answered "acme" = 1 ∧
      s.shared.dcr.lookup "acme" = some ⟨"client", "secret", "https://idp.test", 0⟩ := ⟨_, rfl, rfl, rfl⟩
  have hlate : ∃ s, organizationPurge.system.run ⟨noOrganizations, []⟩ lateRun = some s ∧
      s.shared.answered "acme" = 1 ∧ s.shared.idp.lookup "acme" = some ⟨"https://idp.test", 0⟩ :=
    ⟨_, rfl, rfl, rfl⟩
  obtain ⟨s, hrun, hanswered, hsecret⟩ := hdeleted
  obtain ⟨s', hrun', hanswered', htokens⟩ := hlate
  refine ⟨⟨s, (System.Reachable.init noOrganizations_start).run hrun, hanswered, hsecret, fun hforgotten => ?_⟩,
    ⟨s', (System.Reachable.init noOrganizations_start).run hrun', hanswered', htokens, fun hforgotten => ?_⟩⟩
  · have hle := hforgotten.dcr "acme" _ hsecret
    rw [hanswered] at hle
    exact absurd hle (by decide)
  · have hle := hforgotten.idp "acme" _ htokens
    rw [hanswered'] at hle
    exact absurd hle (by decide)

end EndaraRelay
