import EndaraRelay.ConfigEdits

/-!
# What a request in the middle of a cycle relies on

`EditTask.steps` says once what the steps of a request are. `EditPc.Fits` is what a request in the middle
of a cycle relies on: the contents it is about to write are the edit of the file as it is now, the list it
is about to publish is that of the ledger, the endpoint it is about to register has no name of another one.
The steps of others leave it that (`EditPc.Fits.others`) as far as they do not conflict with it (`Apart`).

**The ledger.** `ledger` is edited when the file is written, so that it never lags behind: `Books` says
that the file has the effects of the log, and so has the ledger.

**The flags.** A changed endpoint is registered with the flags its table has, which are those of the
endpoint it takes the place of (`changedRegistry_written`, `changedRegistry_mirrored_new`).
-/

namespace EndaraRelay

open Verif

/-! ## The steps -/

/-- The points at which a request may end with a response of its own. -/
def EditPc.mayFail : EditPc → Bool
  | .endpoint _ (.validating _) | .endpoint _ (.reserving _) | .endpoint _ (.reading _) => true
  | .removal _ .reading | .profile _ | .organization _ | .credentials _ | .flags _ .setting => true
  | _ => false

/-- The steps of a request that needs not wait. -/
inductive EditPc.Steps (id : Nat) (sh : ConfigStores) : EditPc → ConfigStores → EditPc → Prop
  | failed {pc : EditPc} (hfail : pc.mayFail = true) (response : ErrorResponse) :
      Steps id sh pc sh (.answered (.failure response))
  | endpointValidated {original : Option String} {req : EndpointRequest} {ep : EndpointConfig}
      (hadm : (endpointEdit original ep).Admissible EndpointConfig.name sh.config.view.endpoints)
      (hflags : ep.flags = (false, [])) :
      Steps id sh (.endpoint original (.validating req)) sh (.endpoint original (.reserving ep))
  | endpointReserved {original : Option String} {ep : EndpointConfig} :
      Steps id sh (.endpoint original (.reserving ep)) sh (.endpoint original (.reading ep))
  | endpointRead {original : Option String} {ep : EndpointConfig} {contents : ConfigFile}
      (hwrite : writeEndpoint ep original sh.file = .ok contents) :
      Steps id sh (.endpoint original (.reading ep)) sh (.endpoint original (.writing ep contents))
  | endpointWritten {original : Option String} {ep : EndpointConfig} {contents : ConfigFile} :
      Steps id sh (.endpoint original (.writing ep contents))
        (sh.commit id (.endpoint (endpointEdit original ep)) contents)
        (.endpoint original (.snapshotting ep))
  | snapshotTaken {original : Option String} {ep : EndpointConfig} :
      Steps id sh (.endpoint original (.snapshotting ep)) sh
        (.endpoint original (.applying ep sh.config (sh.config.changeEndpoint original ep)))
  | diffApplied {original : Option String} {ep : EndpointConfig} {old new : ManagedConfig} :
      Steps id sh (.endpoint original (.applying ep old new))
        { sh with registry := applyConfig old new sh.registry } (.endpoint original (.publishing ep new))
  | endpointPublished {original : Option String} {ep : EndpointConfig} {new : ManagedConfig} :
      Steps id sh (.endpoint original (.publishing ep new)) { sh with config := new }
        (.answered (.success (.edit (.endpoint (endpointEdit original ep)))))
  | removalRead {name : String} {contents : ConfigFile}
      (hremove : removeEndpoint name sh.file = .ok contents) :
      Steps id sh (.removal name .reading) sh (.removal name (.writing contents))
  | removalWritten {name : String} {contents : ConfigFile} :
      Steps id sh (.removal name (.writing contents)) (sh.commit id (.endpoint (.remove name)) contents)
        (.answered (.success (.edit (.endpoint (.remove name)))))
  | profileChecked {change : ProfileChange} {e : ListEdit String ProfileSettings}
      (hadm : e.Admissible ProfileSettings.pathKey (sh.config.list .profiles)) :
      Steps id sh (.profile change) sh (startList .profiles e (sh.config.list .profiles))
  | organizationPrepared {req : CreateOrganizationRequest} {o : ConfigOrganization}
      (hadm : o.name ∉ (sh.config.list .organizations).map ConfigOrganization.name) :
      Steps id sh (.organization (.checking (.create req))) sh (.organization (.resolving o))
  | organizationFound {org : String} {req : UpdateOrganizationRequest} {o : ConfigOrganization}
      (hadm : (ListEdit.replace org o).Admissible ConfigOrganization.name (sh.config.list .organizations)) :
      Steps id sh (.organization (.checking (.update org req))) sh
        (.organization (.resolvingUpdate org (sh.config.list .organizations) o))
  | organizationDropped {org : String} :
      Steps id sh (.organization (.checking (.delete org))) sh
        (startList .organizations (.remove org) (sh.config.list .organizations))
  | organizationResolved {o : ConfigOrganization} (clientId : Option String) :
      Steps id sh (.organization (.resolving o)) sh
        (.organization (.adding { o with clientId := clientId }))
  | organizationAdded {o : ConfigOrganization} :
      Steps id sh (.organization (.adding o)) sh
        (startList .organizations (.insert o) (sh.config.list .organizations))
  | updateResolved {org : String} {orgs : List ConfigOrganization} {o : ConfigOrganization}
      (clientId : Option String) :
      Steps id sh (.organization (.resolvingUpdate org orgs o)) sh
        (startList .organizations (.replace org ({ o with clientId := clientId } : ConfigOrganization)) orgs)
  | listRead {c : ConfigList} {e : ListEdit String c.Entry} {list : List c.Entry} :
      Steps id sh (.list c e (.reading list)) sh (.list c e (.writing list (sh.file.setList c list)))
  | listWritten {c : ConfigList} {e : ListEdit String c.Entry} {list : List c.Entry}
      {contents : ConfigFile} :
      Steps id sh (.list c e (.writing list contents)) (sh.commit id (.list c e) contents)
        (.list c e (.publishing list))
  | listPublished {c : ConfigList} {e : ListEdit String c.Entry} {list : List c.Entry} :
      Steps id sh (.list c e (.publishing list)) { sh with config := sh.config.setList c list }
        (afterPublish c e)
  | credentialsSaved {e : ListEdit String ConfigOrganization} :
      Steps id sh (.credentials e) sh (.answered (.success (.edit (.list .organizations e))))
  | flagSet {f : FlagChange} {answer : EditAnswer}
      (hreg : (sh.registry.flagsOf f.endpoint).isSome = true)
      (hanswer : ∀ m, answer = .success m → m = .flag f) :
      Steps id sh (.flags f .setting)
        { sh with registry := sh.registry.setFlag f, log := (id, .flag f) :: sh.log }
        (.flags f (.persisting answer))
  | flagsMirrored {f : FlagChange} {answer : EditAnswer} :
      Steps id sh (.flags f (.persisting answer))
        { sh with config := sh.config.mirrorFlags sh.registry } (.flags f (.reading answer))
  | flagsRead {f : FlagChange} {answer : EditAnswer} :
      Steps id sh (.flags f (.reading answer)) sh
        (.flags f (.writing answer (persistFlags sh.config sh.file)))
  | flagsWritten {f : FlagChange} {answer : EditAnswer} {contents : ConfigFile} :
      Steps id sh (.flags f (.writing answer contents)) { sh with file := contents } (.answered answer)
  | observabilityRead {new : ObservabilityConfig} :
      Steps id sh (.observability new .reading) sh
        (.observability new (.writing { sh.file with observability := some new }))
  | observabilityWritten {new : ObservabilityConfig} {contents : ConfigFile} :
      Steps id sh (.observability new (.writing contents)) (sh.commit id (.observability new) contents)
        (.observability new .publishing)
  | observabilityPublished {new : ObservabilityConfig} :
      Steps id sh (.observability new .publishing)
        { sh with config := { sh.config with observability := new } }
        (.answered (.success (.edit (.observability new))))

variable {original : Option String} {name : String} {c : ConfigList} {f : FlagChange}
  {cfg : ManagedConfig}

section Inversion

variable {id : Nat} {sh sh' : ConfigStores} {pc' : EditPc} {env : EditEnvironment}

/-- What a validated endpoint is worth: its edit is admissible. -/
theorem endpoint_admissible {req : EndpointRequest} {ep : EndpointConfig}
    (hexists : checkEndpointExists original sh.config.endpoints = .ok ())
    (hok : validateEndpointRequest env.quote req sh.config.endpoints original = .ok ep) :
    (endpointEdit original ep).Admissible EndpointConfig.name sh.config.view.endpoints := by
  have hfree := (validateEndpointRequest_ok hok).1.free
  have hnames : sh.config.view.endpoints.map EndpointConfig.name =
      sh.config.endpoints.map EndpointConfig.name := settings_names _
  cases original with
  | none =>
    show ep.settings.name ∉ _
    rw [hnames]
    intro hmem
    obtain ⟨other, hother, hname⟩ := List.mem_map.1 hmem
    exact hfree other hother (by simp) hname
  | some orig =>
    show orig ∈ _ ∧ (ep.settings.name = orig ∨ ep.settings.name ∉ _)
    rw [hnames]
    constructor
    · have hany := reject_eq_ok.1 hexists
      rw [Bool.not_eq_false', List.any_eq_true] at hany
      obtain ⟨other, hother, hname⟩ := hany
      exact List.mem_map.2 ⟨other, hother, of_decide_eq_true hname⟩
    · by_cases hsame : ep.name = orig
      · exact .inl hsame
      · right
        intro hmem
        obtain ⟨other, hother, hname⟩ := List.mem_map.1 hmem
        refine hfree other hother (fun heq => hsame ?_) hname
        rw [← Option.some.inj heq]
        exact hname.symm

theorem EndpointPc.steps {pc : EndpointPc} (h : pc.step original id sh env = .ok (sh', pc')) :
    EditPc.Steps id sh (.endpoint original pc) sh' pc' := by
  cases pc with
  | validating req =>
    obtain ⟨_, hexists, h⟩ := bind_eq_ok.1 h
    obtain ⟨ep, hok, h⟩ := bind_eq_ok.1 h
    cases h
    have hflags := (validateEndpointRequest_ok hok).1.flags
    exact .endpointValidated (endpoint_admissible hexists hok) (Prod.ext hflags.1 hflags.2)
  | reserving ep =>
    obtain ⟨_, -, h⟩ := bind_eq_ok.1 h
    cases h
    exact .endpointReserved
  | reading ep =>
    obtain ⟨contents, hwrite, h⟩ := bind_eq_ok.1 h
    cases h
    exact .endpointRead hwrite
  | writing ep contents =>
    cases h
    exact .endpointWritten
  | snapshotting ep =>
    cases h
    exact .snapshotTaken
  | applying ep old new =>
    cases h
    exact .diffApplied
  | publishing ep new =>
    cases h
    exact .endpointPublished

theorem RemovalPc.steps {pc : RemovalPc} (h : pc.step name id sh = .ok (sh', pc')) :
    EditPc.Steps id sh (.removal name pc) sh' pc' := by
  cases pc with
  | reading =>
    obtain ⟨contents, hremove, h⟩ := bind_eq_ok.1 h
    cases h
    exact .removalRead hremove
  | writing contents =>
    cases h
    exact .removalWritten

theorem checkProfileExists_ok {path : String} {profiles : List ProfileSettings}
    (h : checkProfileExists path profiles = .ok ()) :
    toAsciiLowercase path ∈ profiles.map ProfileSettings.pathKey := by
  have hany := reject_eq_ok.1 h
  rw [Bool.not_eq_false', List.any_eq_true] at hany
  obtain ⟨q, hq, hkey⟩ := hany
  exact List.mem_map.2 ⟨q, hq, of_decide_eq_true hkey⟩

theorem ProfileChange.steps {change : ProfileChange} (h : change.step sh = .ok (sh', pc')) :
    EditPc.Steps id sh (.profile change) sh' pc' := by
  cases change with
  | create req =>
    obtain ⟨p, hok, h⟩ := bind_eq_ok.1 h
    cases h
    refine .profileChecked fun hmem => ?_
    obtain ⟨q, hq, hkey⟩ := List.mem_map.1 hmem
    exact (validateProfileRequest_ok hok).2 q hq (by simp) hkey
  | update path req =>
    obtain ⟨_, hexists, h⟩ := bind_eq_ok.1 h
    obtain ⟨p, hok, h⟩ := bind_eq_ok.1 h
    cases h
    refine .profileChecked ⟨?_, ?_⟩
    · exact checkProfileExists_ok hexists
    · by_cases hsame : p.pathKey = toAsciiLowercase path
      · exact .inl hsame
      · right
        intro hmem
        obtain ⟨q, hq, hkey⟩ := List.mem_map.1 hmem
        refine (validateProfileRequest_ok hok).2 q hq (fun heq => hsame ?_) hkey
        rw [← Option.some.inj heq]
        exact hkey.symm
  | delete path =>
    obtain ⟨_, -, h⟩ := bind_eq_ok.1 h
    cases h
    exact .profileChecked trivial

theorem OrganizationPc.steps {pc : OrganizationPc} (h : pc.step sh env = .ok (sh', pc')) :
    EditPc.Steps id sh (.organization pc) sh' pc' := by
  cases pc with
  | checking change =>
    cases change with
    | create req =>
      obtain ⟨o, hok, h⟩ := bind_eq_ok.1 h
      cases h
      exact .organizationPrepared (prepareOrganization_ok hok)
    | update org req =>
      obtain ⟨o, hok, h⟩ := bind_eq_ok.1 h
      cases h
      exact .organizationFound (prepareOrganizationUpdate_ok hok)
    | delete org =>
      obtain ⟨_, -, h⟩ := bind_eq_ok.1 h
      cases h
      exact .organizationDropped
  | resolving o =>
    obtain ⟨clientId, -, h⟩ := bind_eq_ok.1 h
    cases h
    exact .organizationResolved clientId
  | adding o =>
    cases h
    exact .organizationAdded
  | resolvingUpdate org orgs o =>
    obtain ⟨clientId, -, h⟩ := bind_eq_ok.1 h
    cases h
    exact .updateResolved clientId

theorem ListEditPc.steps {e : ListEdit String c.Entry} {pc : ListEditPc c}
    (h : pc.step c e id sh = .ok (sh', pc')) : EditPc.Steps id sh (.list c e pc) sh' pc' := by
  cases pc with
  | reading list =>
    cases h
    exact .listRead
  | writing list contents =>
    cases h
    exact .listWritten
  | publishing list =>
    cases h
    exact .listPublished

theorem flagAnswer_success {m : Mutation} (h : flagAnswer f env = .success m) : m = .flag f := by
  unfold flagAnswer at h
  split at h
  · cases h
  · cases h
    rfl

theorem FlagPc.steps {pc : FlagPc} (h : pc.step f id sh env = .ok (sh', pc')) :
    EditPc.Steps id sh (.flags f pc) sh' pc' := by
  cases pc with
  | setting =>
    obtain ⟨_, hreg, h⟩ := bind_eq_ok.1 h
    obtain ⟨_, -, h⟩ := bind_eq_ok.1 h
    cases h
    refine .flagSet ?_ fun m hm => flagAnswer_success hm
    rw [← Option.not_isNone, reject_eq_ok.1 hreg]
    rfl
  | persisting answer =>
    cases h
    exact .flagsMirrored
  | reading answer =>
    cases h
    exact .flagsRead
  | writing answer contents =>
    cases h
    exact .flagsWritten

theorem ObservabilityPc.steps {new : ObservabilityConfig} {pc : ObservabilityPc}
    (h : pc.step new id sh = .ok (sh', pc')) : EditPc.Steps id sh (.observability new pc) sh' pc' := by
  cases pc with
  | reading =>
    cases h
    exact .observabilityRead
  | writing contents =>
    cases h
    exact .observabilityWritten
  | publishing =>
    cases h
    exact .observabilityPublished

theorem mayFail_of_error {pc : EditPc} {response : ErrorResponse}
    (h : pc.step id sh env = some (.error response)) : pc.mayFail = true := by
  cases pc with
  | endpoint original pc => cases pc <;> first | rfl | cases h
  | removal name pc => cases pc <;> first | rfl | cases h
  | list c e pc => cases pc <;> cases h
  | flags f pc => cases pc <;> first | rfl | cases h
  | observability new pc => cases pc <;> cases h
  | answered answer => cases h
  | _ => rfl

/-- **What a step can be.** It waits for the lock when it needs the config. -/
theorem EditTask.steps {tasks : List EditTask} {t t' : EditTask}
    (h : t.step sh tasks env = some (sh', t')) :
    t'.id = t.id ∧ EditPc.Steps t.id sh t.pc sh' t'.pc ∧
      (t.pc.needsConfig = true → ∀ u ∈ tasks, u.pc.locks = false) := by
  unfold EditTask.step at h
  split at h
  · cases h
  · next hwait =>
    obtain ⟨result, hstep, heq⟩ := Option.map_eq_some_iff.1 h
    have hlock : t.pc.needsConfig = true → ∀ u ∈ tasks, u.pc.locks = false := by
      intro hneeds u hu
      by_contra hlocks
      refine hwait ?_
      rw [hneeds, Bool.true_and, List.any_eq_true]
      exact ⟨u, hu, by simpa using hlocks⟩
    cases result with
    | error response =>
      cases heq
      exact ⟨rfl, .failed (mayFail_of_error hstep) response, hlock⟩
    | ok next =>
      cases heq
      refine ⟨rfl, ?_, hlock⟩
      obtain ⟨id, pc⟩ := t
      cases pc with
      | endpoint original pc => exact EndpointPc.steps (Option.some.inj hstep)
      | removal name pc => exact RemovalPc.steps (Option.some.inj hstep)
      | profile change => exact ProfileChange.steps (Option.some.inj hstep)
      | organization pc => exact OrganizationPc.steps (Option.some.inj hstep)
      | list c e pc => exact ListEditPc.steps (Option.some.inj hstep)
      | flags f pc => exact FlagPc.steps (Option.some.inj hstep)
      | observability new pc => exact ObservabilityPc.steps (Option.some.inj hstep)
      | answered answer => cases hstep
      | credentials e =>
        have h : credentialsStep sh env e = .ok next := Option.some.inj hstep
        obtain ⟨_, -, h⟩ := bind_eq_ok.1 h
        cases h
        exact .credentialsSaved

end Inversion

/-! ## The books -/

/-- The file and the ledger have the effects of the edits in the log, and the same lists. -/
structure Books (start sh : ConfigStores) : Prop where
  lists : ∀ c, sh.ledger.lists c = sh.file.list c
  unrepeatedFile : Unrepeated start.file.view sh.file.view
  unrepeatedLedger : Unrepeated start.config.view sh.ledger
  inFile : Standing overriddenBy
    (fun x => ∀ e, x.2 = .edit e → e.written.Effect start.file.view sh.file.view) sh.log
  inLedger : Standing overriddenBy
    (fun x => ∀ e, x.2 = .edit e → ¬ x.2.IsDeletion → e.Effect start.config.view sh.ledger) sh.log

section Books

variable {start sh sh' : ConfigStores} {id : Nat} {e e' : ConfigEdit} {contents : ConfigFile}

/-- What is written overrides what the edit overrides. -/
theorem written_overrides : e'.written.Overrides e.written ↔ e'.Overrides e := by
  have hkeys (e : ListEdit String EndpointConfig) :
      (e.map EndpointConfig.written).keys EndpointConfig.name = e.keys EndpointConfig.name :=
    ListEdit.keys_map fun _ => rfl
  cases e' <;> cases e <;> simp only [ConfigEdit.written, ConfigEdit.Overrides, hkeys]

/-- Of the lists, the written edit and the published one do the same. -/
theorem published_lists {v w : ConfigView} (h : v.lists = w.lists) :
    (e.published v).lists = (e.written.apply w).lists := by
  cases e with
  | endpoint e => cases e <;> exact h
  | list c e =>
    show Function.update v.lists c (e.apply c.key (v.lists c)) = Function.update w.lists c _
    rw [h]
  | observability new => exact h

theorem published_eq (h : ¬ (Mutation.edit e).IsDeletion) (v : ConfigView) :
    e.published v = e.apply v := by
  cases e with
  | endpoint e =>
    cases e with
    | remove k => exact absurd trivial h
    | _ => rfl
  | _ => rfl

theorem published_deletion (h : (Mutation.edit e).IsDeletion) (v : ConfigView) : e.published v = v := by
  cases e with
  | endpoint e =>
    cases e with
    | remove k => rfl
    | _ => cases h
  | _ => cases h

/-- **A write keeps the books.** -/
theorem Books.commit (h : Books start sh) (hview : contents.view = e.written.apply sh.file.view)
    (hfile : e.written.Admissible sh.file.view)
    (hledger : ¬ (Mutation.edit e).IsDeletion → e.Admissible sh.ledger) :
    Books start (sh.commit id e contents) := by
  refine ⟨?_, ?_, ?_, ?_, ?_⟩
  · intro c
    have hlists : sh.ledger.lists = sh.file.view.lists := funext h.lists
    show (e.published sh.ledger).lists c = contents.view.lists c
    rw [published_lists hlists, hview]
  · show Unrepeated _ contents.view
    rw [hview]
    exact h.unrepeatedFile.apply hfile
  · show Unrepeated _ (e.published sh.ledger)
    by_cases hd : (Mutation.edit e).IsDeletion
    · rw [published_deletion hd]
      exact h.unrepeatedLedger
    · rw [published_eq hd]
      exact h.unrepeatedLedger.apply (hledger hd)
  · refine h.inFile.push ?_ ?_
    · rintro ⟨j, m⟩ - hnot heffect e' rfl
      show e'.written.Effect _ contents.view
      rw [hview]
      exact (heffect e' rfl).apply fun ho => hnot (written_overrides.1 ho)
    · intro e' he'
      cases he'
      show e.written.Effect _ contents.view
      rw [hview]
      exact ConfigEdit.effect_apply_self hfile h.unrepeatedFile
  · refine h.inLedger.push ?_ ?_
    · rintro ⟨j, m⟩ - hnot heffect e' rfl hd'
      show e'.Effect _ (e.published sh.ledger)
      by_cases hd : (Mutation.edit e).IsDeletion
      · rw [published_deletion hd]
        exact heffect e' rfl hd'
      · rw [published_eq hd]
        exact (heffect e' rfl hd').apply hnot
    · intro e' he' hd
      cases he'
      show e.Effect _ (e.published sh.ledger)
      rw [published_eq hd]
      exact ConfigEdit.effect_apply_self (hledger hd) h.unrepeatedLedger

/-- The books are about the views and the log. -/
theorem Books.congr (h : Books start sh) (hfile : sh'.file.view = sh.file.view)
    (hledger : sh'.ledger = sh.ledger) (hlog : sh'.log = sh.log) : Books start sh' := by
  have hlists (c : ConfigList) : sh'.file.list c = sh.file.list c :=
    congrFun (congrArg ConfigView.lists hfile) c
  refine ⟨fun c => ?_, ?_, ?_, ?_, ?_⟩
  · rw [hledger, hlists]
    exact h.lists c
  · rw [hfile]
    exact h.unrepeatedFile
  · rw [hledger]
    exact h.unrepeatedLedger
  · rw [hfile, hlog]
    exact h.inFile
  · rw [hledger, hlog]
    exact h.inLedger

/-- A change of flags in the log is no edit. -/
theorem Books.flag (h : Books start sh) (hfile : sh'.file = sh.file) (hledger : sh'.ledger = sh.ledger)
    (hlog : sh'.log = (id, .flag f) :: sh.log) : Books start sh' := by
  refine ⟨fun c => ?_, ?_, ?_, ?_, ?_⟩
  · rw [hledger, hfile]
    exact h.lists c
  · rw [hfile]
    exact h.unrepeatedFile
  · rw [hledger]
    exact h.unrepeatedLedger
  · rw [hfile, hlog]
    exact h.inFile.push (fun _ _ _ heffect => heffect) fun e he => by cases he
  · rw [hledger, hlog]
    exact h.inLedger.push (fun _ _ _ heffect => heffect) fun e he => by cases he

end Books

/-! ## What a request in a cycle relies on -/

/-- No change of flags has been made. -/
def NoFlags (sh : ConfigStores) : Prop := ∀ x ∈ sh.log, ∀ f, x.2 ≠ .flag f

def NamesRegistered (registry : ReloadState) (endpoints : List EndpointConfig) : Prop :=
  ∀ name, (registry.flagsOf name).isSome = true ↔ name ∈ endpoints.map EndpointConfig.name

/-- The registry contains the effect of a change of flags. -/
def FlagChange.InRegistry (f : FlagChange) (registry : ReloadState) : Prop :=
  ∃ flags, registry.flagsOf f.endpoint = some flags ∧ f.Holds flags

/-- The flags the table of a changed endpoint has. -/
def expectedFlags (original : Option String) (registry : ReloadState) : Flags :=
  (original.bind registry.flagsOf).getD (false, [])

/-- A validated endpoint that is not yet written. -/
structure EndpointReady (original : Option String) (ep : EndpointConfig) (sh : ConfigStores) : Prop where
  admissible : (endpointEdit original ep).Admissible EndpointConfig.name sh.config.view.endpoints
  flags : ep.flags = (false, [])
  registered : NamesRegistered sh.registry sh.config.endpoints
  ledger : sh.ledger.endpoints = sh.config.view.endpoints

/-- A written endpoint that is not yet registered. -/
structure EndpointPending (original : Option String) (ep : EndpointConfig) (sh : ConfigStores) : Prop where
  admissible : (endpointEdit original ep).Admissible EndpointConfig.name sh.config.view.endpoints
  flags : ep.flags = (false, [])
  registered : NamesRegistered sh.registry sh.config.endpoints
  ledger : sh.ledger.endpoints =
    (endpointEdit original ep).apply EndpointConfig.name sh.config.view.endpoints
  inRegistry : Standing overriddenBy (fun x => ∀ f, x.2 = .flag f → f.InRegistry sh.registry ∧
    (ConfigEdit.endpoint (endpointEdit original ep)).LeavesFlags f.endpoint) sh.log
  tables : NoFlags sh ∨ ∀ t ∈ sh.file.endpoints, t.name = ep.name →
    t.flags = expectedFlags original sh.registry

/-- A registered endpoint that is not yet published. -/
structure EndpointRegistered (original : Option String) (ep : EndpointConfig) (new : ManagedConfig)
    (sh : ConfigStores) : Prop where
  config : new = sh.config.changeEndpoint original ep
  registered : NamesRegistered sh.registry new.endpoints
  ledger : sh.ledger.endpoints = new.view.endpoints
  mirrored : NoFlags sh ∨ Mirrored sh.registry new.endpoints

def EndpointPc.Fits (original : Option String) (sh : ConfigStores) : EndpointPc → Prop
  | .validating _ => True
  | .reserving ep | .reading ep => EndpointReady original ep sh
  | .writing ep contents => EndpointReady original ep sh ∧ writeEndpoint ep original sh.file = .ok contents
  | .snapshotting ep => EndpointPending original ep sh
  | .applying ep old new => EndpointPending original ep sh ∧ old = sh.config ∧
      new = sh.config.changeEndpoint original ep
  | .publishing ep new => EndpointRegistered original ep new sh

/-- The organizations of the snapshot are those of the ledger. -/
def OrganizationPc.Fits (sh : ConfigStores) : OrganizationPc → Prop
  | .checking _ => True
  | .resolving o | .adding o => sh.config.list .organizations = sh.ledger.lists .organizations ∧
      o.name ∉ (sh.ledger.lists .organizations).map ConfigOrganization.name
  | .resolvingUpdate org orgs o => orgs = sh.ledger.lists .organizations ∧
      (ListEdit.replace org o).Admissible ConfigOrganization.name (sh.ledger.lists .organizations)

/-- The list is the edit of that of the ledger, or is that of the ledger once it is written. -/
def ListEditPc.Fits (c : ConfigList) (e : ListEdit String c.Entry) (sh : ConfigStores) : ListEditPc c → Prop
  | .reading list => list = e.apply c.key (sh.ledger.lists c) ∧ e.Admissible c.key (sh.ledger.lists c)
  | .writing list contents => list = e.apply c.key (sh.ledger.lists c) ∧
      e.Admissible c.key (sh.ledger.lists c) ∧ contents = sh.file.setList c list
  | .publishing list => list = sh.ledger.lists c

def EditPc.Fits (sh : ConfigStores) : EditPc → Prop
  | .endpoint original pc => pc.Fits original sh
  | .removal name (.writing contents) => removeEndpoint name sh.file = .ok contents
  | .organization pc => pc.Fits sh
  | .list c e pc => pc.Fits c e sh
  | .flags _ (.writing _ contents) => contents = persistFlags sh.config sh.file
  | .observability new (.writing contents) => contents = { sh.file with observability := some new }
  | .observability new .publishing => sh.ledger.observability = some new
  | _ => True

/-! ### What a step leaves alone -/

section Frames

variable {id : Nat} {sh sh' : ConfigStores} {pc pc' : EditPc}

section

variable (h : EditPc.Steps id sh pc sh' pc')
include h

theorem EditPc.Steps.file_eq (hpc : pc.inFile = false) : sh'.file = sh.file := by
  cases h <;> first | rfl | cases hpc

theorem EditPc.Steps.ledger_endpoints (hpc : pc.inEndpoints = false) :
    sh'.ledger.endpoints = sh.ledger.endpoints := by
  cases h <;> first | rfl | cases hpc

theorem EditPc.Steps.ledger_lists (hpc : pc.inList c = false) :
    sh'.ledger.lists c = sh.ledger.lists c := by
  cases h with
  | listWritten =>
    have hne := of_decide_eq_false hpc
    exact Function.update_of_ne (Ne.symm hne) _ _
  | @endpointWritten original =>
    cases original <;> rfl
  | _ => rfl

theorem EditPc.Steps.ledger_observability (hpc : pc.inObservability = false) :
    sh'.ledger.observability = sh.ledger.observability := by
  cases h with
  | @endpointWritten original =>
    cases original <;> rfl
  | observabilityWritten => cases hpc
  | _ => rfl

theorem EditPc.Steps.config_view_endpoints (hpc : pc.inEndpoints = false) :
    sh'.config.view.endpoints = sh.config.view.endpoints := by
  cases h with
  | endpointPublished => cases hpc
  | listPublished => exact congrArg (List.map EndpointConfig.settings) (setList_endpoints _ _ _)
  | flagsMirrored => exact mirrorFlags_view_endpoints
  | _ => rfl

theorem EditPc.Steps.config_list (hfits : pc.Fits sh) (hpc : pc.inList c = false) :
    sh'.config.list c = sh.config.list c := by
  cases h with
  | endpointPublished =>
    show ManagedConfig.list _ c = _
    rw [EndpointRegistered.config hfits]
    exact changeEndpoint_list _ _ _ c
  | listPublished =>
    have hne := of_decide_eq_false hpc
    exact (setList_list _ _ _ c).trans (Function.update_of_ne (Ne.symm hne) _ _)
  | flagsMirrored => exact mirrorFlags_list c
  | observabilityPublished => cases c <;> rfl
  | _ => rfl

theorem EditPc.Steps.config_observability (hfits : pc.Fits sh) (hpc : pc.inObservability = false) :
    sh'.config.observability = sh.config.observability := by
  cases h with
  | endpointPublished =>
    show ManagedConfig.observability _ = _
    rw [EndpointRegistered.config hfits]
    exact changeEndpoint_observability _ _ _
  | listPublished => exact setList_observability _ _ _
  | observabilityPublished => cases hpc
  | _ => rfl

/-- Only what needs the config changes it. -/
theorem EditPc.Steps.config_eq (hpc : pc.needsConfig = false) : sh'.config = sh.config := by
  cases h <;> first | rfl | cases hpc

theorem EditPc.Steps.config_eq_of (hpub : pc.publishes = false) (hpc : pc.inEndpoints = false)
    (hflags : pc.inFlags = false) : sh'.config = sh.config := by
  cases h with
  | endpointPublished => cases hpc
  | flagsMirrored => cases hflags
  | listPublished => cases hpub
  | observabilityPublished => cases hpub
  | _ => rfl

theorem EditPc.Steps.registry_eq (hpc : pc.inEndpoints = false) (hflags : pc'.inFlags = false) :
    sh'.registry = sh.registry := by
  cases h with
  | diffApplied => cases hpc
  | flagSet => cases hflags
  | _ => rfl

/-- The log grows by at most one mutation, which is a change of flags only when its request has to
persist it. -/
theorem EditPc.Steps.log_eq :
    sh'.log = sh.log ∨ ∃ m, sh'.log = (id, m) :: sh.log ∧ (pc'.inFlags = false → ∀ f, m ≠ .flag f) := by
  cases h with
  | endpointWritten => exact .inr ⟨_, rfl, fun _ f hf => by cases hf⟩
  | removalWritten => exact .inr ⟨_, rfl, fun _ f hf => by cases hf⟩
  | listWritten => exact .inr ⟨_, rfl, fun _ f hf => by cases hf⟩
  | observabilityWritten => exact .inr ⟨_, rfl, fun _ f hf => by cases hf⟩
  | flagSet => exact .inr ⟨_, rfl, fun hflags => by cases hflags⟩
  | _ => exact .inl rfl

theorem EditPc.Steps.mem_log {x : Nat × Mutation} (hx : x ∈ sh.log) : x ∈ sh'.log := by
  obtain hlog | ⟨m, hlog, -⟩ := h.log_eq
  · rwa [hlog]
  · rw [hlog]
    exact List.mem_cons_of_mem _ hx

theorem EditPc.Steps.noFlags (hflags : pc'.inFlags = false) (hno : NoFlags sh) : NoFlags sh' := by
  obtain hlog | ⟨m, hlog, hm⟩ := h.log_eq
  · unfold NoFlags
    rwa [hlog]
  · unfold NoFlags
    rw [hlog]
    exact List.forall_mem_cons.2 ⟨hm hflags, hno⟩

/-- What holds of the changes of flags still does when none was made. -/
theorem EditPc.Steps.standing_flags (hflags : pc'.inFlags = false) {P : FlagChange → Prop}
    (hP : Standing overriddenBy (fun x => ∀ f, x.2 = .flag f → P f) sh.log) :
    Standing overriddenBy (fun x => ∀ f, x.2 = .flag f → P f) sh'.log := by
  obtain hlog | ⟨m, hlog, hm⟩ := h.log_eq
  · rwa [hlog]
  · rw [hlog]
    exact hP.push (fun _ _ _ heffect => heffect) fun f hf => absurd hf (hm hflags f)

end

theorem setList_tables (file : ConfigFile) (c : ConfigList) (l : List c.Entry) :
    (file.setList c l).endpoints = file.endpoints := by
  cases c <;> rfl

/-- Only changes of endpoints and of flags bring in tables. -/
theorem EditPc.Steps.tables (h : EditPc.Steps id sh pc sh' pc') (hfits : pc.Fits sh)
    (hpc : pc.inEndpoints = false) (hflags : pc.inFlags = false) :
    ∀ t ∈ sh'.file.endpoints, t ∈ sh.file.endpoints := by
  intro t ht
  cases h with
  | endpointWritten => cases hpc
  | flagsWritten => cases hflags
  | @removalWritten name contents =>
    have hremove : removeEndpoint name sh.file = .ok contents := hfits
    unfold removeEndpoint at hremove
    split at hremove
    · cases hremove
      exact List.mem_of_mem_filter ht
    · cases hremove
  | listWritten =>
    obtain ⟨-, -, rfl⟩ := hfits
    rwa [← setList_tables sh.file]
  | observabilityWritten =>
    cases hfits
    exact ht
  | _ => exact ht

end Frames

/-! ### What the steps of others leave alone -/

/-- What the guard says of two requests, seen from the first one. -/
structure Apart (pc other : EditPc) : Prop where
  file : pc.inFile = true → other.inFile = false
  endpoints : pc.inEndpoints = true → other.inEndpoints = false ∧ other.inFlags = false
  flags : pc.inFlags = true → other.inEndpoints = false
  lists : ∀ c, pc.inList c = true → other.inList c = false
  observability : pc.inObservability = true → other.inObservability = false

theorem not_both {a b : Bool} (h : a = true → b = false) (hb : b = true) : a = false := by
  cases a with
  | false => rfl
  | true => exact absurd ((h rfl).symm.trans hb) Bool.false_ne_true

theorem Apart.symm {pc other : EditPc} (h : Apart pc other) : Apart other pc where
  file := not_both h.file
  endpoints hother := ⟨not_both (fun hpc => (h.endpoints hpc).1) hother, not_both h.flags hother⟩
  flags := not_both fun hpc => (h.endpoints hpc).2
  lists c := not_both (h.lists c)
  observability := not_both h.observability

theorem apart_of {t u : EditTask} (h : conflicting t u = false) : Apart t.pc u.pc := by
  unfold conflicting at h
  simp only [Bool.or_eq_false_iff, Bool.and_eq_false_iff] at h
  obtain ⟨⟨⟨⟨⟨hfile, hendpoints⟩, hflags⟩, hprofiles⟩, horganizations⟩, hobs⟩ := h
  refine ⟨fun ht => ?_, fun ht => ?_, fun ht => ?_, fun c ht => ?_, fun ht => ?_⟩
  · exact hfile.resolve_left fun hf => Bool.false_ne_true (hf.symm.trans ht)
  · exact hendpoints.resolve_left fun hf => Bool.false_ne_true (hf.symm.trans ht)
  · exact hflags.resolve_left fun hf => Bool.false_ne_true (hf.symm.trans ht)
  · cases c with
    | profiles => exact hprofiles.resolve_left fun hf => Bool.false_ne_true (hf.symm.trans ht)
    | organizations => exact horganizations.resolve_left fun hf => Bool.false_ne_true (hf.symm.trans ht)
  · exact hobs.resolve_left fun hf => Bool.false_ne_true (hf.symm.trans ht)

section Others

variable {id : Nat} {sh sh' : ConfigStores} {pc pc' other : EditPc}

theorem namesRegistered_iff {registry : ReloadState} :
    NamesRegistered registry cfg.endpoints ↔ ∀ name, (registry.flagsOf name).isSome = true ↔
      name ∈ cfg.view.endpoints.map EndpointConfig.name := by
  have hnames : cfg.view.endpoints.map EndpointConfig.name = cfg.endpoints.map EndpointConfig.name :=
    settings_names _
  rw [hnames]
  exact Iff.rfl

/-- The names of the registry and of the config stay when nobody is in an endpoint change. -/
theorem NamesRegistered.step (h : EditPc.Steps id sh pc sh' pc') (hpc : pc.inEndpoints = false)
    (hnames : NamesRegistered sh.registry sh.config.endpoints) :
    NamesRegistered sh'.registry sh'.config.endpoints := by
  rw [namesRegistered_iff] at hnames ⊢
  rw [h.config_view_endpoints hpc]
  intro name
  rw [← hnames name]
  cases h with
  | diffApplied => cases hpc
  | flagSet =>
    rw [ReloadState.flagsOf_setFlag]
    split
    · rw [Option.isSome_map]
    · rfl
  | _ => rfl

variable {original : Option String} {ep : EndpointConfig}

theorem EndpointReady.others (hready : EndpointReady original ep sh) (h : EditPc.Steps id sh pc sh' pc')
    (hpc : pc.inEndpoints = false) : EndpointReady original ep sh' := by
  refine ⟨?_, hready.flags, hready.registered.step h hpc, ?_⟩
  · rw [h.config_view_endpoints hpc]
    exact hready.admissible
  · rw [h.config_view_endpoints hpc, h.ledger_endpoints hpc]
    exact hready.ledger

theorem EndpointPending.others (hpending : EndpointPending original ep sh)
    (h : EditPc.Steps id sh pc sh' pc') (hfits : pc.Fits sh) (hpc : pc.inEndpoints = false)
    (hflags : pc.inFlags = false) (hflags' : pc'.inFlags = false) : EndpointPending original ep sh' := by
  refine ⟨?_, hpending.flags, hpending.registered.step h hpc, ?_, ?_, ?_⟩
  · rw [h.config_view_endpoints hpc]
    exact hpending.admissible
  · rw [h.config_view_endpoints hpc, h.ledger_endpoints hpc]
    exact hpending.ledger
  · rw [h.registry_eq hpc hflags']
    exact h.standing_flags hflags' hpending.inRegistry
  · rw [h.registry_eq hpc hflags']
    exact hpending.tables.imp (h.noFlags hflags')
      fun htables t ht => htables t (h.tables hfits hpc hflags t ht)

/-- **The steps of others** leave a request what it relies on. -/
theorem EditPc.Fits.others (hother : other.Fits sh) (h : EditPc.Steps id sh pc sh' pc')
    (hfits : pc.Fits sh) (hapart : Apart other pc) (hapart' : Apart other pc')
    (hpublish : other.inConfig = true → pc.publishes = false)
    (hlock : other.locks = true → pc.needsConfig = false) : other.Fits sh' := by
  cases other with
  | endpoint original pcu =>
    cases pcu with
    | validating req => trivial
    | reserving ep => exact EndpointReady.others hother h (hapart.endpoints rfl).1
    | reading ep => exact EndpointReady.others hother h (hapart.endpoints rfl).1
    | writing ep contents =>
      obtain ⟨hready, hwrite⟩ := hother
      refine ⟨hready.others h (hapart.endpoints rfl).1, ?_⟩
      rw [h.file_eq (hapart.file rfl)]
      exact hwrite
    | snapshotting ep =>
      exact EndpointPending.others hother h hfits (hapart.endpoints rfl).1 (hapart.endpoints rfl).2
        (hapart'.endpoints rfl).2
    | applying ep old new =>
      obtain ⟨hpending, hold, hnew⟩ := hother
      have hconfig := h.config_eq_of (hpublish rfl) (hapart.endpoints rfl).1 (hapart.endpoints rfl).2
      refine ⟨hpending.others h hfits (hapart.endpoints rfl).1 (hapart.endpoints rfl).2
        (hapart'.endpoints rfl).2, ?_, ?_⟩
      · rw [hconfig]
        exact hold
      · rw [hconfig]
        exact hnew
    | publishing ep new =>
      have hreg : EndpointRegistered original ep new sh := hother
      have hpc := (hapart.endpoints rfl).1
      have hflags' := (hapart'.endpoints rfl).2
      have hconfig := h.config_eq_of (hpublish rfl) hpc (hapart.endpoints rfl).2
      refine ⟨?_, ?_, ?_, ?_⟩
      · rw [hconfig]
        exact hreg.config
      · rw [h.registry_eq hpc hflags']
        exact hreg.registered
      · rw [h.ledger_endpoints hpc]
        exact hreg.ledger
      · rw [h.registry_eq hpc hflags']
        exact hreg.mirrored.imp_left (h.noFlags hflags')
  | removal name pcu =>
    cases pcu with
    | reading => trivial
    | writing contents =>
      show removeEndpoint name sh'.file = _
      rw [h.file_eq (hapart.file rfl)]
      exact hother
  | profile change => trivial
  | organization pcu =>
    cases pcu with
    | checking change => trivial
    | resolvingUpdate org orgs o =>
      show _ ∧ _
      rw [h.ledger_lists (hapart.lists .organizations rfl)]
      exact hother
    | _ =>
      show _ ∧ _
      rw [h.ledger_lists (hapart.lists .organizations rfl),
        h.config_list hfits (hapart.lists .organizations rfl)]
      exact hother
  | list c e pcu =>
    have hledger := h.ledger_lists (hapart.lists c (decide_eq_true rfl))
    cases pcu with
    | reading list =>
      show _ ∧ _
      rw [hledger]
      exact hother
    | writing list contents =>
      show _ ∧ _ ∧ _
      rw [hledger, h.file_eq (hapart.file rfl)]
      exact hother
    | publishing list =>
      show _ = _
      rw [hledger]
      exact hother
  | credentials e => trivial
  | flags f pcu =>
    cases pcu with
    | writing answer contents =>
      show contents = _
      rw [h.file_eq (hapart.file rfl), h.config_eq (hlock rfl)]
      exact hother
    | _ => trivial
  | observability new pcu =>
    cases pcu with
    | reading => trivial
    | writing contents =>
      show contents = _
      rw [h.file_eq (hapart.file rfl)]
      exact hother
    | publishing =>
      show _ = _
      rw [h.ledger_observability (hapart.observability rfl)]
      exact hother
  | answered answer => trivial

end Others

/-! ## A changed endpoint in the registry and in the file -/

section Change

variable {original : Option String} {ep : EndpointConfig} {sh : ConfigStores}

/-- The names of the endpoints a changed endpoint leaves behind. -/
theorem mem_changed_names
    (hadm : (endpointEdit original ep).Admissible EndpointConfig.name sh.config.view.endpoints) :
    name ∈ (sh.config.changeEndpoint original ep).endpoints.map EndpointConfig.name ↔
      name ∈ ((endpointEdit original ep).apply EndpointConfig.name sh.config.view.endpoints).map
        EndpointConfig.name := by
  rw [← changeEndpoint_view hadm]
  show _ ↔ name ∈ (List.map _ _).map _
  rw [settings_names]

theorem mem_view_names :
    name ∈ cfg.view.endpoints.map EndpointConfig.name ↔ name ∈ cfg.endpoints.map EndpointConfig.name := by
  show name ∈ (List.map _ _).map _ ↔ _
  rw [settings_names]

/-- The name of a changed endpoint is one of the config. -/
theorem edited_name_mem {l : List EndpointConfig}
    (hadm : (endpointEdit original ep).Admissible EndpointConfig.name l) :
    ep.name ∈ ((endpointEdit original ep).apply EndpointConfig.name l).map EndpointConfig.name := by
  have hself : (endpointEdit original ep).Effect EndpointConfig.name (fun _ => False)
      ((endpointEdit original ep).apply EndpointConfig.name l) :=
    ListEdit.effect_apply_self hadm fun _ hf => absurd hf id
  cases original with
  | none => exact List.mem_map.2 ⟨ep.settings, hself, rfl⟩
  | some orig => exact List.mem_map.2 ⟨ep.settings, hself.1, rfl⟩

/-- An endpoint of the changed config is the changed one, or was there before. -/
theorem mem_changed
    (hadm : (endpointEdit original ep).Admissible EndpointConfig.name sh.config.view.endpoints)
    {e : EndpointConfig} (he : e ∈ (sh.config.changeEndpoint original ep).endpoints) :
    e = effectiveEndpoint original ep sh.config ∨ e ∈ sh.config.endpoints := by
  rw [changeEndpoint_endpoints hadm] at he
  refine (ListEdit.mem_apply he).imp_left fun hentry => ?_
  cases original with
  | none => exact (Option.some.inj hentry).symm
  | some orig => exact (Option.some.inj hentry).symm

/-- An endpoint that is created or renamed has a name the config does not have. -/
theorem original_of_mem
    (hadm : (endpointEdit original ep).Admissible EndpointConfig.name sh.config.view.endpoints)
    (hmem : ep.name ∈ sh.config.endpoints.map EndpointConfig.name) : original = some ep.name := by
  cases original with
  | none => exact absurd (mem_view_names.2 hmem) hadm
  | some orig =>
    obtain hsame | hfree := hadm.2
    · exact congrArg some hsame.symm
    · exact absurd (mem_view_names.2 hmem) hfree

/-- The flags of the changed endpoint are those expected of its table. -/
theorem effectiveEndpoint_flags (hpending : EndpointPending original ep sh)
    (hmirrored : Mirrored sh.registry sh.config.endpoints) :
    (effectiveEndpoint original ep sh.config).flags = expectedFlags original sh.registry := by
  cases original with
  | none => exact hpending.flags
  | some orig =>
    have hmem := mem_view_names.1 hpending.admissible.1
    obtain ⟨flags, hflags⟩ := Option.isSome_iff_exists.1 ((hpending.registered orig).2 hmem)
    unfold effectiveEndpoint expectedFlags
    rw [Option.bind_some, Option.bind_some, hflags]
    cases hfind : sh.config.endpoints.find? fun e => e.name = orig with
    | none =>
      obtain ⟨e, he, hname⟩ := List.mem_map.1 hmem
      exact absurd (decide_eq_true hname) (List.find?_eq_none.1 hfind e he)
    | some existing =>
      have hname : existing.name = orig := by simpa using List.find?_some hfind
      exact hmirrored existing (List.mem_of_find?_eq_some hfind) flags (hname ▸ hflags)

/-- The registry once the diff is applied. -/
abbrev changedRegistry (original : Option String) (ep : EndpointConfig) (sh : ConfigStores) : ReloadState :=
  applyConfig sh.config (sh.config.changeEndpoint original ep) sh.registry

section

variable (hpending : EndpointPending original ep sh)
include hpending

theorem changedRegistry_names :
    NamesRegistered (changedRegistry original ep sh) (sh.config.changeEndpoint original ep).endpoints :=
  fun _ => registered_applyDiff hpending.registered

theorem changedRegistry_kept (hold : name ∈ sh.config.endpoints.map EndpointConfig.name)
    (hnew : name ∈ (sh.config.changeEndpoint original ep).endpoints.map EndpointConfig.name) :
    (changedRegistry original ep sh).flagsOf name = sh.registry.flagsOf name :=
  flagsOf_applyDiff_kept ((hpending.registered name).2 hold) hold hnew

/-- A name that is new has the flags of the changed endpoint. -/
theorem changedRegistry_added (hold : ep.name ∉ sh.config.endpoints.map EndpointConfig.name) :
    (changedRegistry original ep sh).flagsOf ep.name =
      some (effectiveEndpoint original ep sh.config).flags := by
  have hname := effectiveEndpoint_name original ep sh.config
  have honly (e : EndpointConfig) (he : e ∈ (sh.config.changeEndpoint original ep).endpoints)
      (hen : e.name = ep.name) : e = effectiveEndpoint original ep sh.config := by
    refine (mem_changed hpending.admissible he).resolve_right fun hmem => hold ?_
    rw [← hen]
    exact List.mem_map_of_mem hmem
  have hnew : ep.name ∈ (sh.config.changeEndpoint original ep).endpoints.map EndpointConfig.name := by
    rw [mem_changed_names hpending.admissible]
    exact edited_name_mem hpending.admissible
  obtain ⟨e, he, hen⟩ := List.mem_map.1 hnew
  obtain rfl := honly e he hen
  rw [← hname] at hold ⊢
  exact flagsOf_applyDiff_added hold he fun other hother hon => honly other hother (hon.trans hname)

/-- Before the changed config is published, the old one has the flags of the registry still. -/
theorem changedRegistry_mirrored_old (hmirrored : Mirrored sh.registry sh.config.endpoints) :
    Mirrored (changedRegistry original ep sh) sh.config.endpoints := by
  intro e he flags hflags
  have hold := List.mem_map_of_mem (f := EndpointConfig.name) he
  have hnew := (changedRegistry_names hpending e.name).1 (hflags ▸ rfl)
  rw [changedRegistry_kept hpending hold hnew] at hflags
  exact hmirrored e he flags hflags

theorem changedRegistry_mirrored_new (hmirrored : Mirrored sh.registry sh.config.endpoints) :
    Mirrored (changedRegistry original ep sh) (sh.config.changeEndpoint original ep).endpoints := by
  intro e he flags hflags
  have hnew := List.mem_map_of_mem (f := EndpointConfig.name) he
  obtain rfl | he := mem_changed hpending.admissible he
  · rw [effectiveEndpoint_name] at hflags hnew
    by_cases hold : ep.name ∈ sh.config.endpoints.map EndpointConfig.name
    · rw [changedRegistry_kept hpending hold hnew] at hflags
      rw [effectiveEndpoint_flags hpending hmirrored, original_of_mem hpending.admissible hold]
      simp [expectedFlags, hflags]
    · rw [changedRegistry_added hpending hold] at hflags
      exact Option.some.inj hflags
  · have hold := List.mem_map_of_mem (f := EndpointConfig.name) he
    rw [changedRegistry_kept hpending hold hnew] at hflags
    exact hmirrored e he flags hflags

/-- The tables have the flags of the registry once the diff is applied. -/
theorem changedRegistry_written (hmirrored : Mirrored sh.registry sh.config.endpoints)
    (hwritten : FlagsWritten sh.registry sh.file.endpoints)
    (htables : ∀ t ∈ sh.file.endpoints, t.name = ep.name → t.flags = expectedFlags original sh.registry) :
    FlagsWritten (changedRegistry original ep sh) sh.file.endpoints := by
  intro t ht flags hflags
  have hnew := (changedRegistry_names hpending t.name).1 (hflags ▸ rfl)
  by_cases hold : t.name ∈ sh.config.endpoints.map EndpointConfig.name
  · rw [changedRegistry_kept hpending hold hnew] at hflags
    exact hwritten t ht flags hflags
  · obtain ⟨e, he, hname⟩ := List.mem_map.1 hnew
    have hep : t.name = ep.name := by
      obtain rfl | he := mem_changed hpending.admissible he
      · rw [← hname]
        exact effectiveEndpoint_name original ep sh.config
      · exact absurd (hname ▸ List.mem_map_of_mem he) hold
    rw [hep] at hold hflags
    rw [changedRegistry_added hpending hold] at hflags
    rw [htables t ht hep, ← effectiveEndpoint_flags hpending hmirrored]
    exact Option.some.inj hflags

/-- A changed endpoint keeps the flags it leaves. -/
theorem changedRegistry_inRegistry (hf : f.InRegistry sh.registry)
    (hleaves : (ConfigEdit.endpoint (endpointEdit original ep)).LeavesFlags f.endpoint) :
    f.InRegistry (changedRegistry original ep sh) := by
  obtain ⟨flags, hflags, hholds⟩ := hf
  have hold := (hpending.registered f.endpoint).1 (hflags ▸ rfl)
  have hnew : f.endpoint ∈ (sh.config.changeEndpoint original ep).endpoints.map EndpointConfig.name := by
    rw [mem_changed_names hpending.admissible]
    cases original with
    | none =>
      rw [ListEdit.mem_keys_apply_iff hleaves]
      exact mem_view_names.2 hold
    | some orig =>
      by_cases hkey : f.endpoint = orig ∨ f.endpoint = ep.name
      · have hname : orig = ep.name := hleaves hkey
        have hfe : f.endpoint = ep.name := hkey.elim (fun h => h.trans hname) id
        rw [hfe]
        exact edited_name_mem hpending.admissible
      · rw [ListEdit.mem_keys_apply_iff ?_]
        · exact mem_view_names.2 hold
        · rw [not_or] at hkey
          exact fun hmem => (List.mem_cons.1 hmem).elim hkey.1 fun h => hkey.2 (List.mem_singleton.1 h)
  exact ⟨flags, (changedRegistry_kept hpending hold hnew).trans hflags, hholds⟩

end

variable {contents : ConfigFile}

/-- Writing the table keeps the flags of the tables. -/
theorem EndpointReady.flagsWritten (hready : EndpointReady original ep sh)
    (hwrite : writeEndpoint ep original sh.file = .ok contents)
    (hwritten : FlagsWritten sh.registry sh.file.endpoints) :
    FlagsWritten sh.registry contents.endpoints := by
  intro t ht flags hflags
  obtain ht | ⟨hname, hsource⟩ := writeEndpoint_tables hwrite ht
  · exact hwritten t ht flags hflags
  · rw [hname] at hflags
    have horiginal := original_of_mem hready.admissible ((hready.registered ep.name).1 (hflags ▸ rfl))
    subst horiginal
    obtain ⟨existing, hmem, hen, heq⟩ := hsource
    rw [heq]
    exact hwritten existing hmem flags (hen ▸ hflags)

/-- The table that is written has the flags expected. -/
theorem EndpointReady.expected (hready : EndpointReady original ep sh)
    (hwrite : writeEndpoint ep original sh.file = .ok contents)
    (hwritten : FlagsWritten sh.registry sh.file.endpoints) :
    ∀ t ∈ contents.endpoints, t.name = ep.name → t.flags = expectedFlags original sh.registry := by
  have hfile := (writeEndpoint_ok hwrite).2
  intro t ht hname
  cases original with
  | none =>
    obtain ht | ⟨-, hflags⟩ := writeEndpoint_tables hwrite ht
    · refine absurd ?_ hfile
      show ep.name ∈ (sh.file.endpoints.map EndpointTable.settings).map EndpointConfig.name
      rw [← hname]
      exact List.mem_map_of_mem (List.mem_map_of_mem ht)
    · exact hflags
  | some orig =>
    have hreg := (hready.registered orig).2 (mem_view_names.1 hready.admissible.1)
    obtain ⟨flags, hflags⟩ := Option.isSome_iff_exists.1 hreg
    have hexpected : expectedFlags (some orig) sh.registry = flags := by simp [expectedFlags, hflags]
    rw [hexpected]
    obtain ht | ⟨-, existing, hmem, hen, heq⟩ := writeEndpoint_tables hwrite ht
    · obtain hsame | hfree := hfile.2
      · have hsame : ep.name = orig := hsame
        exact hwritten t ht flags (by rw [hname, hsame, hflags])
      · refine absurd ?_ hfree
        show ep.name ∈ (sh.file.endpoints.map EndpointTable.settings).map EndpointConfig.name
        rw [← hname]
        exact List.mem_map_of_mem (List.mem_map_of_mem ht)
    · rw [heq]
      exact hwritten existing hmem flags (hen ▸ hflags)

end Change

end EndaraRelay
