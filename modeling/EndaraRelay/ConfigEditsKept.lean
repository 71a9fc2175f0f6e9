import EndaraRelay.ConfigEditCycles

/-!
# No acknowledged edit of the config is lost

`config_edits_kept`: in runs whose steps all meet the guard of `ConfigEdits`, once every request has been
answered the file contains the effect of every mutation that no later one overrides, and so does the
config in memory, but for deletions of endpoints, which the handlers leave to the watcher. Two changes of
flags may overlap in any way.

**The invariant.** `EditsInvariant` has the books, what each request relies on, and what is true of the
stores unless some request has still to see to it (`Unless`): the config in memory is the ledger again as
soon as no request stands between its write and its publication, it has the flags of the registry unless
somebody has still to mirror them, and the file has them unless somebody has still to write them.
-/

namespace EndaraRelay

open Verif

/-! ## What requests have still to see to -/

namespace EditPc

/-- The mutation a request has put into the log, while it is still to be answered for. -/
def logged : EditPc → Option Mutation
  | .endpoint original (.snapshotting ep) => some (.edit (.endpoint (endpointEdit original ep)))
  | .endpoint original (.applying ep _ _) => some (.edit (.endpoint (endpointEdit original ep)))
  | .endpoint original (.publishing ep _) => some (.edit (.endpoint (endpointEdit original ep)))
  | .list c e (.publishing _) => some (.edit (.list c e))
  | .credentials e => some (.edit (.list .organizations e))
  | .observability new .publishing => some (.edit (.observability new))
  | .flags _ (.persisting (.success m)) => some m
  | .flags _ (.reading (.success m)) => some m
  | .flags _ (.writing (.success m) _) => some m
  | .answered (.success m) => some m
  | _ => none

def endpointPending : EditPc → Bool
  | .endpoint _ (.snapshotting _) | .endpoint _ (.applying _ _ _) | .endpoint _ (.publishing _ _) => true
  | _ => false

def registering : EditPc → Bool
  | .endpoint _ (.publishing _ _) => true
  | _ => false

/-- A written list is not published yet. -/
def listPending (c : ConfigList) : EditPc → Bool
  | .list c' _ (.publishing _) => c' = c
  | _ => false

/-- The written observability settings are not published yet. -/
def observabilityPending : EditPc → Bool
  | .observability _ .publishing => true
  | _ => false

def mirroring : EditPc → Bool
  | .flags _ (.persisting _) => true
  | _ => false

variable {pc : EditPc}

theorem endpointPending_eq_false (h : pc.inEndpoints = false) : pc.endpointPending = false := by
  cases pc with
  | endpoint original pc => cases pc <;> first | rfl | cases h
  | _ => rfl

theorem registering_eq_false (h : pc.inEndpoints = false) : pc.registering = false := by
  cases pc with
  | endpoint original pc => cases pc <;> first | rfl | cases h
  | _ => rfl

theorem mirroring_eq_false (h : pc.inFlags = false) : pc.mirroring = false := by
  cases pc with
  | flags f pc => cases pc <;> first | rfl | cases h
  | _ => rfl

theorem inFlags_eq_false (h : pc.inEndpoints = true) : pc.inFlags = false := by
  cases pc with
  | endpoint original pc => rfl
  | _ => cases h

theorem inEndpoints_eq_false (h : pc.inFlags = true) : pc.inEndpoints = false := by
  cases pc with
  | flags f pc => rfl
  | _ => cases h

theorem listPending_eq_false {c : ConfigList} (h : pc.inList c = false) : pc.listPending c = false := by
  cases pc with
  | list c' e pc =>
    cases pc with
    | publishing list => exact h
    | _ => rfl
  | _ => rfl

theorem observabilityPending_eq_false (h : pc.inObservability = false) :
    pc.observabilityPending = false := by
  cases pc with
  | observability new pc => cases pc <;> first | rfl | cases h
  | _ => rfl

end EditPc

/-! ## The steps of a request and the stores -/

section Stores

variable {id : Nat} {start sh sh' : ConfigStores} {pc pc' : EditPc}

/-- What the registry has of the changes of flags in the log. -/
def FlagsRegistered (sh : ConfigStores) : Prop :=
  Standing overriddenBy (fun x => ∀ f, x.2 = .flag f → f.InRegistry sh.registry) sh.log

/-- **The books are kept.** -/
theorem EditPc.Steps.books (h : EditPc.Steps id sh pc sh' pc') (hfits : pc.Fits sh)
    (hbooks : Books start sh) : Books start sh' := by
  cases h with
  | @endpointWritten original ep contents =>
    obtain ⟨hready, hwrite⟩ := hfits
    obtain ⟨hview, hadm⟩ := writeEndpoint_ok hwrite
    refine hbooks.commit hview hadm fun _ => ?_
    show (endpointEdit original ep).Admissible EndpointConfig.name sh.ledger.endpoints
    rw [hready.ledger]
    exact hready.admissible
  | removalWritten =>
    exact hbooks.commit (removeEndpoint_ok hfits) trivial fun hno => absurd trivial hno
  | @listWritten c e list contents =>
    obtain ⟨hlist, hadm, hcontents⟩ := hfits
    rw [hbooks.lists] at hlist hadm
    subst hlist hcontents
    refine hbooks.commit (setList_view _ _ _) hadm fun _ => ?_
    show e.Admissible c.key (sh.ledger.lists c)
    rw [hbooks.lists]
    exact hadm
  | observabilityWritten =>
    cases hfits
    exact hbooks.commit rfl trivial fun _ => trivial
  | flagSet => exact hbooks.flag rfl rfl rfl
  | flagsWritten =>
    cases hfits
    exact hbooks.congr persistFlags_view rfl rfl
  | _ => exact hbooks.congr rfl rfl rfl

theorem FlagsRegistered.commit (h : FlagsRegistered sh) {e : ConfigEdit} {contents : ConfigFile} :
    FlagsRegistered (sh.commit id e contents) :=
  Standing.push h (fun _ _ _ heffect => heffect) (fun f hf => by cases hf)

theorem NoFlags.commit {e : ConfigEdit} {contents : ConfigFile} (h : NoFlags sh) :
    NoFlags (sh.commit id e contents) := by
  intro x hx f hf
  rcases List.mem_cons.1 hx with rfl | hx
  · cases hf
  · exact h x hx f hf

theorem noFlags_of_nil (h : sh.log = []) : NoFlags sh := by
  intro x hx
  rw [h] at hx
  cases hx

section

variable (h : EditPc.Steps id sh pc sh' pc')
include h

/-- **The registry has the flags.** -/
theorem EditPc.Steps.flagsRegistered (hfits : pc.Fits sh) (hreg : FlagsRegistered sh) :
    FlagsRegistered sh' := by
  cases h with
  | @flagSet f answer hsome =>
    refine Standing.push hreg ?_ ?_
    · intro x _ hnot heffect f' hf'
      obtain ⟨flags, hflags, hholds⟩ := heffect f' hf'
      unfold FlagChange.InRegistry
      rw [ReloadState.flagsOf_setFlag, hflags]
      by_cases hname : f'.endpoint = f.endpoint
      · rw [if_pos hname]
        refine ⟨f.apply flags, rfl, hholds.apply fun htool => hnot ?_⟩
        show (Mutation.flag f).Overrides x.2
        rw [hf']
        exact ⟨hname.symm, htool⟩
      · rw [if_neg hname]
        exact ⟨flags, rfl, hholds⟩
    · intro f' hf'
      cases hf'
      obtain ⟨flags, hflags⟩ := Option.isSome_iff_exists.1 hsome
      refine ⟨f.apply flags, ?_, FlagChange.holds_apply⟩
      rw [ReloadState.flagsOf_setFlag, if_pos rfl, hflags]
      rfl
  | @diffApplied original ep old new =>
    obtain ⟨hpending, rfl, rfl⟩ := hfits
    exact hpending.inRegistry.imp fun x _ heffect f hf =>
      changedRegistry_inRegistry hpending (heffect f hf).1 (heffect f hf).2
  | endpointWritten => exact hreg.commit
  | removalWritten => exact hreg.commit
  | listWritten => exact hreg.commit
  | observabilityWritten => exact hreg.commit
  | _ => exact hreg

/-- What is in the log stays there, and what a request has written is in it. -/
theorem EditPc.Steps.logged (hlog : ∀ m, pc.logged = some m → (id, m) ∈ sh.log) :
    ∀ m, pc'.logged = some m → (id, m) ∈ sh'.log := by
  intro m hm
  cases h with
  | failed => cases hm
  | endpointWritten =>
    cases hm
    exact List.mem_cons_self
  | removalWritten =>
    cases hm
    exact List.mem_cons_self
  | listWritten =>
    cases hm
    exact List.mem_cons_self
  | observabilityWritten =>
    cases hm
    exact List.mem_cons_self
  | @flagSet f answer _ hanswer =>
    cases answer with
    | failure response => cases hm
    | success m' =>
      cases hm
      rw [hanswer m rfl]
      exact List.mem_cons_self
  | @listPublished c e list =>
    cases c with
    | profiles => exact hlog m hm
    | organizations => exact hlog m hm
  | @flagsMirrored f answer => cases answer <;> exact hlog m hm
  | @flagsRead f answer => cases answer <;> exact hlog m hm
  | @flagsWritten f answer => cases answer <;> exact hlog m hm
  | snapshotTaken => exact hlog m hm
  | diffApplied => exact hlog m hm
  | endpointPublished => exact hlog m hm
  | credentialsSaved => exact hlog m hm
  | observabilityPublished => exact hlog m hm
  | _ => cases hm

/-- **What a request relies on after its own step.** What it finds when it begins is what no other request
has still to see to. -/
theorem EditPc.Steps.fits (hfits : pc.Fits sh) (hreg : FlagsRegistered sh)
    (hendpoints : pc.inEndpoints = false → pc'.inEndpoints = true →
      sh.ledger.endpoints = sh.config.view.endpoints ∧ NamesRegistered sh.registry sh.config.endpoints)
    (hlists : ∀ c, pc.inList c = false → pc'.inList c = true → sh.config.list c = sh.ledger.lists c)
    (hmirrored : pc.inEndpoints = true → NoFlags sh ∨ Mirrored sh.registry sh.config.endpoints)
    (hwritten : pc.inEndpoints = true → NoFlags sh ∨ FlagsWritten sh.registry sh.file.endpoints) :
    pc'.Fits sh' := by
  cases h with
  | endpointValidated hadm hflags =>
    obtain ⟨hledger, hnames⟩ := hendpoints rfl rfl
    exact ⟨hadm, hflags, hnames, hledger⟩
  | endpointReserved => exact hfits
  | endpointRead hwrite => exact ⟨hfits, hwrite⟩
  | @endpointWritten original ep contents =>
    obtain ⟨hready, hwrite⟩ := hfits
    refine ⟨hready.admissible, hready.flags, hready.registered, ?_, ?_, ?_⟩
    · show ((ConfigEdit.endpoint (endpointEdit original ep)).published sh.ledger).endpoints = _
      have hno : ¬ (Mutation.edit (.endpoint (endpointEdit original ep))).IsDeletion := by
        cases original <;> exact fun hf => hf
      rw [published_eq hno]
      show (endpointEdit original ep).apply EndpointConfig.name sh.ledger.endpoints = _
      rw [hready.ledger]
      rfl
    · refine hreg.push ?_ fun f hf => by cases hf
      intro x _ hnot heffect f hf
      refine ⟨heffect f hf, ?_⟩
      by_contra hleaves
      refine hnot ?_
      show (Mutation.edit _).Overrides x.2
      rw [hf]
      exact hleaves
    · exact (hwritten rfl).imp NoFlags.commit (hready.expected hwrite)
  | snapshotTaken => exact ⟨hfits, rfl, rfl⟩
  | @diffApplied original ep old new =>
    obtain ⟨hpending, rfl, rfl⟩ := hfits
    refine ⟨rfl, changedRegistry_names hpending, ?_, ?_⟩
    · rw [changeEndpoint_view hpending.admissible]
      exact hpending.ledger
    · exact (hmirrored rfl).imp_right (changedRegistry_mirrored_new hpending)
  | removalRead hremove => exact hremove
  | profileChecked hadm =>
    have hlist := hlists .profiles rfl rfl
    rw [hlist] at hadm ⊢
    exact ⟨rfl, hadm⟩
  | organizationPrepared hadm =>
    have hlist := hlists .organizations rfl rfl
    exact ⟨hlist, hlist ▸ hadm⟩
  | organizationFound hadm =>
    have hlist := hlists .organizations rfl rfl
    exact ⟨hlist, hlist ▸ hadm⟩
  | organizationDropped => exact ⟨congrArg _ (hlists .organizations rfl rfl), trivial⟩
  | organizationResolved clientId => exact hfits
  | organizationAdded => exact ⟨congrArg _ hfits.1, hfits.2⟩
  | updateResolved clientId => exact ⟨congrArg _ hfits.1, hfits.2⟩
  | listRead => exact ⟨hfits.1, hfits.2, rfl⟩
  | @listWritten c e list contents =>
    show list = Function.update sh.ledger.lists c (e.apply c.key (sh.ledger.lists c)) c
    rw [Function.update_self]
    exact hfits.1
  | @listPublished c e list => cases c <;> trivial
  | flagsRead => rfl
  | observabilityRead => rfl
  | observabilityWritten => rfl
  | _ => trivial

/-! ### What is published -/

theorem EditPc.Steps.endpointsPublished (hfits : pc.Fits sh) (hpc' : pc'.endpointPending = false)
    (hold : pc.endpointPending = false → sh.ledger.endpoints = sh.config.view.endpoints) :
    sh'.ledger.endpoints = sh'.config.view.endpoints := by
  by_cases hpc : pc.inEndpoints = false
  · rw [h.ledger_endpoints hpc, h.config_view_endpoints hpc]
    exact hold (EditPc.endpointPending_eq_false hpc)
  · cases h with
    | @failed pc hfail response =>
      cases pc with
      | endpoint original pc =>
        cases pc with
        | reserving ep => exact hold rfl
        | reading ep => exact hold rfl
        | validating req => exact hold rfl
        | _ => cases hfail
      | _ => exact absurd rfl hpc
    | endpointReserved => exact hold rfl
    | endpointRead => exact hold rfl
    | endpointWritten => cases hpc'
    | snapshotTaken => cases hpc'
    | diffApplied => cases hpc'
    | @endpointPublished original ep new =>
      have hregistered : EndpointRegistered original ep new sh := hfits
      exact hregistered.ledger
    | _ => exact absurd rfl hpc

theorem EditPc.Steps.listPublishes (hfits : pc.Fits sh) {c : ConfigList}
    (hpc' : pc'.listPending c = false)
    (hold : pc.listPending c = false → sh.config.list c = sh.ledger.lists c) :
    sh'.config.list c = sh'.ledger.lists c := by
  by_cases hpc : pc.inList c = false
  · rw [h.ledger_lists hpc, h.config_list hfits hpc]
    exact hold (EditPc.listPending_eq_false hpc)
  · cases h with
    | listWritten => exact absurd hpc' hpc
    | @listPublished c' e list =>
      have hc : c' = c := by simpa [EditPc.inList] using hpc
      subst hc
      show (sh.config.setList c' list).list c' = _
      rw [setList_list, Function.update_self]
      exact hfits
    | @failed pc hfail response =>
      cases pc with
      | list c' e pc => cases hfail
      | _ => exact hold rfl
    | @endpointWritten original => exact absurd rfl hpc
    | removalWritten => exact absurd rfl hpc
    | observabilityWritten => exact absurd rfl hpc
    | endpointPublished => exact absurd rfl hpc
    | flagsMirrored => exact absurd rfl hpc
    | observabilityPublished => exact absurd rfl hpc
    | _ => exact hold rfl

theorem EditPc.Steps.observabilityPublishes (hfits : pc.Fits sh)
    (hpc' : pc'.observabilityPending = false)
    (hold : pc.observabilityPending = false → sh.ledger.observability = some sh.config.observability) :
    sh'.ledger.observability = some sh'.config.observability := by
  by_cases hpc : pc.inObservability = false
  · rw [h.ledger_observability hpc, h.config_observability hfits hpc]
    exact hold (EditPc.observabilityPending_eq_false hpc)
  · cases h with
    | observabilityWritten => cases hpc'
    | observabilityPublished => exact hfits
    | @failed pc hfail response =>
      cases pc with
      | observability new pc => cases hfail
      | _ => exact absurd rfl hpc
    | _ => exact absurd rfl hpc

theorem EditPc.Steps.namesRegistered (hfits : pc.Fits sh) (hpc' : pc'.registering = false)
    (hold : pc.registering = false → NamesRegistered sh.registry sh.config.endpoints) :
    NamesRegistered sh'.registry sh'.config.endpoints := by
  by_cases hpc : pc.inEndpoints = false
  · exact (hold (EditPc.registering_eq_false hpc)).step h hpc
  · cases h with
    | @failed pc hfail response =>
      cases pc with
      | endpoint original pc =>
        cases pc with
        | publishing ep new => cases hfail
        | _ => exact hold rfl
      | _ => exact hold rfl
    | diffApplied => cases hpc'
    | @endpointPublished original ep new =>
      have hregistered : EndpointRegistered original ep new sh := hfits
      exact hregistered.registered
    | endpointReserved => exact hold rfl
    | endpointRead => exact hold rfl
    | endpointWritten => exact hold rfl
    | snapshotTaken => exact hold rfl
    | _ => exact absurd rfl hpc

end

/-! ### Flags -/

theorem Mirrored.setList {registry : ReloadState} {cfg : ManagedConfig} {c : ConfigList}
    {list : List c.Entry} (h : Mirrored registry cfg.endpoints) :
    Mirrored registry (cfg.setList c list).endpoints := by
  rwa [setList_endpoints]

theorem EditPc.Steps.flagsMirroredIn (h : EditPc.Steps id sh pc sh' pc') (hfits : pc.Fits sh)
    (hpc' : pc'.mirroring = false)
    (hold : pc.mirroring = false → NoFlags sh ∨ Mirrored sh.registry sh.config.endpoints) :
    NoFlags sh' ∨ Mirrored sh'.registry sh'.config.endpoints := by
  cases h with
  | flagSet => cases hpc'
  | flagsMirrored => exact .inr mirrored_mirrorFlags
  | @failed pc hfail response =>
    cases pc with
    | flags f pc =>
      cases pc with
      | setting => exact hold rfl
      | _ => cases hfail
    | _ => exact hold rfl
  | @diffApplied original ep old new =>
    obtain ⟨hpending, rfl, rfl⟩ := hfits
    exact (hold rfl).imp_right (changedRegistry_mirrored_old hpending)
  | @endpointPublished original ep new =>
    have hregistered : EndpointRegistered original ep new sh := hfits
    exact hregistered.mirrored
  | listPublished => exact (hold rfl).imp_right Mirrored.setList
  | endpointWritten => exact (hold rfl).imp_left NoFlags.commit
  | removalWritten => exact (hold rfl).imp_left NoFlags.commit
  | listWritten => exact (hold rfl).imp_left NoFlags.commit
  | observabilityWritten => exact (hold rfl).imp_left NoFlags.commit
  | _ => exact hold rfl

/-- A file with no tables but those of another one. -/
theorem FlagsWritten.subset {registry : ReloadState} {tables tables' : List EndpointTable}
    (h : FlagsWritten registry tables) (hsub : ∀ t ∈ tables', t ∈ tables) :
    FlagsWritten registry tables' := by
  intro t ht
  exact h t (hsub t ht)

theorem EditPc.Steps.flagsWrittenIn (h : EditPc.Steps id sh pc sh' pc') (hfits : pc.Fits sh)
    (hpc' : pc'.inFlags = false)
    (hnames : pc.inFlags = true → NamesRegistered sh.registry sh.config.endpoints)
    (hmirrored : pc.mirroring = false → NoFlags sh ∨ Mirrored sh.registry sh.config.endpoints)
    (hold : pc.inFlags = false → NoFlags sh ∨ FlagsWritten sh.registry sh.file.endpoints) :
    NoFlags sh' ∨ FlagsWritten sh'.registry sh'.file.endpoints := by
  by_cases hpc : pc.inFlags = false
  · by_cases hend : pc.inEndpoints = false
    · rw [h.registry_eq hend hpc']
      exact (hold hpc).imp (h.noFlags hpc') fun hw => hw.subset (h.tables hfits hend hpc)
    · cases h with
      | @failed pc hfail response => exact hold hpc
      | endpointReserved => exact hold rfl
      | endpointRead => exact hold rfl
      | endpointWritten =>
        obtain ⟨hready, hwrite⟩ := hfits
        exact (hold rfl).imp NoFlags.commit (hready.flagsWritten hwrite)
      | snapshotTaken => exact hold rfl
      | @diffApplied original ep old new =>
        obtain ⟨hpending, rfl, rfl⟩ := hfits
        obtain hno | hm := hmirrored rfl
        · exact .inl hno
        · obtain hno | hw := hold rfl
          · exact .inl hno
          · exact hpending.tables.imp_right (changedRegistry_written hpending hm hw)
      | endpointPublished => exact hold rfl
      | _ => exact absurd rfl hend
  · cases h with
    | @failed pc hfail response =>
      cases pc with
      | flags f pc =>
        cases pc with
        | setting => exact absurd rfl hpc
        | _ => cases hfail
      | _ => exact absurd rfl hpc
    | flagSet => cases hpc'
    | flagsMirrored => cases hpc'
    | flagsRead => cases hpc'
    | flagsWritten =>
      cases hfits
      refine (hmirrored rfl).imp_right fun hm => ?_
      exact flagsWritten_persistFlags hm fun name => (hnames rfl name).1
    | _ => exact absurd rfl hpc

end Stores

/-! ## The invariant -/

/-- What is true of the stores, unless some request has still to see to it. -/
def Unless (todo : EditPc → Bool) (tasks : List EditTask) (P : Prop) : Prop :=
  (∀ t ∈ tasks, todo t.pc = false) → P

structure EditsInvariant (start : ConfigStores) (s : EditsState) : Prop where
  books : Books start s.shared
  registry : FlagsRegistered s.shared
  fits : ∀ t ∈ s.threads, t.pc.Fits s.shared
  logged : ∀ t ∈ s.threads, ∀ m, t.pc.logged = some m → (t.id, m) ∈ s.shared.log
  endpoints : Unless EditPc.endpointPending s.threads
    (s.shared.ledger.endpoints = s.shared.config.view.endpoints)
  lists : ∀ c, Unless (EditPc.listPending c) s.threads
    (s.shared.config.list c = s.shared.ledger.lists c)
  observability : Unless EditPc.observabilityPending s.threads
    (s.shared.ledger.observability = some s.shared.config.observability)
  names : Unless EditPc.registering s.threads
    (NamesRegistered s.shared.registry s.shared.config.endpoints)
  mirrored : Unless EditPc.mirroring s.threads
    (NoFlags s.shared ∨ Mirrored s.shared.registry s.shared.config.endpoints)
  written : Unless EditPc.inFlags s.threads
    (NoFlags s.shared ∨ FlagsWritten s.shared.registry s.shared.file.endpoints)

section Steps

variable {start sh' : ConfigStores} {s : EditsState} {i : Nat} {t t' : EditTask}
  {todo : EditPc → Bool} {P P' : Prop}

theorem Unless.of_others (h : Unless todo s.threads P) (hi : s.threads[i]? = some t)
    (hself : todo t.pc = false) (hother : ∀ j u, j ≠ i → s.threads[j]? = some u → todo u.pc = false) :
    P := by
  refine h fun u hu => ?_
  obtain ⟨j, hj⟩ := List.mem_iff_getElem?.1 hu
  by_cases hji : j = i
  · subst hji
    rw [hi] at hj
    cases hj
    exact hself
  · exact hother j u hji hj

theorem Unless.step (h : Unless todo s.threads P) (hi : s.threads[i]? = some t)
    (hstep : todo t'.pc = false → (todo t.pc = false → P) →
      (∀ j u, j ≠ i → s.threads[j]? = some u → todo u.pc = false) → P') :
    Unless todo (Pool.stepped s.threads i t' []) P' := by
  intro hall
  have hother (j : Nat) (u : EditTask) (hji : j ≠ i) (hj : s.threads[j]? = some u) : todo u.pc = false :=
    hall u (Pool.mem_stepped_of_ne hj hji)
  exact hstep (hall t' (Pool.mem_stepped_self hi)) (fun hself => h.of_others hi hself hother) hother

theorem Unless.launch (h : Unless todo s.threads P) : Unless todo (s.threads ++ [t]) P :=
  fun hall => h fun u hu => hall u (List.mem_append_left _ hu)

/-- A step of a request that meets the guard before it and conflicts with no other after it. -/
structure UndisturbedStep (s : EditsState) (i : Nat) (t : EditTask) (sh' : ConfigStores)
    (t' : EditTask) : Prop where
  place : s.threads[i]? = some t
  same : t'.id = t.id
  steps : EditPc.Steps t.id s.shared t.pc sh' t'.pc
  before : ∀ j u, j ≠ i → s.threads[j]? = some u → Apart t.pc u.pc
  after : ∀ j u, j ≠ i → s.threads[j]? = some u → Apart t'.pc u.pc
  publish : t.pc.publishes = true → ∀ u ∈ s.threads, u.pc.inConfig = false
  lock : t.pc.needsConfig = true → ∀ u ∈ s.threads, u.pc.locks = false

/-- **Every step keeps the invariant.** -/
theorem EditsInvariant.step (h : EditsInvariant start s) (hstep : UndisturbedStep s i t sh' t') :
    EditsInvariant start ⟨sh', Pool.stepped s.threads i t' []⟩ := by
  have hi := hstep.place
  have hst := hstep.steps
  have hmem := List.mem_of_getElem? hi
  have hfits := h.fits t hmem
  refine ⟨hst.books hfits h.books, hst.flagsRegistered hfits h.registry, ?_, ?_, ?_, ?_, ?_, ?_, ?_, ?_⟩
  · refine Pool.forall_mem_stepped ?_ (by simp) ?_
    · refine hst.fits hfits h.registry ?_ ?_ ?_ ?_
      · intro hpc hpc'
        have hothers (j : Nat) (u : EditTask) (hji : j ≠ i) (hj : s.threads[j]? = some u) :=
          ((hstep.after j u hji hj).endpoints hpc').1
        exact ⟨h.endpoints.of_others hi (EditPc.endpointPending_eq_false hpc)
            fun j u hji hj => EditPc.endpointPending_eq_false (hothers j u hji hj),
          h.names.of_others hi (EditPc.registering_eq_false hpc)
            fun j u hji hj => EditPc.registering_eq_false (hothers j u hji hj)⟩
      · intro c hpc hpc'
        exact (h.lists c).of_others hi (EditPc.listPending_eq_false hpc)
          fun j u hji hj => EditPc.listPending_eq_false ((hstep.after j u hji hj).lists c hpc')
      · intro hpc
        have hself := EditPc.mirroring_eq_false (EditPc.inFlags_eq_false hpc)
        exact h.mirrored.of_others hi hself
          fun j u hji hj => EditPc.mirroring_eq_false ((hstep.before j u hji hj).endpoints hpc).2
      · intro hpc
        exact h.written.of_others hi (EditPc.inFlags_eq_false hpc)
          fun j u hji hj => ((hstep.before j u hji hj).endpoints hpc).2
    · intro j u hji hj
      have hu := List.mem_of_getElem? hj
      refine EditPc.Fits.others (h.fits u hu) hst hfits (hstep.before j u hji hj).symm
        (hstep.after j u hji hj).symm ?_ ?_
      · exact not_both fun hpub => hstep.publish hpub u hu
      · exact not_both fun hneeds => hstep.lock hneeds u hu
  · refine Pool.forall_mem_stepped ?_ (by simp) ?_
    · rw [hstep.same]
      exact hst.logged (h.logged t hmem)
    · intro j u _ hj m hm
      exact hst.mem_log (h.logged u (List.mem_of_getElem? hj) m hm)
  · exact h.endpoints.step hi fun hpc' hold _ => hst.endpointsPublished hfits hpc' hold
  · exact fun c => (h.lists c).step hi fun hpc' hold _ => hst.listPublishes hfits hpc' hold
  · exact h.observability.step hi fun hpc' hold _ => hst.observabilityPublishes hfits hpc' hold
  · exact h.names.step hi fun hpc' hold _ => hst.namesRegistered hfits hpc' hold
  · exact h.mirrored.step hi fun hpc' hold _ => hst.flagsMirroredIn hfits hpc' hold
  · refine h.written.step hi fun hpc' hold hother => hst.flagsWrittenIn hfits hpc' ?_ ?_ hold
    · intro hpc
      exact h.names.of_others hi (EditPc.registering_eq_false (EditPc.inEndpoints_eq_false hpc))
        fun j u hji hj => EditPc.registering_eq_false ((hstep.before j u hji hj).flags hpc)
    · intro hself
      exact h.mirrored.of_others hi hself
        fun j u hji hj => EditPc.mirroring_eq_false (hother j u hji hj)

theorem EditsInvariant.launch (h : EditsInvariant start s) {req : EditRequest} {n : Nat} :
    EditsInvariant start { s with threads := s.threads ++ [⟨n, req.start⟩] } := by
  refine ⟨h.books, h.registry, ?_, ?_, h.endpoints.launch, fun c => (h.lists c).launch,
    h.observability.launch, h.names.launch, h.mirrored.launch, h.written.launch⟩
  · intro t ht
    rcases List.mem_append.1 ht with ht | ht
    · exact h.fits t ht
    · rw [List.mem_singleton.1 ht]
      cases req <;> trivial
  · intro t ht m hm
    rcases List.mem_append.1 ht with ht | ht
    · exact h.logged t ht m hm
    · rw [List.mem_singleton.1 ht] at hm
      cases req <;> cases hm

theorem EditsInvariant.init {sh : ConfigStores} (h : sh.Started) : EditsInvariant sh ⟨sh, []⟩ where
  books := by
    refine ⟨fun c => ?_, Unrepeated.refl _, ?_, ?_, ?_⟩
    · rw [h.ledger]
      exact h.lists c
    · rw [h.ledger]
      exact Unrepeated.refl _
    · rw [h.log]
      exact Standing.nil
    · rw [h.log]
      exact Standing.nil
  registry := by
    unfold FlagsRegistered
    rw [h.log]
    exact Standing.nil
  fits := List.forall_mem_nil _
  logged := List.forall_mem_nil _
  endpoints _ := congrArg ConfigView.endpoints h.ledger
  lists c _ := (congrFun (congrArg ConfigView.lists h.ledger) c).symm
  observability _ := congrArg ConfigView.observability h.ledger
  names _ := h.names
  mirrored _ := .inl (noFlags_of_nil h.log)
  written _ := .inl (noFlags_of_nil h.log)

end Steps

/-! ## Runs -/

section Runs

variable {start : ConfigStores} {s : EditsState}

/-- No two requests conflict. -/
def NoneConflict (s : EditsState) : Prop := s.threads.Pairwise fun t u => conflicting t u = false

theorem conflicting_comm (t u : EditTask) : conflicting t u = conflicting u t := by
  unfold conflicting
  grind

theorem NoneConflict.apart (h : NoneConflict s) {i j : Nat} {t u : EditTask}
    (hi : s.threads[i]? = some t) (hj : s.threads[j]? = some u) (hji : j ≠ i) : Apart t.pc u.pc := by
  refine apart_of ?_
  exact Pool.rel_of_ne (R := fun t u => conflicting t u = false)
    (fun t u htu => conflicting_comm t u ▸ htu) h hi hj hji

theorem noneConflict_of_undisturbed {a : EditsAction} (h : undisturbedEdits s a = true) : NoneConflict s := by
  unfold undisturbedEdits at h
  rw [Bool.and_eq_true] at h
  have hpairwise : s.threads.Pairwise fun t u => conflicting t u = false := of_decide_eq_true h.1
  exact hpairwise

theorem publish_of_undisturbed {i : Nat} {env : EditEnvironment} {t : EditTask}
    (h : undisturbedEdits s (.run i env) = true) (hi : s.threads[i]? = some t)
    (hpub : t.pc.publishes = true) : ∀ u ∈ s.threads, u.pc.inConfig = false := by
  unfold undisturbedEdits at h
  rw [Bool.and_eq_true] at h
  have hrun := h.2
  dsimp only at hrun
  rw [hi] at hrun
  simpa [hpub] using hrun

/-- **The invariant of the runs** the guard allows, in states without a conflict. -/
theorem editsInvariant_of
    (h : (configEdits start).system.ReachableWhile (fun s a => undisturbedEdits s a = true) s)
    (hnone : NoneConflict s) : EditsInvariant start s := by
  revert hnone
  refine Pool.invariant_of (I := fun _ => True) (J := fun s => NoneConflict s → EditsInvariant start s)
    (fun _ _ => trivial) ?_ ?_ ?_ h
  · rintro sh ⟨rfl, hstarted⟩ _
    exact EditsInvariant.init hstarted
  · intro s req t _ hJ hok hlaunch _
    cases hlaunch
    exact (hJ (noneConflict_of_undisturbed hok)).launch
  · intro s i env t sh' t' new _ hJ hok hi hstep hafter
    obtain ⟨⟨sh, u⟩, htask, heq⟩ := Option.map_eq_some_iff.1 hstep
    cases heq
    obtain ⟨hid, hsteps, hlock⟩ := EditTask.steps htask
    have hbefore := noneConflict_of_undisturbed hok
    refine (hJ hbefore).step ⟨hi, hid, hsteps, ?_, ?_, publish_of_undisturbed hok hi, hlock⟩
    · exact fun j u hji hj => hbefore.apart hi hj hji
    · intro j u hji hj
      exact hafter.apart (Pool.getElem?_stepped_self hi) (Pool.getElem?_stepped_of_ne hj hji) hji

theorem noneConflict_of_answered (h : AllAnswered s) : NoneConflict s := by
  refine List.pairwise_of_forall_mem_list fun t ht u hu => ?_
  obtain ⟨answer, hpc⟩ := h t ht
  unfold conflicting
  rw [hpc]
  rfl

theorem Unless.of_answered {todo : EditPc → Bool} {P : Prop} (h : Unless todo s.threads P)
    (hdone : AllAnswered s) (htodo : ∀ answer, todo (.answered answer) = false) : P := by
  refine h fun t ht => ?_
  obtain ⟨answer, hpc⟩ := hdone t ht
  rw [hpc]
  exact htodo answer

/-- **No acknowledged edit is lost.** When the cycles do not overlap, the file has every mutation that
none has overridden, and so has the config in memory, but for the endpoints that are deleted. -/
theorem config_edits_kept (start : ConfigStores) {s : EditsState}
    (hreach : (configEdits start).system.ReachableWhile (fun s a => undisturbedEdits s a = true) s)
    (hdone : AllAnswered s) : EditsKept start (fun m => ¬ m.IsDeletion) s := by
  have h := editsInvariant_of hreach (noneConflict_of_answered hdone)
  have hview : s.shared.ledger = s.shared.config.view := by
    have hendpoints := h.endpoints.of_answered hdone fun _ => rfl
    have hlists : s.shared.ledger.lists = s.shared.config.view.lists :=
      funext fun c => ((h.lists c).of_answered hdone fun _ => rfl).symm
    have hobs := h.observability.of_answered hdone fun _ => rfl
    cases hledger : s.shared.ledger with
    | mk endpoints lists observability =>
      rw [hledger] at hendpoints hlists hobs
      cases hendpoints
      cases hlists
      cases hobs
      rfl
  have hnames := h.names.of_answered hdone fun _ => rfl
  have hmirrored := h.mirrored.of_answered hdone fun _ => rfl
  have hwritten := h.written.of_answered hdone fun _ => rfl
  refine ⟨?_, ?_, ?_⟩
  · intro t ht m hm
    exact h.logged t ht m (by rw [hm]; rfl)
  · intro newer x older hlog hnot
    have hx : x ∈ s.shared.log := by simp [hlog]
    cases hm : x.2 with
    | edit e => exact h.books.inFile newer x older hlog hnot e hm
    | flag f =>
      intro table ht hname
      obtain ⟨flags, hflags, hholds⟩ := h.registry newer x older hlog hnot f hm
      have hw := hwritten.resolve_left fun hno => hno x hx f hm
      rw [hw table ht flags (hname ▸ hflags)]
      exact hholds
  · intro newer x older hlog hnot hpromised
    have hx : x ∈ s.shared.log := by simp [hlog]
    cases hm : x.2 with
    | edit e =>
      have heffect := h.books.inLedger newer x older hlog hnot e hm hpromised
      rw [hview] at heffect
      exact heffect
    | flag f =>
      obtain ⟨flags, hflags, hholds⟩ := h.registry newer x older hlog hnot f hm
      have hmem := (hnames f.endpoint).1 (hflags ▸ rfl)
      obtain ⟨ep, hep, hname⟩ := List.mem_map.1 hmem
      refine ⟨⟨ep, hep, hname⟩, fun ep hep hname => ?_⟩
      have hm := hmirrored.resolve_left fun hno => hno x hx f hm
      rw [hm ep hep flags (hname ▸ hflags)]
      exact hholds

/-! ### Requests on one endpoint -/

def mailEndpoint : EndpointConfig := { name := "mail", transport := .stdio, command := some "mail-server" }

def mailStores : ConfigStores where
  file := ⟨[endpointToTomlTable mailEndpoint], [], [], none⟩
  config := ⟨{ core := ⟨none, [mailEndpoint], []⟩ }, {}⟩
  registry := ⟨(∅ : ManagedEntries).insert "mail" (registeredAs mailEndpoint .starting), []⟩
  ledger := ManagedConfig.view ⟨{ core := ⟨none, [mailEndpoint], []⟩ }, {}⟩
  log := []

theorem mailStores_started : mailStores.Started where
  lists c := by cases c <;> rfl
  names name := by
    unfold ReloadState.flagsOf mailStores
    by_cases hname : name = "mail"
    · subst hname
      rw [AList.lookup_insert]
      exact ⟨fun _ => List.mem_singleton_self _, fun _ => rfl⟩
    · rw [AList.lookup_insert_ne hname]
      exact ⟨fun h => absurd h Bool.false_ne_true, fun h => absurd (List.mem_singleton.1 h) hname⟩
  ledger := rfl
  log := rfl

def mailEdits : EditsState := ⟨mailStores, []⟩

theorem mailEdits_init : (configEdits mailStores).system.init mailEdits := ⟨⟨rfl, mailStores_started⟩, rfl⟩

/-- The next steps of one request, with nothing unusual from the environment. -/
def editSteps (i n : Nat) : List EditsAction := List.replicate n (.run i {})

/-- The endpoint and one of its tools are disabled at the same time, and the observability settings are
changed. -/
def overlappingFlags : List EditsAction :=
  [.launch (.flag ⟨"mail", none, true⟩), .launch (.flag ⟨"mail", some "send", true⟩),
    .launch (.observability { enabled := false })] ++
  editSteps 0 2 ++ editSteps 1 1 ++ editSteps 0 2 ++ editSteps 1 3 ++ editSteps 2 3

def EditPc.isAnswered : EditPc → Bool
  | .answered _ => true
  | _ => false

theorem allAnswered_of (h : s.threads.all (fun t => t.pc.isAnswered) = true) : AllAnswered s := by
  intro t ht
  have hpc := List.all_eq_true.1 h t ht
  cases heq : t.pc with
  | answered answer => exact ⟨answer, rfl⟩
  | _ => rw [heq] at hpc; exact absurd hpc Bool.false_ne_true

theorem overlappingFlags_run : ∃ s,
    (configEdits mailStores).system.runWhile undisturbedEdits mailEdits overlappingFlags = some s ∧
      s.threads.all (fun t => t.pc.isAnswered) = true ∧
      s.shared.file.endpoints.map EndpointTable.flags = [(true, ["send"])] :=
  ⟨_, rfl, rfl, rfl⟩

theorem config_edits_kept_overlapping : ∃ s,
    (configEdits mailStores).system.runWhile undisturbedEdits mailEdits overlappingFlags = some s ∧
      EditsKept mailStores (fun m => ¬ m.IsDeletion) s ∧
      s.shared.file.endpoints.map EndpointTable.flags = [(true, ["send"])] := by
  obtain ⟨s, hrun, hanswered, hflags⟩ := overlappingFlags_run
  have hreach := (System.ReachableWhile.init mailEdits_init).run (fun _ _ h => h) hrun
  exact ⟨s, hrun, config_edits_kept mailStores hreach (allAnswered_of hanswered), hflags⟩

def deleteMail : List EditsAction := .launch (.deleteEndpoint "mail") :: editSteps 0 2

theorem deleteMail_run : ∃ s, (configEdits mailStores).system.run mailEdits deleteMail = some s ∧
    s.threads.all (fun t => t.pc.isAnswered) = true ∧
    s.shared.log = [(0, .edit (.endpoint (.remove "mail")))] ∧
    s.shared.config.endpoints = [mailEndpoint] :=
  ⟨_, rfl, rfl, rfl, rfl⟩

/-- The observability settings are changed between the read and the write of a deletion. -/
def overwriteSettings : List EditsAction :=
  [.launch (.deleteEndpoint "mail"), .launch (.observability { enabled := false })] ++
  editSteps 0 1 ++ editSteps 1 3 ++ editSteps 0 1

theorem overwriteSettings_run : ∃ s,
    (configEdits mailStores).system.run mailEdits overwriteSettings = some s ∧
    s.threads.all (fun t => t.pc.isAnswered) = true ∧
    s.shared.log = [(0, .edit (.endpoint (.remove "mail"))),
      (1, .edit (.observability { enabled := false }))] ∧
    s.shared.file.observability = none :=
  ⟨_, rfl, rfl, rfl, rfl⟩

/-- The handler of a deletion leaves the endpoint in memory, and what is written while it has the file
read is lost. -/
theorem overlapping_edits_lost :
    (∃ s, (configEdits mailStores).system.Reachable s ∧ AllAnswered s ∧
      s.shared.log.length = 1 ∧ ¬ EditsKept mailStores (fun _ => True) s) ∧
    ∃ s, (configEdits mailStores).system.Reachable s ∧ AllAnswered s ∧
      ¬ EditsKept mailStores (fun m => ¬ m.IsDeletion) s := by
  constructor
  · obtain ⟨s, hrun, hanswered, hlog, hconfig⟩ := deleteMail_run
    have hreach := (System.Reachable.init mailEdits_init).run hrun
    refine ⟨s, hreach, allAnswered_of hanswered, congrArg List.length hlog, fun h => ?_⟩
    have hgone := h.inConfig [] _ [] hlog (List.forall_mem_nil _) trivial
    have hmem : "mail" ∈ s.shared.config.view.endpoints.map EndpointConfig.name := by
      rw [mem_view_names, hconfig]
      exact List.mem_singleton_self _
    exact hgone hmem
  · obtain ⟨s, hrun, hanswered, hlog, hfile⟩ := overwriteSettings_run
    have hreach := (System.Reachable.init mailEdits_init).run hrun
    refine ⟨s, hreach, allAnswered_of hanswered, fun h => ?_⟩
    have hwritten : s.shared.file.observability = some { enabled := false } :=
      h.inFile [(0, .edit (.endpoint (.remove "mail")))] _ [] hlog
        (List.forall_mem_singleton.2 fun ho => ho)
    rw [hfile] at hwritten
    cases hwritten

end Runs

end EndaraRelay
