import EndaraRelay.ConfigLoadable

/-!
# An endpoint change and the file it wrote

`apply_endpoint_change` installs the endpoint of a request without reading back the file it has just
written. Is the relay then as if it had been started on that file?

**Consistency.** A relay is consistent with its file when its published config is what a graceful load makes
of the file, its registry is what a start builds from that (`startRelay`), and its profiles are those of the
file. The warnings of a load are kept nowhere but in the registry, as failed adapters.

**Theorem (`endpoint_change_consistent_iff`).** When the old name of an update is given once, the change
leaves the relay consistent exactly when it is `AppliedAsLoaded`: no profile is left with a reference to an
endpoint that is gone, a load makes of the request what the request says, it says of the other endpoints
what it said before, and a start builds the one of the request as the handler has left it.

The handler resolves no reference, looks at no warning, and leaves out of its diff what the hand-written
equality leaves out.
-/

namespace EndaraRelay

open Verif

/-! ## A relay that starts -/

/-- The registry of a relay that has started on a loaded config, all adapters built. -/
def startRelay (l : LoadedConfig) : ManagedEntries :=
  let cfg := l.config.core
  let firsts := firstEndpoints [] cfg.endpoints
  let registered := firsts.foldl (fun entries ep =>
    entries.insert ep.name (registeredAs ep (placeholder l.warnings ep))) ∅
  let flagged := cfg.endpoints.foldl applyDisabledState registered
  (firsts.filter fun ep => !isWarned l.warnings ep.name).foldl (installAtStartup cfg) flagged

/-- The entry a start leaves for the only endpoint of a name, given the message about it. -/
def startedEntry (cfg : Config) (msg : Option String) (ep : EndpointConfig) : ManagedEntry where
  adapter :=
    match msg with
    | some msg => ⟨.failed msg ep.serverTypeOverride, true⟩
    | none => ⟨startupAdapter cfg.insecure cfg.organizations ep, !ep.disabled⟩
  transport := ep.transport.display
  description := ep.description
  toolPrefix := ep.resolvedToolPrefix
  disabled := ep.disabled
  disabledTools := ep.disabledTools

/-- The endpoint that is registered under a name, with the flags of all those of the name. -/
def Config.registered (cfg : Config) (name : String) : Option EndpointConfig :=
  (firstEndpoints [] (cfg.named name)).getLast?.map fun ep =>
    { ep with disabled := (cfg.flagsOf name).1, disabledTools := (cfg.flagsOf name).2 }

/-- A start builds the same adapter from two messages about an endpoint. -/
def AdapterUnchanged (cfg : Config) (ep : EndpointConfig) : Option String → Option String → Prop
  | none, none => True
  | some msg, some msg' => msg = msg'
  | some msg, none => startupAdapter cfg.insecure cfg.organizations ep = .failed msg ep.serverTypeOverride ∧
      ep.disabled = false
  | none, some msg => startupAdapter cfg.insecure cfg.organizations ep = .failed msg ep.serverTypeOverride ∧
      ep.disabled = false

variable {cfg : Config} {msg : Option String} {l₁ l₂ : List EndpointTable}

section Start

variable {l l' : LoadedConfig} {name : String} {ep : EndpointConfig}

/-- Which endpoints of a name are registered depends on the endpoints of that name only. -/
theorem filter_firstEndpoints (name : String) (eps : List EndpointConfig) {registered registered' : List String}
    (h : name ∈ registered ↔ name ∈ registered') :
    (firstEndpoints registered eps).filter (fun ep => ep.name = name) =
      firstEndpoints registered' (eps.filter fun ep => ep.name = name) := by
  induction eps generalizing registered registered' with
  | nil => rfl
  | cons ep eps ih =>
    by_cases hname : ep.name = name
    · subst hname
      have hkeep : (ep :: eps).filter (fun u => u.name = ep.name) =
          ep :: eps.filter (fun u => u.name = ep.name) := List.filter_cons_of_pos (by simp)
      rw [hkeep]
      by_cases hskip : ep.name ≠ "" ∧ ep.name ∈ registered
      · have hskip' : ep.name ≠ "" ∧ ep.name ∈ registered' := ⟨hskip.1, h.1 hskip.2⟩
        rw [firstEndpoints, if_pos hskip, firstEndpoints, if_pos hskip']
        exact ih h
      · have hskip' : ¬ (ep.name ≠ "" ∧ ep.name ∈ registered') := fun h' => hskip ⟨h'.1, h.2 h'.2⟩
        rw [firstEndpoints, if_neg hskip, firstEndpoints, if_neg hskip', List.filter_cons_of_pos (by simp)]
        exact congrArg _ (ih (by simp))
    · have hrest : (ep :: eps).filter (fun ep => ep.name = name) =
          eps.filter (fun ep => ep.name = name) := List.filter_cons_of_neg (by simpa using hname)
      rw [hrest, firstEndpoints]
      split
      · exact ih h
      · rw [List.filter_cons_of_neg (by simpa using hname)]
        refine ih ?_
        rw [List.mem_cons, ← h]
        exact or_iff_right fun heq => hname heq.symm

theorem mem_of_firstEndpoints {registered : List String} {eps : List EndpointConfig}
    (h : ep ∈ firstEndpoints registered eps) : ep ∈ eps := by
  induction eps generalizing registered with
  | nil => exact absurd h List.not_mem_nil
  | cons e eps ih =>
    rw [firstEndpoints] at h
    split at h
    · exact List.mem_cons_of_mem _ (ih h)
    · rcases List.mem_cons.1 h with rfl | h
      · exact List.mem_cons_self
      · exact List.mem_cons_of_mem _ (ih h)

theorem foldl_registeredAs (ws : List EndpointValidationWarning) (firsts : List EndpointConfig) :
    firsts.foldl (fun _ ep => some (registeredAs ep (placeholder ws ep))) none =
      firsts.getLast?.map fun ep => registeredAs ep (placeholder ws ep) := by
  induction firsts using List.reverseRecOn with
  | nil => rfl
  | append_singleton firsts ep _ => simp

/-- Of the adapters installed under a name the last one stays. -/
theorem foldl_install (cfg : Config) (firsts : List EndpointConfig) (o : Option ManagedEntry) :
    firsts.foldl (fun o ep => o.map (ManagedEntry.install cfg ep)) o =
      match firsts.getLast? with
      | some ep => o.map (ManagedEntry.install cfg ep)
      | none => o := by
  induction firsts using List.reverseRecOn with
  | nil => rfl
  | append_singleton firsts ep ih =>
    rw [List.foldl_append, ih, List.getLast?_concat]
    cases firsts.getLast? <;> cases o <;> rfl

/-- **What a start leaves under a name**: the entry of the endpoint that is registered under it. -/
theorem startRelay_lookup (l : LoadedConfig) (name : String) :
    (startRelay l).lookup name =
      (l.config.core.registered name).map (startedEntry l.config.core (warningMessage l.warnings name)) := by
  have hinsert : ∀ (entries : ManagedEntries) (ep : EndpointConfig),
      (entries.insert ep.name (registeredAs ep (placeholder l.warnings ep))).lookup name =
        if decide (ep.name = name) then some (registeredAs ep (placeholder l.warnings ep))
        else entries.lookup name := by
    intro entries ep
    by_cases h : ep.name = name
    · subst h
      simp
    · simp [h, AList.lookup_insert_ne (Ne.symm h)]
  have hfirst := filter_firstEndpoints name l.config.core.endpoints (Iff.refl (name ∈ ([] : List String)))
  have hnames : ∀ e ∈ firstEndpoints [] (l.config.core.named name), e.name = name := fun e he =>
    (mem_named.1 (mem_of_firstEndpoints he)).2
  unfold startRelay Config.registered
  dsimp only
  rw [foldl_view (v := fun m => AList.lookup name m) (installAtStartup_lookup l.config.core name),
    foldl_view (v := fun m => AList.lookup name m) (applyDisabledState_lookup name),
    foldl_view (v := fun m => AList.lookup name m) (w := fun ep _ =>
      some (registeredAs ep (placeholder l.warnings ep))) hinsert,
    List.filter_comm, hfirst, filter_name_eq, AList.lookup_empty, foldl_registeredAs, foldl_setFlags,
    Option.map_map, Option.map_map]
  generalize hfirsts : firstEndpoints [] (l.config.core.named name) = firsts at hnames ⊢
  cases hw : warningMessage l.warnings name with
  | some msg =>
    have hnone : firsts.filter (fun ep => !isWarned l.warnings ep.name) = [] := by
      refine List.filter_eq_nil_iff.2 fun e he => ?_
      simp [hnames e he, isWarned, hw]
    rw [hnone, List.foldl_nil]
    cases hlast : firsts.getLast? with
    | none => rfl
    | some e =>
      obtain rfl := hnames e (List.mem_of_getLast? hlast)
      simp [registeredAs, placeholder, hw, startedEntry, ManagedEntry.setFlags, ManagedEntry.flags,
        Config.flagsOf]
      rfl
  | none =>
    have hall : firsts.filter (fun ep => !isWarned l.warnings ep.name) = firsts := by
      refine List.filter_eq_self.2 fun e he => ?_
      simp [hnames e he, isWarned, hw]
    rw [hall, foldl_install]
    cases hlast : firsts.getLast? with
    | none => rfl
    | some e =>
      obtain rfl := hnames e (List.mem_of_getLast? hlast)
      simp [registeredAs, placeholder, hw, startedEntry, ManagedEntry.setFlags, ManagedEntry.flags,
        Config.flagsOf, ManagedEntry.install]
      exact ⟨rfl, rfl⟩

theorem registered_absent (h : cfg.named name = []) : cfg.registered name = none := by
  unfold Config.registered
  rw [h]
  rfl

theorem registered_single (h : cfg.named name = [ep]) : cfg.registered name = some ep := by
  have hfirst : firstEndpoints [] [ep] = [ep] := by simp [firstEndpoints]
  have hflags : cfg.flagsOf name = (ep.disabled, ep.disabledTools) := by
    unfold Config.flagsOf
    rw [h]
    refine Prod.ext ?_ ?_
    · simp only [List.foldl_cons, List.foldl_nil, addFlags]
      cases ep.disabled <;> rfl
    · simp only [List.foldl_cons, List.foldl_nil, addFlags]
      by_cases ht : ep.disabledTools = []
      · simp [ht]
      · simp [ht]
  unfold Config.registered
  rw [hflags, h, hfirst]
  rfl

theorem startRelay_single (hnamed : l.config.core.named name = [ep]) :
    (startRelay l).lookup name = some (startedEntry l.config.core (warningMessage l.warnings name) ep) := by
  rw [startRelay_lookup, registered_single hnamed]
  rfl

theorem startedEntry_eq_iff {msg msg' : Option String} :
    startedEntry cfg msg ep = startedEntry cfg msg' ep ↔ AdapterUnchanged cfg ep msg msg' := by
  have hnone (msg : String) : startedEntry cfg none ep = startedEntry cfg (some msg) ep ↔
      startupAdapter cfg.insecure cfg.organizations ep = .failed msg ep.serverTypeOverride ∧
        ep.disabled = false := by
    simp [startedEntry]
  cases msg with
  | none =>
    cases msg' with
    | none => simp [AdapterUnchanged]
    | some msg' => exact hnone msg'
  | some msg =>
    cases msg' with
    | none => exact eq_comm.trans (hnone msg)
    | some msg' => simp [AdapterUnchanged, startedEntry]

/-- Two starts on the same endpoints of a name differ in the messages about them. -/
theorem startRelay_unchanged_iff (hnamed : l'.config.core.named name = l.config.core.named name)
    (hsame : l'.config.core.insecure = l.config.core.insecure ∧
      l'.config.core.organizations = l.config.core.organizations) :
    (startRelay l').lookup name = (startRelay l).lookup name ↔
      ∀ e ∈ l.config.core.registered name,
        AdapterUnchanged l.config.core e (warningMessage l'.warnings name) (warningMessage l.warnings name) := by
  have hregistered : l'.config.core.registered name = l.config.core.registered name := by
    unfold Config.registered Config.flagsOf
    rw [hnamed]
  have hentry (msg : Option String) (e : EndpointConfig) :
      startedEntry l'.config.core msg e = startedEntry l.config.core msg e := by
    unfold startedEntry
    rw [hsame.1, hsame.2]
  rw [startRelay_lookup, startRelay_lookup, hregistered]
  cases l.config.core.registered name with
  | none => simp
  | some e => simp [hentry, startedEntry_eq_iff]

end Start

/-! ## Resolving one endpoint among others -/

section Resolving

variable {env : Environment} {ws ws' : List EndpointValidationWarning} {ep : EndpointConfig}
  {eps : List EndpointConfig}

/-- Nothing has been said about the name. -/
def unwarned (ws : List EndpointValidationWarning) (name : String) : Bool :=
  ws.all fun w => w.endpointName ≠ name

theorem unwarned_append (ws suffix : List EndpointValidationWarning) (name : String) :
    unwarned (ws ++ suffix) name = (unwarned ws name && unwarned suffix name) :=
  List.all_append

theorem unwarned_of_names {names : List String} {name : String}
    (h : ∀ w ∈ ws, w.endpointName ∈ names) (hname : name ∉ names) : unwarned ws name = true :=
  List.all_eq_true.2 fun w hw => decide_eq_true fun heq => hname (heq ▸ h w hw)

/-- Resolving an endpoint looks at the warnings about its own name only, and adds but such. -/
theorem resolveEndpointGraceful_local (env : Environment) (h : unwarned ws ep.name = unwarned ws' ep.name) :
    ∃ r suffix, resolveEndpointGraceful env ws ep = (r, ws ++ suffix) ∧
      resolveEndpointGraceful env ws' ep = (r, ws' ++ suffix) ∧ ∀ w ∈ suffix, w.endpointName = ep.name := by
  unfold resolveEndpointGraceful
  cases resolveMap (resolveEnvValue env ep.name) ep.env with
  | error e => exact ⟨_, _, rfl, rfl, by simp⟩
  | ok envMap =>
    cases resolveMap (resolveHeaderValue env ep.name) ep.headers with
    | error e => exact ⟨_, _, rfl, rfl, by simp⟩
    | ok headersMap =>
      dsimp only
      have h : (ws.all fun w => w.endpointName ≠ ep.name) = ws'.all fun w => w.endpointName ≠ ep.name := h
      rw [h]
      split
      · exact ⟨_, [], by rw [List.append_nil], by rw [List.append_nil], List.forall_mem_nil _⟩
      · exact ⟨_, [], by rw [List.append_nil], by rw [List.append_nil], List.forall_mem_nil _⟩

theorem resolveEnvVarsGraceful_local (env : Environment) (h : ∀ ep ∈ eps, unwarned ws ep.name = unwarned ws' ep.name) :
    ∃ r suffix, resolveEnvVarsGraceful env ws eps = (r, ws ++ suffix) ∧
      resolveEnvVarsGraceful env ws' eps = (r, ws' ++ suffix) ∧
      ∀ w ∈ suffix, w.endpointName ∈ eps.map EndpointConfig.name := by
  induction eps generalizing ws ws' with
  | nil => exact ⟨[], [], by simp [resolveEnvVarsGraceful], by simp [resolveEnvVarsGraceful], by simp⟩
  | cons ep eps ih =>
    obtain ⟨hep, heps⟩ := List.forall_mem_cons.1 h
    obtain ⟨r, suffix, hr, hr', hnames⟩ := resolveEndpointGraceful_local env hep
    have hrest : ∀ u ∈ eps, unwarned (ws ++ suffix) u.name = unwarned (ws' ++ suffix) u.name := by
      intro u hu
      rw [unwarned_append, unwarned_append, heps u hu]
    obtain ⟨rs, suffixes, hrs, hrs', hnamess⟩ := ih hrest
    refine ⟨r :: rs, suffix ++ suffixes, ?_, ?_, ?_⟩
    · rw [resolveEnvVarsGraceful, hr]
      dsimp only
      rw [hrs, List.append_assoc]
    · rw [resolveEnvVarsGraceful, hr']
      dsimp only
      rw [hrs', List.append_assoc]
    · intro w hw
      rcases List.mem_append.1 hw with hw | hw
      · exact List.mem_cons.2 (.inl (hnames w hw))
      · exact List.mem_cons_of_mem _ (hnamess w hw)

theorem resolveEnvVarsGraceful_append (ws : List EndpointValidationWarning) (l₁ l₂ : List EndpointConfig) :
    resolveEnvVarsGraceful env ws (l₁ ++ l₂) =
      ((resolveEnvVarsGraceful env ws l₁).1 ++
          (resolveEnvVarsGraceful env (resolveEnvVarsGraceful env ws l₁).2 l₂).1,
        (resolveEnvVarsGraceful env (resolveEnvVarsGraceful env ws l₁).2 l₂).2) := by
  induction l₁ generalizing ws with
  | nil => rfl
  | cons ep l₁ ih =>
    rw [List.cons_append, resolveEnvVarsGraceful, resolveEnvVarsGraceful]
    dsimp only
    rw [ih]
    rfl

/-- **An endpoint whose name no other one has** is resolved as if it were alone, and the others as if it
were not there. -/
theorem resolve_middle (env : Environment) (l₁ l₂ : List EndpointConfig) :
    ∃ r₁ r₂, r₁.map EndpointConfig.name = l₁.map EndpointConfig.name ∧
      r₂.map EndpointConfig.name = l₂.map EndpointConfig.name ∧
      (resolveEnvVarsGraceful env [] (l₁ ++ l₂)).1 = r₁ ++ r₂ ∧
      ∀ x, x.name ∉ (l₁ ++ l₂).map EndpointConfig.name →
        (resolveEnvVarsGraceful env [] (l₁ ++ x :: l₂)).1 =
          r₁ ++ (resolveEndpointGraceful env [] x).1 :: r₂ := by
  have hnames (ws : List EndpointValidationWarning) (l : List EndpointConfig) :
      (resolveEnvVarsGraceful env ws l).1.map EndpointConfig.name = l.map EndpointConfig.name := by
    rw [← names_plain, resolveEnvVarsGraceful_plain, names_plain]
  have hself : ∀ u ∈ l₁, unwarned [] u.name = unwarned [] u.name := fun _ _ => rfl
  obtain ⟨r₁, s₁, h₁, -, hs₁⟩ := resolveEnvVarsGraceful_local env hself
  rw [List.nil_append] at h₁
  refine ⟨r₁, (resolveEnvVarsGraceful env s₁ l₂).1, ?_, hnames _ _, ?_, fun x hx => ?_⟩
  · have h := hnames [] l₁
    rwa [h₁] at h
  · rw [resolveEnvVarsGraceful_append, h₁]
  · rw [List.map_append, List.mem_append, not_or] at hx
    have hfresh : unwarned s₁ x.name = unwarned [] x.name := unwarned_of_names hs₁ hx.1
    obtain ⟨r, suffix, hr, hr', hsuffix⟩ := resolveEndpointGraceful_local env hfresh
    have hrest : ∀ u ∈ l₂, unwarned s₁ u.name = unwarned (s₁ ++ suffix) u.name := by
      intro u hu
      have hother : unwarned suffix u.name = true := by
        have hsingle : ∀ w ∈ suffix, w.endpointName ∈ [x.name] := fun w hw =>
          List.mem_singleton.2 (hsuffix w hw)
        refine unwarned_of_names hsingle fun hmem => hx.2 (List.mem_map.2 ⟨u, hu, ?_⟩)
        exact List.mem_singleton.1 hmem
      rw [unwarned_append, hother, Bool.and_true]
    obtain ⟨r₂, s₂, h₂, h₂', -⟩ := resolveEnvVarsGraceful_local env hrest
    rw [resolveEnvVarsGraceful_append, h₁]
    dsimp only
    rw [resolveEnvVarsGraceful, hr]
    dsimp only
    rw [h₂, h₂', hr']

end Resolving

/-! ## Consistency -/

namespace ManagedRelay

/-- The relay is as if it had been started on its file. -/
structure Consistent (env : Environment) (relay : RelayTable) (s : ManagedRelay) : Prop where
  loads : s.file.load env relay = .ok (s.file.loaded env relay)
  config : s.config = managedConfig (s.file.loaded env relay) s.file
  entries : ∀ name, s.registry.entries.lookup name = (startRelay (s.file.loaded env relay)).lookup name
  settled : s.registry.tasks = []
  profiles : s.profiles = profileMap s.file.profiles

/-- All initializations have finished. -/
def settle (s : ManagedRelay) : ManagedRelay :=
  { s with registry := ⟨s.registry.tasks.foldl finishInit s.registry.entries, []⟩ }

end ManagedRelay

/-- The handler rebuilds the adapter as a start does, given the message about the endpoint. -/
def RebuiltAsStarted (cfg : Config) (msg : Option String) (ep : EndpointConfig) : Prop :=
  match msg with
  | some msg => createAdapter cfg.insecure cfg.organizations ep = .failed msg ep.serverTypeOverride ∧
      ep.disabled = false
  | none => ¬ (ep.transport = .oauth ∧ isEmaEndpoint ep = true)

/-- The handler leaves the entry of an endpoint as a start builds it: rebuilt, or kept from the old one when
the diff finds no change. -/
def EntryAsLoaded (cfg : Config) (oldMsg msg : Option String) (old : Option EndpointConfig)
    (ep : EndpointConfig) : Prop :=
  match old with
  | some oldEp =>
    if oldEp.eq ep then startedEntry cfg oldMsg oldEp = startedEntry cfg msg ep
    else RebuiltAsStarted cfg msg ep
  | none => RebuiltAsStarted cfg msg ep

/-- An endpoint with the flags and the secret of a table. -/
def EndpointConfig.withKept (t : EndpointTable) (ep : EndpointConfig) : EndpointConfig :=
  { ep with disabled := t.flags.1, disabledTools := t.flags.2, clientSecret := t.clientSecret }

/-- What the handler does with a request is what a load makes of the file it writes: `file` before,
`file'` after. -/
structure AppliedAsLoaded (env : Environment) (relay : RelayTable) (file file' : ConfigFile)
    (original : Option String) (ep : EndpointConfig) : Prop where
  references : renameKept original ep.name file = true
  asGiven : (resolveEndpointGraceful env [] ep.written).1 = ep
  others : ∀ name, name ≠ ep.name → some name ≠ original →
    ∀ e ∈ (file.loaded env relay).config.core.registered name,
      AdapterUnchanged (file.loaded env relay).config.core e (warningMessage (file'.loaded env relay).warnings name)
        (warningMessage (file.loaded env relay).warnings name)
  entry : ∀ t ∈ file'.endpoints, t.name = ep.name →
    EntryAsLoaded (file'.loaded env relay).config.core
      (warningMessage (file.loaded env relay).warnings ep.name)
      (warningMessage (file'.loaded env relay).warnings ep.name)
      ((file.loaded env relay).config.core.endpoints.find? fun e => e.name = ep.name) (ep.withKept t)

section Change

variable {env : Environment} {relay : RelayTable} {file file' : ConfigFile} {original : Option String}
  {ep : EndpointConfig} {t : EndpointTable} {cfg : Config}

/-! ### Entries -/

theorem EndpointConfig.eq_self (ep : EndpointConfig) : ep.eq ep = true := EndpointConfig.eq_iff.2 rfl

/-- An entry that is rebuilt without warnings. -/
theorem rebuiltEntry_eq_startedEntry_iff :
    rebuiltEntry ⟨[], cfg.insecure, cfg.organizations⟩ ep (ep.disabled, ep.disabledTools) =
      startedEntry cfg msg ep ↔ RebuiltAsStarted cfg msg ep := by
  have hspec : createAdapter cfg.insecure cfg.organizations ep =
      startupAdapter cfg.insecure cfg.organizations ep ↔
        ¬ (ep.transport = .oauth ∧ isEmaEndpoint ep = true) :=
    eq_comm.trans (startupAdapter_eq_iff _ _ ep)
  unfold rebuiltEntry startedEntry RebuiltAsStarted
  rw [ManagedEntry.mk.injEq]
  cases msg with
  | none => simp [warningMessage, hspec]
  | some msg => simp [warningMessage]

/-- **What a change of the config leaves under a name**, all initializations finished. -/
theorem settled_lookup (old new : ManagedConfig) {registry : ReloadState} (hsettled : registry.tasks = [])
    (name : String) :
    ((applyConfig old new registry).tasks.foldl finishInit (applyConfig old new registry).entries).lookup name =
      match new.running.core.endpointMap.lookup name, old.running.core.endpointMap.lookup name with
      | none, none => registry.entries.lookup name
      | none, some _ => none
      | some ep, none => some (rebuiltEntry ⟨[], new.running.core.insecure, new.running.core.organizations⟩ ep
          (ep.disabled, ep.disabledTools))
      | some ep, some oldEp =>
        if oldEp.eq ep then registry.entries.lookup name
        else some (rebuiltEntry ⟨[], new.running.core.insecure, new.running.core.organizations⟩ ep
          (flagsAt (registry.entries.lookup name) ep)) := by
  have hat : registry.at name = (registry.entries.lookup name, []) := by
    unfold ReloadState.at
    rw [hsettled]
    rfl
  rw [foldl_finishInit_lookup, applyConfig, applyDiffGraceful_diff_at, hat]
  cases new.running.core.endpointMap.lookup name with
  | none => cases old.running.core.endpointMap.lookup name <;> rfl
  | some ep =>
    cases old.running.core.endpointMap.lookup name with
    | none => exact finish_registeredAt _ _ _
    | some oldEp =>
      dsimp only
      split
      · rfl
      · exact finish_registeredAt _ _ _

/-! ### Endpoints -/

theorem replaceF_middle {α : Type} {p : α → Option α} {l₁ l₂ : List α} {x y : α}
    (hbefore : ∀ u ∈ l₁, p u = none) (hy : p y = some x) :
    (l₁ ++ y :: l₂).replaceF p = l₁ ++ x :: l₂ := by
  induction l₁ with
  | nil => simp [List.replaceF, hy]
  | cons u l₁ ih =>
    obtain ⟨hu, hrest⟩ := List.forall_mem_cons.1 hbefore
    rw [List.cons_append, List.replaceF, hu]
    exact congrArg _ (ih hrest)

theorem resolveEndpointGraceful_withKept (ws : List EndpointValidationWarning) :
    (resolveEndpointGraceful env ws (ep.withKept t)).1 = (resolveEndpointGraceful env ws ep).1.withKept t := by
  have hname : (ep.withKept t).name = ep.name := rfl
  have henv : (ep.withKept t).env = ep.env := rfl
  have hheaders : (ep.withKept t).headers = ep.headers := rfl
  unfold resolveEndpointGraceful
  rw [hname, henv, hheaders]
  cases resolveMap (resolveEnvValue env ep.name) ep.env with
  | error e => rfl
  | ok envMap =>
    cases resolveMap (resolveHeaderValue env ep.name) ep.headers with
    | error e => rfl
    | ok headersMap =>
      dsimp only
      split <;> rfl

theorem table_config (h : t.settings = ep.written) : t.config = ep.written.withKept t := by
  unfold EndpointTable.config
  rw [h]
  rfl

theorem resolved_kept (env : Environment) (y : EndpointTable) :
    (resolveEndpointGraceful env [] y.config).1.flags = y.flags ∧
      (resolveEndpointGraceful env [] y.config).1.clientSecret = y.clientSecret ∧
      (resolveEndpointGraceful env [] y.config).1.name = y.name := by
  have hplain := resolveEndpointGraceful_plain env [] y.config
  have hname : (resolveEndpointGraceful env [] y.config).1.plain.name = y.config.plain.name := by rw [hplain]
  exact ⟨congrArg EndpointConfig.flags hplain, congrArg EndpointConfig.clientSecret hplain, hname⟩

/-- The name of a request is new, or the one that is updated. -/
theorem name_free (h : writeEndpoint ep original file = .ok file')
    (hplaced : EndpointPlaced ep original file file' l₁ l₂ t)
    (honce : ∀ orig, original = some orig → orig ∉ (l₁ ++ l₂).map EndpointTable.name) :
    ep.name ∉ (l₁ ++ l₂).map EndpointTable.name := by
  have hadm := (writeEndpoint_ok h).2
  have hnames : file.view.endpoints.map EndpointConfig.name = file.endpoints.map EndpointTable.name := by
    show (file.endpoints.map EndpointTable.settings).map EndpointConfig.name = _
    rw [List.map_map]
    rfl
  cases original with
  | none =>
    have hfree : ep.name ∉ file.view.endpoints.map EndpointConfig.name := hadm
    have hothers : file.endpoints = l₁ ++ l₂ := hplaced.others
    rwa [hnames, hothers] at hfree
  | some orig =>
    rcases hadm.2 with hsame | hfree
    · have hsame : ep.name = orig := hsame
      exact hsame ▸ honce orig rfl
    · have hfree : ep.name ∉ file.view.endpoints.map EndpointConfig.name := hfree
      rw [hnames, hplaced.names_iff] at hfree
      exact fun hmem => hfree (.inr hmem)

/-- The endpoints before a change, those that are published, and those that are loaded: they differ in one
place. -/
structure ChangedEndpoints (original : Option String) (ep : EndpointConfig) (t : EndpointTable)
    (loaded : EndpointConfig) (before published after r₁ r₂ : List EndpointConfig)
    (old : Option EndpointConfig) : Prop where
  before_eq : before = r₁ ++ (old.toList ++ r₂)
  published_eq : published = r₁ ++ ep.withKept t :: r₂
  after_eq : after = r₁ ++ loaded.withKept t :: r₂
  free : ep.name ∉ (r₁ ++ r₂).map EndpointConfig.name
  once : ∀ orig, original = some orig → orig ∉ (r₁ ++ r₂).map EndpointConfig.name
  kept : ∀ e ∈ old, original = some e.name ∧ e.flags = t.flags
  created : original = none → old = none
  replaced : ∀ orig, original = some orig → ∃ e, old = some e

theorem changedEndpoints {managed : ManagedConfig} (h : writeEndpoint ep original file = .ok file')
    (hplaced : EndpointPlaced ep original file file' l₁ l₂ t)
    (honce : ∀ orig, original = some orig → orig ∉ (l₁ ++ l₂).map EndpointTable.name)
    (hendpoints : managed.endpoints = (file.resolved env).1)
    (hkept : ep.flags = (false, []) ∧ ep.clientSecret = none) :
    ∃ r₁ r₂ old, ChangedEndpoints original ep t (resolveEndpointGraceful env [] ep.written).1
      (file.resolved env).1 (managed.changeEndpoint original ep).endpoints (file'.resolved env).1 r₁ r₂ old := by
  have hfree := name_free h hplaced honce
  obtain ⟨r₁, r₂, hr₁, hr₂, hothers, hmiddle⟩ :=
    resolve_middle env (l₁.map EndpointTable.config) (l₂.map EndpointTable.config)
  have hnames : (r₁ ++ r₂).map EndpointConfig.name = (l₁ ++ l₂).map EndpointTable.name := by
    rw [List.map_append, hr₁, hr₂, List.map_map, List.map_map, List.map_append]
    rfl
  have hconfigs : (l₁.map EndpointTable.config ++ l₂.map EndpointTable.config).map EndpointConfig.name =
      (l₁ ++ l₂).map EndpointTable.name := by
    rw [List.map_append, List.map_map, List.map_map, List.map_append]
    rfl
  have hname : t.name = ep.name := (congrArg EndpointConfig.name hplaced.settings).trans (name_written ep)
  have hafter : (file'.resolved env).1 =
      r₁ ++ (resolveEndpointGraceful env [] ep.written).1.withKept t :: r₂ := by
    have hnew := hmiddle t.config (by rw [hconfigs, config_name, hname]; exact hfree)
    rw [table_config hplaced.settings, resolveEndpointGraceful_withKept] at hnew
    rw [← hnew, hplaced.written]
    show (resolveEnvVarsGraceful env [] ((l₁ ++ t :: l₂).map EndpointTable.config)).1 = _
    rw [List.map_append, List.map_cons, table_config hplaced.settings]
  cases original with
  | none =>
    obtain ⟨rfl, rfl⟩ := hplaced.created rfl
    obtain rfl : r₂ = [] := by simpa using hr₂
    have hsame : ep.withKept (endpointToTomlTable ep) = ep := by
      cases ep
      simp only [EndpointConfig.flags, Prod.mk.injEq] at hkept
      obtain ⟨⟨rfl, rfl⟩, rfl⟩ := hkept
      rfl
    have hfile : file.endpoints = l₁ ++ [] := hplaced.others
    have hbefore : (file.resolved env).1 = r₁ := by
      unfold ConfigFile.resolved
      rw [hfile, List.append_nil]
      simpa using hothers
    refine ⟨r₁, [], none, ⟨?_, ?_, hafter, hnames ▸ hfree, fun orig horig => ?_, fun e he => ?_, fun _ => rfl,
      fun orig horig => ?_⟩⟩
    · rw [hbefore]
      simp
    · show managed.endpoints ++ [ep] = _
      rw [hendpoints, hbefore, hsame]
    · cases horig
    · cases he
    · cases horig
  | some orig =>
    obtain ⟨hbefore, y, hy, hfile, hflags, hsecret⟩ := hplaced.replaced orig rfl
    obtain ⟨hkeptFlags, hkeptSecret, hkeptName⟩ := resolved_kept env y
    have hold : (file.resolved env).1 = r₁ ++ (resolveEndpointGraceful env [] y.config).1 :: r₂ := by
      have hyfree : y.config.name ∉ (l₁.map EndpointTable.config ++
          l₂.map EndpointTable.config).map EndpointConfig.name := by
        rw [hconfigs, config_name, hy]
        exact honce orig rfl
      have hnew := hmiddle y.config hyfree
      unfold ConfigFile.resolved
      rw [hfile, List.map_append, List.map_cons]
      exact hnew
    have hnotr₁ : ∀ u ∈ r₁, ¬ u.name = orig := by
      intro u hu heq
      refine hbefore ?_
      have hmem : u.name ∈ r₁.map EndpointConfig.name := List.mem_map_of_mem hu
      rw [hr₁, List.map_map, heq] at hmem
      exact hmem
    refine ⟨r₁, r₂, some (resolveEndpointGraceful env [] y.config).1, ⟨hold, ?_, hafter, hnames ▸ hfree,
      fun orig' horig => ?_, fun e he => ?_, fun hnew => ?_, fun _ _ => ⟨_, rfl⟩⟩⟩
    · have hfind : managed.endpoints.find? (fun e => decide (e.name = orig)) =
          some (resolveEndpointGraceful env [] y.config).1 := by
        rw [hendpoints, hold, List.find?_append, List.find?_eq_none.2, Option.none_or]
        · simp [hkeptName, hy]
        · exact fun u hu => by simpa using hnotr₁ u hu
      unfold ManagedConfig.changeEndpoint
      dsimp only
      rw [hfind]
      dsimp only
      rw [setEndpoints_endpoints, hendpoints, hold]
      refine replaceF_middle (fun u hu => if_neg (hnotr₁ u hu)) ?_
      rw [if_pos (hkeptName.trans hy)]
      refine congrArg some ?_
      unfold EndpointConfig.withKept
      rw [hflags, hsecret, ← hkeptFlags, ← hkeptSecret]
      rfl
    · cases horig
      exact hnames ▸ honce orig rfl
    · cases he
      exact ⟨by rw [hkeptName, hy], hkeptFlags.trans hflags.symm⟩
    · cases hnew

/-! ### Names -/

section Names

variable {r₁ r₂ : List EndpointConfig} {o : Option EndpointConfig} {name : String}

theorem named_others (h : cfg.endpoints = r₁ ++ (o.toList ++ r₂)) (hne : ∀ e ∈ o, e.name ≠ name) :
    cfg.named name = (r₁ ++ r₂).filter fun e => e.name = name := by
  unfold Config.named
  rw [h, List.filter_append, List.filter_append, List.filter_append]
  cases o with
  | none => rfl
  | some e => simp [hne e rfl]

theorem named_middle (h : cfg.endpoints = r₁ ++ (o.toList ++ r₂))
    (hfree : name ∉ (r₁ ++ r₂).map EndpointConfig.name) :
    cfg.named name = (o.filter fun e => e.name = name).toList := by
  have hnone : (r₁ ++ r₂).filter (fun e => e.name = name) = [] := by
    refine List.filter_eq_nil_iff.2 fun e he heq => hfree ?_
    exact List.mem_map.2 ⟨e, he, of_decide_eq_true heq⟩
  rw [List.filter_append, List.append_eq_nil_iff] at hnone
  unfold Config.named
  rw [h, List.filter_append, List.filter_append, hnone.1, hnone.2, List.nil_append, List.append_nil]
  cases o with
  | none => rfl
  | some e =>
    by_cases heq : e.name = name
    · simp [heq, Option.filter_some]
    · simp [heq, Option.filter_some]

theorem endpointMap_of_named (h : cfg.named name = o.toList) : cfg.endpointMap.lookup name = o := by
  rw [endpointMap_lookup, h]
  cases o <;> rfl

theorem find?_of_named (h : cfg.named name = o.toList) : cfg.endpoints.find? (fun e => e.name = name) = o := by
  rw [← List.head?_filter]
  show (cfg.named name).head? = o
  rw [h]
  cases o <;> rfl

end Names

/-! ### The three parts -/

theorem withKept_inj {a b : EndpointConfig} (hflags : a.flags = b.flags)
    (hsecret : a.clientSecret = b.clientSecret) : a.withKept t = b.withKept t ↔ a = b := by
  refine ⟨fun h => ?_, fun h => h ▸ rfl⟩
  cases a
  cases b
  simp only [EndpointConfig.flags, Prod.mk.injEq] at hflags
  simp only [EndpointConfig.withKept, EndpointConfig.mk.injEq] at h
  simp only at hsecret
  simp only [EndpointConfig.mk.injEq]
  tauto

/-- A file loads when its profiles are sound. -/
theorem load_written_iff (hloads : file.load env relay = .ok (file.loaded env relay))
    (h : writeEndpoint ep original file = .ok file') :
    file'.load env relay = .ok (file'.loaded env relay) ↔ renameKept original ep.name file = true := by
  have hrest := (load_eq_ok.1 hloads).1
  rw [load_eq_ok, ← soundProfiles_written (validateProfiles_iff.1 hrest.profiles) h, ← validateProfiles_iff]
  exact ⟨fun h' => h'.1.profiles, fun h' => ⟨⟨h', hrest.writeDirs⟩, rfl⟩⟩

section Lists

variable {managed : ManagedConfig} {loaded : EndpointConfig} {registry : ReloadState}
  {before published after r₁ r₂ : List EndpointConfig} {old : Option EndpointConfig} {name : String}

section

variable (h : ChangedEndpoints original ep t loaded before published after r₁ r₂ old)
include h

theorem ChangedEndpoints.published_eq_after (hflags : loaded.flags = ep.flags)
    (hsecret : loaded.clientSecret = ep.clientSecret) : published = after ↔ loaded = ep := by
  rw [h.published_eq, h.after_eq, List.append_cancel_left_eq, List.cons.injEq,
    withKept_inj hflags.symm hsecret.symm]
  exact ⟨fun h' => h'.1.symm, fun h' => ⟨h'.symm, rfl⟩⟩

/-- The endpoint of a request, by its name, before the change and after it. -/
theorem ChangedEndpoints.named_changed {cfg new : Config} (hcfg : cfg.endpoints = before)
    (hnew : new.endpoints = published) :
    cfg.named ep.name = (old.filter fun e => e.name = ep.name).toList ∧
      new.named ep.name = (some (ep.withKept t)).toList := by
  refine ⟨named_middle (hcfg.trans h.before_eq) h.free, ?_⟩
  have hmiddle : new.endpoints = r₁ ++ ((some (ep.withKept t)).toList ++ r₂) := hnew.trans h.published_eq
  rw [named_middle hmiddle h.free, Option.filter_some]
  exact congrArg Option.toList (if_pos (decide_eq_true rfl))

theorem ChangedEndpoints.named_unchanged {cfg new : Config} (hcfg : cfg.endpoints = before)
    (hnew : new.endpoints = published) (hname : name ≠ ep.name) (horig : some name ≠ original) :
    new.named name = cfg.named name := by
  have hmiddle : new.endpoints = r₁ ++ ((some (ep.withKept t)).toList ++ r₂) := hnew.trans h.published_eq
  rw [named_others (hcfg.trans h.before_eq), named_others hmiddle]
  · intro e he heq
    cases he
    exact hname heq.symm
  · intro e he heq
    exact horig (heq ▸ (h.kept e he).1.symm)

theorem ChangedEndpoints.named_renamed {new : Config} (hnew : new.endpoints = published)
    (hname : name ≠ ep.name) (horig : original = some name) : new.named name = [] := by
  have hmiddle : new.endpoints = r₁ ++ ((some (ep.withKept t)).toList ++ r₂) := hnew.trans h.published_eq
  rw [named_middle hmiddle (h.once name horig), Option.filter_some, if_neg]
  · rfl
  · exact fun heq => hname (of_decide_eq_true heq).symm

end

variable (h : ChangedEndpoints original ep t loaded before published after r₁ r₂ old) {new : ManagedConfig}
  (hold : managed.endpoints = before) (hnew : new.endpoints = published) (hsettled : registry.tasks = [])

include h hold hnew hsettled

theorem ChangedEndpoints.settled_unchanged (hname : name ≠ ep.name) (horig : some name ≠ original) :
    ((applyConfig managed new registry).tasks.foldl finishInit
      (applyConfig managed new registry).entries).lookup name = registry.entries.lookup name := by
  rw [settled_lookup managed new hsettled, endpointMap_lookup, endpointMap_lookup,
    h.named_unchanged hold hnew hname horig]
  cases (managed.running.core.named name).getLast? with
  | none => rfl
  | some e => exact if_pos e.eq_self

theorem ChangedEndpoints.settled_renamed (hname : name ≠ ep.name) (horig : original = some name) :
    ((applyConfig managed new registry).tasks.foldl finishInit
      (applyConfig managed new registry).entries).lookup name = none := by
  obtain ⟨e, he⟩ := h.replaced name horig
  have hename : e.name = name := by
    have hsome := (h.kept e he).1
    rw [horig] at hsome
    exact (Option.some.inj hsome).symm
  have hnamed : managed.running.core.named name = (some e).toList := by
    have hmiddle := named_middle (hold.trans h.before_eq) (h.once name horig)
    rw [he, Option.filter_some, if_pos (decide_eq_true hename)] at hmiddle
    exact hmiddle
  rw [settled_lookup managed new hsettled, endpointMap_lookup, h.named_renamed hnew hname horig,
    endpointMap_of_named hnamed]
  rfl

/-- The entry of the endpoint that was changed. -/
theorem ChangedEndpoints.settled_changed
    (hsame : new.running.core.insecure = managed.running.core.insecure ∧
      new.running.core.organizations = managed.running.core.organizations) (msg' : Option String)
    (hentry : ∀ e, (old.filter fun e => e.name = ep.name) = some e →
      registry.entries.lookup ep.name = some (startedEntry managed.running.core msg e)) :
    ((applyConfig managed new registry).tasks.foldl finishInit
        (applyConfig managed new registry).entries).lookup ep.name =
          some (startedEntry new.running.core msg' (ep.withKept t)) ↔
      EntryAsLoaded new.running.core msg msg' (old.filter fun e => e.name = ep.name) (ep.withKept t) := by
  obtain ⟨hnamedOld, hnamedNew⟩ := h.named_changed hold hnew
  have hstarted (m : Option String) (e : EndpointConfig) :
      startedEntry managed.running.core m e = startedEntry new.running.core m e := by
    unfold startedEntry
    rw [hsame.1, hsame.2]
  rw [settled_lookup managed new hsettled, endpointMap_of_named hnamedOld, endpointMap_of_named hnamedNew]
  unfold EntryAsLoaded
  cases hprev : old.filter fun e => e.name = ep.name with
  | none =>
    dsimp only
    rw [Option.some.injEq]
    exact rebuiltEntry_eq_startedEntry_iff
  | some e =>
    have hlookup := hentry e hprev
    have hflags : flagsAt (registry.entries.lookup ep.name) (ep.withKept t) =
        ((ep.withKept t).disabled, (ep.withKept t).disabledTools) := by
      rw [hlookup]
      exact (h.kept e (Option.filter_eq_some_iff.1 hprev).1).2
    dsimp only
    rw [hflags]
    split
    · rw [hlookup, Option.some.injEq, hstarted]
    · rw [Option.some.injEq]
      exact rebuiltEntry_eq_startedEntry_iff

end Lists

/-! ### The change -/

variable {environment : EditEnvironment} {req : EndpointRequest} {s s' : ManagedRelay}

/-- What a change does, given the endpoint of its request. -/
theorem changeEndpoint_applied
    (hep : validateEndpointRequest environment.quote req s.config.endpoints original = .ok ep)
    (h : s.changeEndpoint environment req original = .ok s') :
    ∃ file', writeEndpoint ep original s.file = .ok file' ∧
      s' = { s with
        file := file'
        config := s.config.changeEndpoint original ep
        registry := applyConfig s.config (s.config.changeEndpoint original ep) s.registry } := by
  obtain ⟨_, -, h⟩ := bind_eq_ok.1 h
  obtain ⟨ep', hep', h⟩ := bind_eq_ok.1 h
  obtain ⟨_, -, h⟩ := bind_eq_ok.1 h
  obtain rfl : ep = ep' := Except.ok.inj (hep.symm.trans hep')
  exact applyEndpointChange_ok h

theorem changeEndpoint_running (managed : ManagedConfig) (original : Option String) (ep : EndpointConfig) :
    managed.changeEndpoint original ep =
      managed.setEndpoints (managed.changeEndpoint original ep).endpoints := by
  unfold ManagedConfig.changeEndpoint
  split
  · rfl
  · split <;> rfl

/-- The published config is what is loaded, when the endpoints are. -/
theorem published_eq_loaded_iff (hs : s.Consistent env relay)
    (hplaced : EndpointPlaced ep original s.file file' l₁ l₂ t) :
    s.config.changeEndpoint original ep = ManagedRelay.managedConfig (file'.loaded env relay) file' ↔
      (s.config.changeEndpoint original ep).endpoints = (file'.resolved env).1 := by
  constructor
  · intro hc
    rw [hc]
    rfl
  · intro hc
    rw [changeEndpoint_running, hc, hs.config, hplaced.written]
    rfl

/-- The registry, once the published endpoints are those that are loaded. -/
theorem entries_consistent_iff {loaded : EndpointConfig} {r₁ r₂ : List EndpointConfig}
    {old : Option EndpointConfig} (hs : s.Consistent env relay)
    (hplaced : EndpointPlaced ep original s.file file' l₁ l₂ t)
    (hfree : ep.name ∉ (l₁ ++ l₂).map EndpointTable.name)
    (hchanged : ChangedEndpoints original ep t loaded (s.file.resolved env).1
      (s.config.changeEndpoint original ep).endpoints (file'.resolved env).1 r₁ r₂ old)
    (hc : (s.config.changeEndpoint original ep).endpoints = (file'.resolved env).1) :
    (∀ name, ((applyConfig s.config (s.config.changeEndpoint original ep) s.registry).tasks.foldl finishInit
        (applyConfig s.config (s.config.changeEndpoint original ep) s.registry).entries).lookup name =
      (startRelay (file'.loaded env relay)).lookup name) ↔
    (∀ name, name ≠ ep.name → some name ≠ original →
      ∀ e ∈ (s.file.loaded env relay).config.core.registered name,
        AdapterUnchanged (s.file.loaded env relay).config.core e
          (warningMessage (file'.loaded env relay).warnings name)
          (warningMessage (s.file.loaded env relay).warnings name)) ∧
    ∀ u ∈ file'.endpoints, u.name = ep.name →
      EntryAsLoaded (file'.loaded env relay).config.core
        (warningMessage (s.file.loaded env relay).warnings ep.name)
        (warningMessage (file'.loaded env relay).warnings ep.name)
        ((s.file.loaded env relay).config.core.endpoints.find? fun e => e.name = ep.name)
        (ep.withKept u) := by
  have hold : s.config.endpoints = (s.file.resolved env).1 := by
    rw [hs.config]
    rfl
  have hcoreOld : s.config.running.core = (s.file.loaded env relay).config.core := by
    rw [hs.config]
    rfl
  have hcoreNew : (s.config.changeEndpoint original ep).running.core =
      (file'.loaded env relay).config.core := by
    rw [(published_eq_loaded_iff hs hplaced).2 hc]
    rfl
  obtain ⟨hnamedOld, hnamedNew⟩ := hchanged.named_changed hold rfl
  have hfind := find?_of_named hnamedOld
  rw [hcoreOld] at hnamedOld hfind
  rw [hcoreNew] at hnamedNew
  have hstart := startRelay_single hnamedNew
  have hentry : ∀ e, (old.filter fun e => e.name = ep.name) = some e →
      s.registry.entries.lookup ep.name = some (startedEntry s.config.running.core
        (warningMessage (s.file.loaded env relay).warnings ep.name) e) := by
    intro e he
    rw [he] at hnamedOld
    rw [hs.entries, hcoreOld]
    exact startRelay_single hnamedOld
  have hsame : (s.config.changeEndpoint original ep).running.core.insecure = s.config.running.core.insecure ∧
      (s.config.changeEndpoint original ep).running.core.organizations =
        s.config.running.core.organizations := by
    rw [changeEndpoint_running]
    exact ⟨rfl, rfl⟩
  have htable : ∀ u ∈ file'.endpoints, u.name = ep.name → u = t := by
    intro u hu hname
    rw [hplaced.written] at hu
    rcases List.mem_append.1 hu with hu | hu
    · exact absurd (List.mem_map.2 ⟨u, List.mem_append_left _ hu, hname⟩) hfree
    · rcases List.mem_cons.1 hu with rfl | hu
      · rfl
      · exact absurd (List.mem_map.2 ⟨u, List.mem_append_right _ hu, hname⟩) hfree
  have hmem : t ∈ file'.endpoints ∧ t.name = ep.name := by
    refine ⟨?_, (congrArg EndpointConfig.name hplaced.settings).trans (name_written ep)⟩
    rw [hplaced.written]
    exact List.mem_append_right _ List.mem_cons_self
  have hthis := hchanged.settled_changed hold rfl hs.settled hsame
    (warningMessage (file'.loaded env relay).warnings ep.name) hentry
  rw [hcoreNew] at hthis
  rw [hfind]
  have hothersIff : ∀ name, name ≠ ep.name → some name ≠ original →
      ((startRelay (file'.loaded env relay)).lookup name = (startRelay (s.file.loaded env relay)).lookup name ↔
        ∀ e ∈ (s.file.loaded env relay).config.core.registered name,
          AdapterUnchanged (s.file.loaded env relay).config.core e
            (warningMessage (file'.loaded env relay).warnings name)
            (warningMessage (s.file.loaded env relay).warnings name)) := by
    intro name hname horig
    refine startRelay_unchanged_iff ?_ ?_
    · rw [← hcoreNew, ← hcoreOld]
      exact hchanged.named_unchanged hold rfl hname horig
    · rw [← hcoreNew, ← hcoreOld]
      exact hsame
  constructor
  · intro hall
    refine ⟨fun name hname horig => (hothersIff name hname horig).1 ?_, fun u hu hname => ?_⟩
    · rw [← hall name, hchanged.settled_unchanged hold rfl hs.settled hname horig]
      exact hs.entries name
    · rw [htable u hu hname]
      exact hthis.1 ((hall ep.name).trans hstart)
  · rintro ⟨hothers, hmine⟩ name
    by_cases hname : name = ep.name
    · subst hname
      rw [hstart]
      exact hthis.2 (hmine t hmem.1 hmem.2)
    · by_cases horig : original = some name
      · have hnamed := hchanged.named_renamed rfl hname horig
        rw [hcoreNew] at hnamed
        rw [hchanged.settled_renamed hold rfl hs.settled hname horig, startRelay_lookup,
          registered_absent hnamed]
        rfl
      · have horig : some name ≠ original := fun heq => horig heq.symm
        rw [hchanged.settled_unchanged hold rfl hs.settled hname horig, hs.entries,
          (hothersIff name hname horig).2 (hothers name hname horig)]

/-- **An endpoint change leaves the relay as a start on the written file would**, exactly when what the
handler does with the request is what a load makes of the file. -/
theorem endpoint_change_consistent_iff (hs : s.Consistent env relay)
    (hep : validateEndpointRequest environment.quote req s.config.endpoints original = .ok ep)
    (h : s.changeEndpoint environment req original = .ok s')
    (honce : ∀ orig, original = some orig →
      orig ∉ (otherEndpoints original s.file).map EndpointTable.name) :
    s'.settle.Consistent env relay ↔ AppliedAsLoaded env relay s.file s'.file original ep := by
  obtain ⟨file', hwrite, rfl⟩ := changeEndpoint_applied hep h
  obtain ⟨l₁, l₂, t, hplaced⟩ := writeEndpoint_placed hwrite
  rw [hplaced.others] at honce
  have haccepted := (validateEndpointRequest_ok hep).1
  have hkept : ep.flags = (false, []) ∧ ep.clientSecret = none :=
    ⟨Prod.ext haccepted.flags.1 haccepted.flags.2, haccepted.clientSecret⟩
  have hbefore : s.config.endpoints = (s.file.resolved env).1 := by
    rw [hs.config]
    rfl
  obtain ⟨r₁, r₂, old, hchanged⟩ := changedEndpoints hwrite hplaced honce hbefore hkept
  have hplain := resolveEndpointGraceful_plain env [] ep.written
  have hgiven : (s.config.changeEndpoint original ep).endpoints = (file'.resolved env).1 ↔
      (resolveEndpointGraceful env [] ep.written).1 = ep := by
    refine hchanged.published_eq_after ?_ ?_
    · exact (congrArg EndpointConfig.flags hplain).trans hkept.1.symm
    · exact (congrArg EndpointConfig.clientSecret hplain).trans hkept.2.symm
  have hentries := entries_consistent_iff hs hplaced (name_free hwrite hplaced honce) hchanged
  have hloads := load_written_iff hs.loads hwrite
  have hpublished := published_eq_loaded_iff hs hplaced
  constructor
  · rintro ⟨hload, hconfig, hall, -, -⟩
    have hc := hpublished.1 hconfig
    obtain ⟨hothers, hentry⟩ := (hentries hc).1 hall
    exact ⟨hloads.1 hload, hgiven.1 hc, hothers, hentry⟩
  · rintro ⟨hreferences, hasGiven, hothers, hentry⟩
    have hc := hgiven.2 hasGiven
    refine ⟨hloads.2 hreferences, hpublished.2 hc, (hentries hc).2 ⟨hothers, hentry⟩, rfl, ?_⟩
    show s.profiles = profileMap file'.profiles
    rw [hs.profiles, hplaced.written]

end Change

/-! ### A request with a reference -/

def tokenEnvironment : Environment := ⟨fun varName => if varName = "TOKEN" then some "s3cret" else none, none⟩

def startedMail : ManagedRelay where
  file := mailFile
  config := ManagedRelay.managedConfig (mailFile.loaded tokenEnvironment {}) mailFile
  registry := ⟨startRelay (mailFile.loaded tokenEnvironment {}), []⟩
  profiles := profileMap mailFile.profiles

theorem startedMail_consistent : startedMail.Consistent tokenEnvironment {} :=
  ⟨rfl, rfl, fun _ => rfl, rfl, rfl⟩

/-- An endpoint whose environment refers to the variable. -/
def tokenRequest : EndpointRequest :=
  { name := "notes", transport := .stdio, command := some "notes", env := some [("TOKEN", "$TOKEN")] }

/-- The request without a reference is applied as it is loaded. -/
theorem notes_applied : ∃ ep s',
    validateEndpointRequest id notesRequest startedMail.config.endpoints none = .ok ep ∧
      startedMail.changeEndpoint {} notesRequest none = .ok s' ∧
      AppliedAsLoaded tokenEnvironment {} mailFile s'.file none ep := by
  have hunwarned : (mailFile.loaded tokenEnvironment {}).warnings = [] := rfl
  refine ⟨_, _, rfl, rfl, rfl, rfl, fun name _ _ e _ => ?_, fun t _ _ h => ?_⟩
  · rw [hunwarned]
    exact trivial
  · cases h.1

theorem endpoint_change_of_notes : ∃ s', startedMail.changeEndpoint {} notesRequest none = .ok s' ∧
    s'.settle.Consistent tokenEnvironment {} := by
  obtain ⟨ep, s', hep, h, happlied⟩ := notes_applied
  have honce : ∀ orig, none = some orig →
      orig ∉ (otherEndpoints none startedMail.file).map EndpointTable.name := fun orig horig => by cases horig
  exact ⟨s', h, (endpoint_change_consistent_iff startedMail_consistent hep h honce).2 happlied⟩

/-- **A reference is not resolved**: the adapter runs with `$TOKEN`, where a start on the written file gives
it the value of the variable. -/
theorem reference_not_resolved : startedMail.Consistent tokenEnvironment {} ∧
    ∃ s', startedMail.changeEndpoint {} tokenRequest none = .ok s' ∧
      (s'.settle.registry.entries.lookup "notes").map (·.adapter.spec) =
        some (.stdio "notes" [] [("TOKEN", "$TOKEN")] none "notes" (.fromConfigValue none) none []) ∧
      ((startRelay (s'.file.loaded tokenEnvironment {})).lookup "notes").map (·.adapter.spec) =
        some (.stdio "notes" [] [("TOKEN", "s3cret")] none "notes" (.fromConfigValue none) none []) ∧
      ¬ s'.settle.Consistent tokenEnvironment {} := by
  have hrun : ∃ s', startedMail.changeEndpoint {} tokenRequest none = .ok s' ∧
      (s'.settle.registry.entries.lookup "notes").map (·.adapter.spec) =
        some (.stdio "notes" [] [("TOKEN", "$TOKEN")] none "notes" (.fromConfigValue none) none []) ∧
      ((startRelay (s'.file.loaded tokenEnvironment {})).lookup "notes").map (·.adapter.spec) =
        some (.stdio "notes" [] [("TOKEN", "s3cret")] none "notes" (.fromConfigValue none) none []) :=
    ⟨_, rfl, rfl, rfl⟩
  obtain ⟨s', h, hhandler, hstart⟩ := hrun
  refine ⟨startedMail_consistent, s', h, hhandler, hstart, fun hs => ?_⟩
  have hfile : s'.settle.file = s'.file := rfl
  rw [hs.entries, hfile, hstart] at hhandler
  revert hhandler
  decide

end EndaraRelay
