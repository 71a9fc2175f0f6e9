import EndaraRelay.ReloadPaths

/-!
# The handles of the OAuth adapters

`oauth_adapter_inners` maps the name of an endpoint to the inner state of its OAuth adapter. A callback
hands its tokens to what it finds there, and the adapter that serves requests is the one that the registry
has under the name. The two should be the same.

**The model.** `create_adapter` puts the handle into the map while it builds the adapter, and whoever has
asked for the adapter installs it later. The adapters built when the relay starts, restarts and reloads
interleave at every `await`. Creating an endpoint, changing or renaming it and deleting it rewrite the file,
and what the reloads load is up to the environment.

**The slips.** Nothing takes a handle out of the map: it outlives the endpoint and its transport. And of
two adapters built for one name at the same time, the one installed last need not be the one that was put
into the map last.

**Theorem (`handles_track`).** In every run whose operations `conform` the map has the handles of the OAuth
adapters that are installed, and no others, once all operations have finished.
-/

namespace EndaraRelay

open Verif

/-! ## The map and the registry -/

structure OAuthHandles where
  /-- The registry: the inner state of the adapter of an entry, if it is an OAuth adapter. -/
  entries : Table String (Option Nat)
  /-- `oauth_adapter_inners`. -/
  inners : Table String Nat
  config : Config
  /-- How many inner states there have been. -/
  built : Nat

namespace OAuthHandles

variable (sh : OAuthHandles)

/-- The inner state of the OAuth adapter that serves the requests for an endpoint. -/
def serving (name : String) : Option Nat := (sh.entries.lookup name).join

/-- The map has an entry exactly for the endpoints whose adapter is an OAuth adapter, the handle of that
adapter. -/
def Tracks : Prop := ∀ name, sh.inners.lookup name = sh.serving name

/-- An OAuth adapter is built, and its handle put into the map. -/
def build (name : String) : OAuthHandles :=
  { sh with inners := sh.inners.insert name sh.built, built := sh.built + 1 }

/-- `registry.register` of a placeholder or of a failed adapter. -/
def register (name : String) : OAuthHandles := { sh with entries := sh.entries.insert name none }

def remove (name : String) : OAuthHandles := { sh with entries := sh.entries.erase name }

/-- `entry.adapter = adapter`, if the entry is still there. -/
def install (name : String) (adapter : Option Nat) : OAuthHandles :=
  { sh with entries := sh.entries.modify name fun _ => adapter }

end OAuthHandles

/-! ## The operations -/

inductive HandleOp where
  /-- An endpoint of the config that the relay starts with, and whether it has warnings. -/
  | startup (ep : EndpointConfig) (warned : Bool)
  | restart (name : String)
  | reload (load : Except String LoadedConfig)

inductive HandlePc where
  | startup (ep : EndpointConfig) (warned : Bool)
  /-- The handle is in the map; the placeholder is registered next. -/
  | placing (name : String) (inner : Nat)
  | restart (name : String)
  /-- The placeholder is in; the config is read next. -/
  | restarting (name : String) (old : Option Nat)
  /-- The endpoint is not in the config: the previous adapter is initialized again next. -/
  | again (name : String) (old : Option Nat)
  | building (name : String) (adapter : AdapterSpec)
  | installing (name : String) (adapter : Option Nat)
  /-- The file is loaded; the published config is read next. -/
  | loaded (l : LoadedConfig)
  | applying (l : LoadedConfig) (todo : List ReloadOp)
  | done

/-- Where an operation starts. A load that fails changes nothing. -/
def HandleOp.pc : HandleOp → HandlePc
  | .startup ep warned => .startup ep warned
  | .restart name => .restart name
  | .reload (.ok l) => .loaded l
  | .reload (.error _) => .done

namespace HandlePc

/-- `create_adapter`, up to where the handle is in the map. The discovery of an EMA endpoint may fail, and
then there is no OAuth adapter. -/
def create (sh : OAuthHandles) (name : String) (discovered : Bool) : AdapterSpec → OAuthHandles × HandlePc
  | .oauth .. => (sh.build name, .installing name (some sh.built))
  | .ema .. => if discovered then (sh.build name, .installing name (some sh.built)) else (sh, .installing name none)
  | _ => (sh, .installing name none)

/-- One operation of a reload. The flags of an entry play no role here. -/
def applyOp (sh : OAuthHandles) (l : LoadedConfig) (todo : List ReloadOp) :
    ReloadOp → OAuthHandles × HandlePc × List HandlePc
  | .remove name => (sh.remove name, .applying l todo, [])
  | .change name ep => (sh, .applying l (.replace name ep (false, []) :: todo), [])
  | .replace name ep flags => (sh.remove name, .applying l (.register name ep flags true :: todo), [])
  | .register name ep flags set =>
    (sh.register name, .applying l ((if set then some (.setFlags name ep flags)
      else l.inputs.afterFlags name ep flags).toList ++ todo), [])
  | .setFlags name ep flags => (sh, .applying l ((l.inputs.afterFlags name ep flags).toList ++ todo), [])
  | .spawn name ep _ =>
    (sh, .applying l todo,
      [.building name (createAdapter l.inputs.allowInsecure l.inputs.organizations ep)])

/-- What a thread does next. The choice says whether a discovery or a handshake comes about. -/
def step (sh : OAuthHandles) (ok : Bool) : HandlePc → Option (OAuthHandles × HandlePc × List HandlePc)
  | .startup ep true => some (sh.register ep.name, .done, [])
  | .startup ep false =>
    if ep.transport = .oauth then some (sh.build ep.name, .placing ep.name sh.built, [])
    else some (sh.register ep.name,
      .building ep.name (createAdapter sh.config.insecure sh.config.organizations ep), [])
  | .placing name inner => some (sh.register name, .installing name (some inner), [])
  | .restart name =>
    match sh.entries.lookup name with
    | none => some (sh, .done, [])
    | some old => some (sh.install name none, .restarting name old, [])
  | .restarting name old =>
    match sh.config.endpoints.find? fun ep => ep.name = name with
    | some ep =>
      some (sh, .building name (createAdapter sh.config.insecure sh.config.organizations ep), [])
    | none => some (sh, .again name old, [])
  | .again name old => some (sh, .installing name (if ok then old else none), [])
  | .building name adapter => some ((create sh name ok adapter).1, (create sh name ok adapter).2, [])
  | .installing name adapter => some (sh.install name adapter, .done, [])
  | .loaded l => some (sh, .applying l (diffConfigs sh.config l.config.core).ops, [])
  | .applying l [] => some ({ sh with config := l.config.core }, .done, [])
  | .applying l (op :: todo) => some (applyOp sh l todo op)
  | .done => none

/-- The operation has begun with the endpoint and is not through with it. -/
def concerns (name : String) : HandlePc → Bool
  | .startup ep _ => ep.name = name
  | .placing n _ | .restarting n _ | .again n _ | .building n _ | .installing n _ => n = name
  | .applying _ todo => todo.any fun op => op.subject = name
  | .restart _ | .loaded _ | .done => false

/-- What the registry has under the name of an endpoint when the operation is through with it, one step from
here. -/
def leaves (sh : OAuthHandles) : HandlePc → Option (String × Option Nat)
  | .startup ep true => some (ep.name, none)
  | .installing name adapter => some (name, if (sh.entries.lookup name).isSome then adapter else none)
  | .applying _ (.remove name :: _) => some (name, none)
  | .applying l (.register name _ _ false :: _) => if isWarned l.warnings name then some (name, none) else none
  | .applying l (.setFlags name _ _ :: _) => if isWarned l.warnings name then some (name, sh.serving name) else none
  | _ => none

end HandlePc

/-- Startup, restarts and reloads over one registry and one map. -/
def oauthHandles : Pool OAuthHandles HandlePc HandleOp Bool where
  init sh := sh.entries = ∅ ∧ sh.inners = ∅
  launch _ _ op := some op.pc
  step sh _ pc ok := pc.step sh ok

abbrev HandlesState := Pool.State OAuthHandles HandlePc

/-- An operation that is through with an endpoint leaves it with the adapter whose handle the map has, and
without an OAuth adapter when the map has no handle; or another operation is not through with it. -/
def conforms (s : HandlesState) : Pool.Action HandleOp Bool → Bool
  | .launch _ => true
  | .run i _ =>
    match (s.threads[i]?).bind fun pc => pc.leaves s.shared with
    | none => true
    | some (name, adapter) =>
      s.shared.inners.lookup name = adapter || (s.threads.eraseIdx i).any fun pc => pc.concerns name

/-! ## What a step does to one endpoint -/

section Steps

variable {sh sh' : OAuthHandles} {pc pc' : HandlePc} {new : List HandlePc} {ok : Bool} {name m : String}
  {adapter : Option Nat}

theorem serving_register : (sh.register name).serving m = if m = name then none else sh.serving m := by
  unfold OAuthHandles.serving OAuthHandles.register
  split
  · next hm =>
    subst hm
    rw [AList.lookup_insert]
    rfl
  · next hm => rw [AList.lookup_insert_ne hm]

theorem serving_remove : (sh.remove name).serving m = if m = name then none else sh.serving m := by
  unfold OAuthHandles.serving OAuthHandles.remove
  split
  · next hm =>
    subst hm
    rw [AList.lookup_erase]
    rfl
  · next hm => rw [AList.lookup_erase_ne hm]

theorem serving_install : (sh.install name adapter).serving m =
    if m = name then (if (sh.entries.lookup name).isSome then adapter else none) else sh.serving m := by
  unfold OAuthHandles.serving OAuthHandles.install
  split
  · next hm =>
    subst hm
    rw [AList.lookup_modify_self]
    cases sh.entries.lookup m <;> rfl
  · next hm => rw [AList.lookup_modify_ne hm]

/-- Nothing changes for the endpoint. -/
def SameFor (sh sh' : OAuthHandles) (m : String) : Prop :=
  sh'.serving m = sh.serving m ∧ sh'.inners.lookup m = sh.inners.lookup m

theorem sameFor_register (hm : m ≠ name) : SameFor sh (sh.register name) m :=
  ⟨by rw [serving_register, if_neg hm], rfl⟩

theorem sameFor_remove (hm : m ≠ name) : SameFor sh (sh.remove name) m :=
  ⟨by rw [serving_remove, if_neg hm], rfl⟩

theorem sameFor_install (hm : m ≠ name) : SameFor sh (sh.install name adapter) m :=
  ⟨by rw [serving_install, if_neg hm], rfl⟩

theorem sameFor_build (hm : m ≠ name) : SameFor sh (sh.build name) m :=
  ⟨rfl, AList.lookup_insert_ne hm⟩

/-- What a step does to the endpoint `m`: nothing, and it is none of its business; or the endpoint is still
its business, or that of a task it has spawned; or it is through with it. -/
inductive Effect (sh : OAuthHandles) (pc : HandlePc) (sh' : OAuthHandles) (pc' : HandlePc)
    (new : List HandlePc) (m : String) : Prop where
  | none (same : SameFor sh sh' m) (idle : pc.concerns m = false)
  | working (busy : pc'.concerns m = true ∨ ∃ u ∈ new, u.concerns m = true)
  | through (adapter : Option Nat) (leaves : pc.leaves sh = some (m, adapter))
      (serving : sh'.serving m = adapter) (inners : sh'.inners.lookup m = sh.inners.lookup m)

theorem effect_applyOp {l : LoadedConfig} {op : ReloadOp} {todo : List ReloadOp}
    (h : HandlePc.applyOp sh l todo op = (sh', pc', new)) (m : String) :
    Effect sh (.applying l (op :: todo)) sh' pc' new m := by
  by_cases htodo : todo.any (fun op => op.subject = m) = true
  · -- the operation comes to the endpoint again
    refine .working (.inl ?_)
    cases op <;> cases h <;> simp_all [HandlePc.concerns]
  by_cases hm : m = op.subject
  · subst hm
    cases op with
    | remove name =>
      cases h
      exact .through none rfl (by rw [serving_remove, ReloadOp.subject, if_pos rfl]) rfl
    | change name ep | replace name ep flags =>
      cases h
      exact .working (.inl (by simp [HandlePc.concerns, ReloadOp.subject]))
    | register name ep flags set =>
      cases h
      cases set with
      | true => exact .working (.inl (by simp [HandlePc.concerns, ReloadOp.subject]))
      | false =>
        cases hw : isWarned l.warnings name with
        | true =>
          refine .through none ?_ (by rw [serving_register, ReloadOp.subject, if_pos rfl]) rfl
          simp [HandlePc.leaves, ReloadOp.subject, hw]
        | false =>
          refine .working (.inl ?_)
          simp [HandlePc.concerns, ReloadOp.subject, ReloadInputs.afterFlags, LoadedConfig.inputs, hw]
    | setFlags name ep flags =>
      cases h
      cases hw : isWarned l.warnings name with
      | true =>
        refine .through (sh.serving name) ?_ rfl rfl
        simp [HandlePc.leaves, ReloadOp.subject, hw]
      | false =>
        refine .working (.inl ?_)
        simp [HandlePc.concerns, ReloadOp.subject, ReloadInputs.afterFlags, LoadedConfig.inputs, hw]
    | spawn name ep flags =>
      cases h
      exact .working (.inr ⟨_, List.mem_singleton.2 rfl, decide_eq_true rfl⟩)
  · have hidle : (HandlePc.applying l (op :: todo)).concerns m = false := by
      simp only [HandlePc.concerns, List.any_cons, Bool.or_eq_false_iff, decide_eq_false_iff_not]
      exact ⟨fun hop => hm hop.symm, Bool.eq_false_iff.2 htodo⟩
    refine .none ?_ hidle
    cases op with
    | remove name | replace name ep flags =>
      cases h
      exact sameFor_remove hm
    | register name ep flags set =>
      cases h
      exact sameFor_register hm
    | change | setFlags | spawn =>
      cases h
      exact ⟨rfl, rfl⟩

/-- An OAuth adapter is built, or nothing happens yet. -/
theorem create_cases (sh : OAuthHandles) (name : String) (ok : Bool) (adapter : AdapterSpec) :
    HandlePc.create sh name ok adapter = (sh.build name, .installing name (some sh.built)) ∨
      HandlePc.create sh name ok adapter = (sh, .installing name none) := by
  cases adapter with
  | oauth => exact .inl rfl
  | ema =>
    cases ok with
    | true => exact .inl rfl
    | false => exact .inr rfl
  | _ => exact .inr rfl

theorem effect_create {spec : AdapterSpec} (m : String) :
    Effect sh (.building name spec) (HandlePc.create sh name ok spec).1 (HandlePc.create sh name ok spec).2
      new m := by
  by_cases hm : name = m
  · refine .working (.inl ?_)
    rcases create_cases sh name ok spec with h | h <;> rw [h] <;> exact decide_eq_true hm
  · refine .none ?_ (decide_eq_false hm)
    rcases create_cases sh name ok spec with h | h <;> rw [h]
    · exact sameFor_build (Ne.symm hm)
    · exact ⟨rfl, rfl⟩

/-- **One step and one endpoint.** -/
theorem effect_step (h : pc.step sh ok = some (sh', pc', new)) (m : String) : Effect sh pc sh' pc' new m := by
  cases pc with
  | startup ep warned =>
    cases warned with
    | true =>
      cases h
      by_cases hm : ep.name = m
      · subst hm
        exact .through none rfl (by rw [serving_register, if_pos rfl]) rfl
      · exact .none (sameFor_register (Ne.symm hm)) (decide_eq_false hm)
    | false =>
      unfold HandlePc.step at h
      dsimp only at h
      by_cases hm : ep.name = m
      · refine .working (.inl ?_)
        split at h <;> cases h <;> exact decide_eq_true hm
      · refine .none ?_ (decide_eq_false hm)
        split at h <;> cases h
        · exact sameFor_build (Ne.symm hm)
        · exact sameFor_register (Ne.symm hm)
  | placing name inner =>
    cases h
    by_cases hm : name = m
    · exact .working (.inl (decide_eq_true hm))
    · exact .none (sameFor_register (Ne.symm hm)) (decide_eq_false hm)
  | restart name =>
    unfold HandlePc.step at h
    dsimp only at h
    split at h <;> cases h
    · exact .none ⟨rfl, rfl⟩ rfl
    · by_cases hm : name = m
      · exact .working (.inl (decide_eq_true hm))
      · exact .none (sameFor_install (Ne.symm hm)) rfl
  | restarting name old =>
    unfold HandlePc.step at h
    dsimp only at h
    by_cases hm : name = m
    · refine .working (.inl ?_)
      split at h <;> cases h <;> exact decide_eq_true hm
    · refine .none ?_ (decide_eq_false hm)
      split at h <;> cases h <;> exact ⟨rfl, rfl⟩
  | again name old =>
    cases h
    by_cases hm : name = m
    · exact .working (.inl (decide_eq_true hm))
    · exact .none ⟨rfl, rfl⟩ (decide_eq_false hm)
  | building name spec =>
    cases h
    exact effect_create m
  | installing name adapter =>
    cases h
    by_cases hm : name = m
    · subst hm
      exact .through _ rfl (by rw [serving_install, if_pos rfl]) rfl
    · exact .none (sameFor_install (Ne.symm hm)) (decide_eq_false hm)
  | loaded l =>
    cases h
    exact .none ⟨rfl, rfl⟩ rfl
  | applying l todo =>
    cases todo with
    | nil =>
      cases h
      exact .none ⟨rfl, rfl⟩ rfl
    | cons op todo => exact effect_applyOp (Option.some.inj h) m
  | done => cases h

end Steps

/-! ## Every run that conforms -/

/-- The map has the handle of the adapter that serves the endpoint, or an operation is not through with it. -/
def Tracked (s : HandlesState) : Prop :=
  ∀ name, s.shared.inners.lookup name = s.shared.serving name ∨ ∃ t ∈ s.threads, t.concerns name = true

theorem tracked_step {s : HandlesState} {i : Nat} {ok : Bool} {pc pc' : HandlePc} {sh' : OAuthHandles}
    {new : List HandlePc} (hi : s.threads[i]? = some pc) (h : pc.step s.shared ok = some (sh', pc', new))
    (hconforms : conforms s (.run i ok) = true) (hs : Tracked s) :
    Tracked ⟨sh', Pool.stepped s.threads i pc' new⟩ := by
  intro m
  cases effect_step h m with
  | none hsame hidle =>
    rcases hs m with htracks | hbusy
    · exact .inl ((hsame.2.trans htracks).trans hsame.1.symm)
    · exact .inr (Pool.exists_stepped hi (fun hself => absurd hself (by rw [hidle]; decide)) hbusy)
  | working hbusy =>
    rcases hbusy with hself | ⟨u, hu, hbusy⟩
    · exact .inr ⟨pc', Pool.mem_stepped_self hi, hself⟩
    · exact .inr ⟨u, Pool.mem_stepped_of_new hu, hbusy⟩
  | through adapter hleaves hserving hinners =>
    have hok : s.shared.inners.lookup m = adapter ∨ ∃ t ∈ s.threads.eraseIdx i, t.concerns m = true := by
      simpa [conforms, hi, hleaves] using hconforms
    rcases hok with hadapter | ⟨t, ht, hbusy⟩
    · exact .inl ((hinners.trans hadapter).trans hserving.symm)
    · obtain ⟨j, hne, hj⟩ := List.mem_eraseIdx_iff_getElem?.1 ht
      exact .inr ⟨t, Pool.mem_stepped_of_ne hj hne, hbusy⟩

theorem handles_tracked {s : HandlesState}
    (h : oauthHandles.system.ReachableWhile (fun s a => conforms s a = true) s) : Tracked s := by
  refine Pool.invariant_of (P := oauthHandles) (I := fun _ => True) (J := Tracked) (fun _ _ => trivial)
    ?_ ?_ ?_ h
  · intro sh ⟨hentries, hinners⟩ name
    refine .inl ?_
    dsimp only
    rw [OAuthHandles.serving, hentries, hinners]
    rfl
  · intro s op t _ hJ _ _ name
    exact (hJ name).imp_right fun ⟨u, hu, hbusy⟩ => ⟨u, List.mem_append_left _ hu, hbusy⟩
  · intro s i ok pc sh' pc' new _ hJ hok hi hstep
    exact tracked_step hi hstep hok hJ

/-- **The map tracks the registry** in every run that conforms, once all operations have finished. -/
theorem handles_track {s : HandlesState}
    (h : oauthHandles.system.ReachableWhile (fun s a => conforms s a = true) s)
    (hdone : ∀ t ∈ s.threads, t = .done) : s.shared.Tracks := by
  intro name
  rcases handles_tracked h name with htracks | ⟨t, ht, hbusy⟩
  · exact htracks
  · rw [hdone t ht] at hbusy
    cases hbusy

/-! ## Three runs -/

def handledEndpoint : EndpointConfig :=
  { name := "mail", transport := .oauth, url := some "https://mail.test/mcp"
    oauthServerUrl := some "https://auth.test" }

def handledConfig : Config := ⟨none, [handledEndpoint], []⟩

def noHandles : OAuthHandles := ⟨∅, ∅, handledConfig, 0⟩

theorem noHandles_start : oauthHandles.system.init ⟨noHandles, []⟩ := ⟨⟨rfl, rfl⟩, rfl⟩

def handleSteps (i n : Nat) : List (Pool.Action HandleOp Bool) := List.replicate n (.run i true)

def setUp : List (Pool.Action HandleOp Bool) := .launch (.startup handledEndpoint false) :: handleSteps 0 3

def restartedRun : List (Pool.Action HandleOp Bool) := setUp ++ .launch (.restart "mail") :: handleSteps 1 4

/-- After a restart the map has the handle of the new adapter. -/
theorem handles_track_restart : ∃ s, oauthHandles.system.run ⟨noHandles, []⟩ restartedRun = some s ∧
    s.shared.inners.lookup "mail" = some 1 ∧ s.shared.Tracks := by
  have hrun : ∃ s, oauthHandles.system.runWhile conforms ⟨noHandles, []⟩ restartedRun = some s ∧
      oauthHandles.system.run ⟨noHandles, []⟩ restartedRun = some s ∧
      s.shared.inners.lookup "mail" = some 1 ∧ s.threads = [.done, .done] := ⟨_, rfl, rfl, rfl, rfl⟩
  obtain ⟨s, hwhile, hrun, hinner, hthreads⟩ := hrun
  have hdone : ∀ t ∈ s.threads, t = .done := by
    rw [hthreads]
    exact List.forall_mem_cons.2 ⟨rfl, List.forall_mem_singleton.2 rfl⟩
  exact ⟨s, hrun, hinner, handles_track
    ((System.ReachableWhile.init noHandles_start).run (fun _ _ h => h) hwhile) hdone⟩

def removedRun : List (Pool.Action HandleOp Bool) :=
  setUp ++ .launch (.reload (.ok ⟨{ core := ⟨none, [], []⟩ }, []⟩)) :: handleSteps 1 3

/-- Two restarts at once: the one that builds first installs last. -/
def overtakenRun : List (Pool.Action HandleOp Bool) :=
  setUp ++ .launch (.restart "mail") :: handleSteps 1 3 ++ .launch (.restart "mail") :: handleSteps 2 4 ++
    handleSteps 1 1

/-- **A handle of no endpoint** stays in the map, and **the handle of another adapter** than the one
installed. -/
theorem handles_stray :
    (∃ s, oauthHandles.system.Reachable s ∧ s.threads = [.done, .done] ∧
      s.shared.entries.lookup "mail" = none ∧ s.shared.inners.lookup "mail" = some 0 ∧ ¬ s.shared.Tracks) ∧
    ∃ s, oauthHandles.system.Reachable s ∧ s.threads = [.done, .done, .done] ∧
      s.shared.serving "mail" = some 1 ∧ s.shared.inners.lookup "mail" = some 2 ∧ ¬ s.shared.Tracks := by
  have hremoved : ∃ s, oauthHandles.system.run ⟨noHandles, []⟩ removedRun = some s ∧
      s.threads = [.done, .done] ∧ s.shared.entries.lookup "mail" = none ∧
      s.shared.inners.lookup "mail" = some 0 := ⟨_, rfl, rfl, rfl, rfl⟩
  have hovertaken : ∃ s, oauthHandles.system.run ⟨noHandles, []⟩ overtakenRun = some s ∧
      s.threads = [.done, .done, .done] ∧ s.shared.serving "mail" = some 1 ∧
      s.shared.inners.lookup "mail" = some 2 := ⟨_, rfl, rfl, rfl, rfl⟩
  obtain ⟨s, hrun, hthreads, hentry, hinner⟩ := hremoved
  obtain ⟨s', hrun', hthreads', hserving, hinner'⟩ := hovertaken
  refine ⟨⟨s, (System.Reachable.init noHandles_start).run hrun, hthreads, hentry, hinner, fun htracks => ?_⟩,
    ⟨s', (System.Reachable.init noHandles_start).run hrun', hthreads', hserving, hinner', fun htracks => ?_⟩⟩
  · have heq := htracks "mail"
    rw [hinner, OAuthHandles.serving, hentry] at heq
    cases heq
  · have heq := htracks "mail"
    rw [hinner', hserving] at heq
    cases heq

end EndaraRelay
