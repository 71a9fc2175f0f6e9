import EndaraRelay.ConfigLoading
import EndaraRelay.ReloadEqualsColdStart
import EndaraRelay.TokenPaths

/-!
# Endpoint names after loading

The registry, the maps behind `diffConfigs` and the token files are keyed by endpoint name, while
validation compares tool prefixes. A prefix is derived from the name unless it is set explicitly.

**Theorem (`names_after_loading`).** Let endpoints of one name have one prefix. Then a config that
strict loading accepts repeats no name. Graceful loading returns every endpoint of the file, also one
that repeats a name; a repeated name is then warned about, and the endpoints that are left are told
apart by their names.

The diff has every name of the new config exactly once (`diffKeys_perm`), so it covers every endpoint
exactly when no name is repeated.
-/

namespace EndaraRelay

open Verif

/-! ## The keys of a diff -/

/-- The names under which a diff speaks of endpoints of the new config. -/
def ConfigDiff.keys (diff : ConfigDiff) : List String :=
  diff.added.map (·.name) ++ diff.changed.map (·.1) ++ diff.unchanged

def isUnchanged (old : Config) (name : String) (ep : EndpointConfig) : Bool :=
  match old.endpointMap.lookup name with
  | none => false
  | some oldEp => oldEp.eq ep

/-- An endpoint of the new config is added, changed or unchanged, and only one of them. -/
theorem added_or_changed_or_unchanged (old : Config) (name : String) (ep : EndpointConfig) :
    (isChanged old name ep = !(isAdded old name || isUnchanged old name ep)) ∧
      (isUnchanged old name ep = true → isAdded old name = false) := by
  unfold isChanged isAdded isUnchanged
  cases old.endpointMap.lookup name with
  | none => simp
  | some oldEp => simp

theorem filter_three_perm {α : Type} {p q r : α → Bool} (l : List α)
    (hq : ∀ x, q x = !(p x || r x)) (hr : ∀ x, r x = true → p x = false) :
    (l.filter p ++ l.filter q ++ l.filter r).Perm l := by
  induction l with
  | nil => exact .nil
  | cons x l ih =>
    simp only [List.filter_cons, hq]
    by_cases hrx : r x = true
    · rw [hr x hrx, hrx]
      exact List.perm_middle.trans (ih.cons x)
    · by_cases hpx : p x = true
      · simpa [hpx, hrx] using ih.cons x
      · simp only [hpx, hrx, Bool.or_self, Bool.not_false, if_true, Bool.false_eq_true, if_false]
        rw [List.append_assoc]
        exact List.perm_middle.trans (((List.append_assoc _ _ _).symm ▸ ih).cons x)

/-- **The diff has every name of the new config, and each once.** -/
theorem diffKeys_perm (old new : Config) :
    (diffConfigs old new).keys.Perm new.endpointMap.keys := by
  have hadded : (diffConfigs old new).added.map (·.name) =
      (new.endpointMap.entries.filter fun e => isAdded old e.1).map (·.1) := by
    show ((new.endpointMap.entries.filter fun e => isAdded old e.1).map (·.2)).map (·.name) = _
    rw [List.map_map]
    exact List.map_congr_left fun e he => endpointMap_entry (List.mem_of_mem_filter he)
  have hchanged : (diffConfigs old new).changed.map (·.1) =
      (new.endpointMap.entries.filter fun e => isChanged old e.1 e.2).map (·.1) := by
    show ((new.endpointMap.entries.filter fun e => isChanged old e.1 e.2).map
      fun e => (e.1, e.2)).map (·.1) = _
    rw [List.map_map]
    rfl
  have hunchanged : (diffConfigs old new).unchanged =
      (new.endpointMap.entries.filter fun e => isUnchanged old e.1 e.2).map (·.1) := rfl
  rw [ConfigDiff.keys, hadded, hchanged, hunchanged, ← List.map_append, ← List.map_append]
  exact (filter_three_perm new.endpointMap.entries
    (fun e => (added_or_changed_or_unchanged old e.1 e.2).1)
    (fun e => (added_or_changed_or_unchanged old e.1 e.2).2)).map (·.1)

theorem diffKeys_nodup (old new : Config) : (diffConfigs old new).keys.Nodup :=
  (diffKeys_perm old new).nodup_iff.2 new.endpointMap.nodupKeys

theorem mem_diffKeys {old new : Config} {name : String} :
    name ∈ (diffConfigs old new).keys ↔ name ∈ new.endpointNames := by
  rw [(diffKeys_perm old new).mem_iff, ← AList.mem_keys, ← AList.lookup_isSome, endpointMap_lookup,
    Config.endpointNames, List.mem_map]
  constructor
  · intro h
    obtain ⟨ep, hep⟩ := Option.isSome_iff_exists.1 h
    exact ⟨ep, mem_named.1 (List.mem_of_getLast? hep)⟩
  · rintro ⟨ep, hep⟩
    rw [List.getLast?_isSome]
    exact List.ne_nil_of_mem (mem_named.2 hep)

/-- The names of a config tell its endpoints apart, and a diff loses none of them. -/
structure Config.NamesUnique (cfg : Config) : Prop where
  nodup : cfg.endpointNames.Nodup
  diff : ∀ old, (diffConfigs old cfg).keys.Perm cfg.endpointNames

theorem namesUnique_of_nodup {cfg : Config} (h : cfg.endpointNames.Nodup) : cfg.NamesUnique where
  nodup := h
  diff := fun old => (List.perm_ext_iff_of_nodup (diffKeys_nodup old cfg) h).2 fun _ => mem_diffKeys

/-! ## Names and prefixes -/

/-- Endpoints of one name have one tool prefix, as they do when none is set explicitly. -/
def Config.PrefixesFollowNames (cfg : Config) : Prop :=
  ∀ a ∈ cfg.endpoints, ∀ b ∈ cfg.endpoints, a.name = b.name →
    a.resolvedToolPrefix = b.resolvedToolPrefix

theorem prefixesFollowNames_of_derived {cfg : Config}
    (h : ∀ ep ∈ cfg.endpoints, ep.toolPrefix = none) : cfg.PrefixesFollowNames := by
  intro a ha b hb hname
  simp [EndpointConfig.resolvedToolPrefix, h a ha, h b hb, hname]

/-- In a config that `validate` accepts, names are unique exactly when prefixes follow them. -/
theorem namesUnique_iff {cfg : Config} (h : cfg.validate = .ok ()) :
    cfg.NamesUnique ↔ cfg.PrefixesFollowNames := by
  constructor
  · intro hunique a ha b hb hname
    rw [List.inj_on_of_nodup_map hunique.nodup ha hb hname]
  · intro hfollow
    apply namesUnique_of_nodup
    rw [Config.endpointNames, List.Nodup, List.pairwise_map]
    refine (validate_ok h).2.imp_of_mem fun ha hb hne hname => ?_
    exact hne (hfollow _ ha _ hb hname)

theorem prefixesFollowNames_congr {eps : List EndpointConfig} {cfg : Config}
    (hplain : eps.map EndpointConfig.plain = cfg.endpoints.map EndpointConfig.plain)
    (h : cfg.PrefixesFollowNames) : { cfg with endpoints := eps }.PrefixesFollowNames := by
  have hmem {ep : EndpointConfig} (hep : ep ∈ eps) : ∃ ep' ∈ cfg.endpoints,
      ep'.name = ep.name ∧ ep'.resolvedToolPrefix = ep.resolvedToolPrefix := by
    have hin : ep.plain ∈ cfg.endpoints.map EndpointConfig.plain :=
      hplain ▸ List.mem_map_of_mem hep
    obtain ⟨ep', hep', heq⟩ := List.mem_map.1 hin
    have hname := congrArg EndpointConfig.name heq
    have hprefix := congrArg EndpointConfig.resolvedToolPrefix heq
    exact ⟨ep', hep', hname, hprefix⟩
  intro a ha b hb hname
  obtain ⟨a', ha', hna, hpa⟩ := hmem ha
  obtain ⟨b', hb', hnb, hpb⟩ := hmem hb
  rw [← hpa, ← hpb]
  exact h a' ha' b' hb' (hna.trans (hname.trans hnb.symm))

/-! ## After loading -/

variable (env : Environment)

/-- What graceful loading leaves of the names of a file. -/
structure NamesKept (parsed cfg : ParsedConfig) (warnings : List EndpointValidationWarning) :
    Prop where
  all_returned : cfg.config.endpointNames = parsed.config.endpointNames
  unwarned : (cfg.config.unwarned warnings).NamesUnique
  diff : ∀ old, (diffConfigs old cfg.config).keys.Nodup ∧
    ∀ name, name ∈ (diffConfigs old cfg.config).keys ↔ name ∈ cfg.config.endpointNames

theorem namesKept {parsed cfg : ParsedConfig} {warnings : List EndpointValidationWarning}
    (hfollow : parsed.config.PrefixesFollowNames)
    (h : parseAndValidateGraceful env parsed = .ok (cfg, warnings)) :
    NamesKept parsed cfg warnings := by
  obtain ⟨-, hcfg, hwarnings⟩ := (parseAndValidateGraceful_eq_ok env).1 h
  have hplain := resolveEnvVarsGraceful_plain env [] parsed.config.endpoints
  refine ⟨?_, ?_, fun old => ⟨diffKeys_nodup old cfg.config, fun _ => mem_diffKeys⟩⟩
  · subst hcfg
    show List.map _ _ = List.map _ _
    rw [← names_plain, ParsedConfig.setEndpoints, hplain, names_plain]
  · have hvalid : (cfg.config.unwarned warnings).validate = .ok () :=
      validate_eq_ok.2 (validateEndpoints_unwarned hwarnings.symm (List.Subset.refl _))
    rw [namesUnique_iff hvalid]
    have hall : cfg.config.PrefixesFollowNames := by
      subst hcfg
      exact prefixesFollowNames_congr hplain hfollow
    intro a ha b hb
    exact hall a (List.mem_of_mem_filter ha) b (List.mem_of_mem_filter hb)

/-- **Names after loading.** -/
theorem names_after_loading (parsed : ParsedConfig) (hfollow : parsed.config.PrefixesFollowNames) :
    (∀ cfg, parseAndValidate env parsed = .ok cfg → cfg.config.NamesUnique) ∧
      ∀ cfg warnings, parseAndValidateGraceful env parsed = .ok (cfg, warnings) →
        NamesKept parsed cfg warnings := by
  refine ⟨fun cfg h => ?_, fun cfg warnings h => namesKept env hfollow h⟩
  obtain ⟨eps, heps, hendpoints, -, rfl⟩ := (parseAndValidate_eq_ok env).1 h
  have hplain := resolveEnvVars_plain env heps
  have hvalid : (parsed.setEndpoints eps).config.validate = .ok () :=
    validate_eq_ok.2 ((validateEndpoints_congr hplain []).trans hendpoints)
  exact (namesUnique_iff hvalid).2 (prefixesFollowNames_congr hplain hfollow)

def repeatedName : ParsedConfig where
  config :=
    { allowInsecureOauth := none
      endpoints := [
        { name := "dup", transport := .stdio, command := some "echo" },
        { name := "dup", transport := .stdio, command := some "cat" }]
      organizations := [] }

theorem repeatedName_kept :
    repeatedName.config.PrefixesFollowNames ∧
      (∀ cfg, parseAndValidate ⟨fun _ => none, none⟩ repeatedName = .ok cfg → cfg.config.NamesUnique) ∧
      ∀ cfg warnings,
        parseAndValidateGraceful ⟨fun _ => none, none⟩ repeatedName = .ok (cfg, warnings) →
          NamesKept repeatedName cfg warnings := by
  have hfollow : repeatedName.config.PrefixesFollowNames :=
    prefixesFollowNames_of_derived (by decide)
  exact ⟨hfollow, names_after_loading _ repeatedName hfollow⟩

/-- Every config that loading returns tells its endpoints apart by name. -/
def UniqueAfterLoading (parsed : ParsedConfig) : Prop :=
  (∀ cfg, parseAndValidate env parsed = .ok cfg → cfg.config.NamesUnique) ∧
    ∀ cfg warnings, parseAndValidateGraceful env parsed = .ok (cfg, warnings) →
      cfg.config.NamesUnique

/-- Graceful loading returns both endpoints of the name. -/
theorem graceful_returns_repeated_name :
    ¬ UniqueAfterLoading ⟨fun _ => none, none⟩ repeatedName := by
  rintro ⟨-, hgraceful⟩
  have hload : parseAndValidateGraceful ⟨fun _ => none, none⟩ repeatedName =
      .ok (repeatedName, [⟨"dup", "Duplicate tool_prefix 'dup' (from endpoint 'dup')"⟩]) := rfl
  have hnodup := (hgraceful _ _ hload).nodup
  revert hnodup
  decide

end EndaraRelay
