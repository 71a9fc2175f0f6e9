import Mathlib.Logic.Relation
import EndaraRelay.Lib.Pool
import EndaraRelay.ProfileResources

/-!
# Prompt gets and resource reads among registry mutations

`ProfileRegistryView::route_prompt_get` and `route_resource_read` find an endpoint in several steps:
they list the prompts, or decode the URI, or look for the only active endpoint; they check the
endpoint against the profile; they count the active endpoints; and they look the endpoint up again to
dispatch to it. The lock of the entries is dropped in between, so each step may see another registry.

The threads are the requests of any profiles, and the mutations of the registry, which may make
anything of the entries but wait until no request reads them. What adapters answer is up to the
environment.

**Theorem (`profile_dispatches_contained`).** Every request that reaches an adapter reaches one of an
endpoint of its profile, which was enabled and healthy when it was looked up.
-/

namespace EndaraRelay

open Verif

variable {A : Type}

/-- An entry of the registry under its name. -/
abbrev NamedEntry (A : Type) := Sigma fun _ : String => RegisteredAdapter A

inductive ProfileRequest where
  | promptGet (prefixedName : String) (arguments : Option Json)
  | resourceRead (wrappedUri : String)

/-- What a request asks of an endpoint, in the texts of errors. -/
def ProfileRequest.what (raw : String) : ProfileRequest → String
  | .promptGet _ _ => "prompt '" ++ raw ++ "'"
  | .resourceRead _ => "resource '" ++ raw ++ "'"

/-- What a request makes of the answer of an endpoint. -/
def ProfileRequest.rewrite (endpoint : String) (skipWrap : Bool) :
    ProfileRequest → Except AdapterError Json → Except AdapterError Json
  | .promptGet _ _, reply => reply.map fun v => rewritePromptGetResult v endpoint skipWrap
  | .resourceRead _, reply => reply

/-- A request that reached an adapter: the profile, the endpoint, and its entry and health when it was
looked up. -/
structure Delivery (A : Type) where
  allowedEndpoints : List String
  request : ProfileRequest
  endpoint : String
  entry : RegisteredAdapter A
  health : HealthStatus

/-- `delivered` is history. -/
structure ProfileRequests (A : Type) where
  entries : Entries A
  delivered : List (Delivery A)

/-- The points of a request. At `listing` and `waiting` it holds the read lock of the entries. -/
inductive RequestPc (A : Type) where
  | start
  | listing (prefixedName : String) (skip : Bool) (todo : List (NamedEntry A)) (lookup : Lookup)
  | counting (endpoint rawName : String)
  | selecting (wrappedUri : String)
  | dispatching (endpoint raw : String) (skipWrap : Bool)
  | waiting (endpoint raw : String) (skipWrap : Bool)
  | answered (result : Except AdapterError Json)

inductive RequestThread (A : Type) where
  | request (allowedEndpoints : List String) (request : ProfileRequest) (pc : RequestPc A)
  | mutation (edit : Entries A → Entries A)
  | ended

inductive RequestOp (A : Type) where
  | request (allowedEndpoints : List String) (request : ProfileRequest)
  | mutation (edit : Entries A → Entries A)

/-- What adapters answer, and that the client of a request is gone. -/
inductive RequestChoice where
  | go
  | listed (items : Except AdapterError (List Json))
  | health (health : HealthStatus)
  | reply (reply : Except AdapterError Json)
  | drop

def RequestThread.holdsRead : RequestThread A → Bool
  | .request _ _ (.listing ..) | .request _ _ (.waiting ..) => true
  | _ => false

/-! ## One request -/

/-- The lookup map with the prompts that an entry lists. -/
def addPrompts (skip : Bool) (e : NamedEntry A) (items : Except AdapterError (List Json))
    (lookup : Lookup) : Lookup :=
  match items with
  | .ok items => ((items.map (namespacePrompt skip e.1 e.2)).flatMap (·.2)).reverse ++ lookup
  | .error _ => lookup

/-- The checks of the dispatchers. -/
def resolveEntry (entries : Entries A) (endpointName what : String) (health : HealthStatus) :
    Except AdapterError (RegisteredAdapter A) :=
  match entries.lookup endpointName with
  | none => .error (.protocolError ("no adapter found for endpoint '" ++ endpointName ++ "'"))
  | some entry =>
    if entry.disabled then
      .error (.protocolError ("endpoint '" ++ endpointName ++ "' is disabled"))
    else if !health.isHealthy then
      .error (.protocolError (what ++ " is currently unavailable: endpoint '" ++ endpointName ++
        "' is not healthy"))
    else .ok entry

/-- Where `route_prompt_get` goes from the lookup map. -/
def promptResolved (allowedEndpoints : List String) (prefixedName : String) (lookup : Lookup) :
    RequestPc A :=
  match lookup.lookup prefixedName with
  | none => .answered (.error (.protocolError ("no prompt '" ++ prefixedName ++ "' in profile")))
  | some (endpoint, rawName) =>
    if allowedEndpoints.contains endpoint then .counting endpoint rawName
    else .answered (.error (.protocolError
      ("prompt '" ++ prefixedName ++ "' is not available in this profile")))

/-- Where `route_resource_read` goes from the URI. -/
def resourceDecoded (allowedEndpoints : List String) (wrappedUri : String) : RequestPc A :=
  match decodeResourceUri wrappedUri with
  | .ok (endpoint, originalUri) =>
    if allowedEndpoints.contains endpoint then .dispatching endpoint originalUri true
    else .answered (.error (.protocolError
      ("resource '" ++ wrappedUri ++ "' is not available in this profile")))
  | .error _ => .selecting wrappedUri

def requestStep (sh : ProfileRequests A) (allowedEndpoints : List String) (request : ProfileRequest) :
    RequestPc A → RequestChoice → Option (ProfileRequests A × RequestPc A)
  | .start, .go =>
    match request with
    | .promptGet prefixedName _ => some (sh,
        .listing prefixedName (skipWrapIn allowedEndpoints sh.entries) sh.entries.entries [])
    | .resourceRead wrappedUri => some (sh, resourceDecoded allowedEndpoints wrappedUri)
  | .listing prefixedName _ [] lookup, .go =>
    some (sh, promptResolved allowedEndpoints prefixedName lookup)
  | .listing prefixedName skip (e :: todo) lookup, .go =>
    if e.2.disabled || !allowedEndpoints.contains e.1 then
      some (sh, .listing prefixedName skip todo lookup)
    else none
  | .listing prefixedName skip (e :: todo) lookup, .listed items =>
    if e.2.disabled || !allowedEndpoints.contains e.1 then none
    else some (sh, .listing prefixedName skip todo (addPrompts skip e items lookup))
  | .counting endpoint rawName, .go =>
    some (sh, .dispatching endpoint rawName (skipWrapIn allowedEndpoints sh.entries))
  | .selecting wrappedUri, .go =>
    match findSingleActiveEndpointIn allowedEndpoints sh.entries with
    | some endpoint => some (sh, .dispatching endpoint wrappedUri true)
    | none => some (sh, .answered (.error (.protocolError
        ("no active endpoint to serve resource '" ++ wrappedUri ++ "'"))))
  | .dispatching endpoint raw skipWrap, .health health =>
    match resolveEntry sh.entries endpoint (request.what raw) health with
    | .ok entry => some
        ({ sh with delivered := ⟨allowedEndpoints, request, endpoint, entry, health⟩ :: sh.delivered },
          .waiting endpoint raw skipWrap)
    | .error e => some (sh, .answered (.error e))
  | .waiting endpoint _ skipWrap, .reply reply =>
    some (sh, .answered (request.rewrite endpoint skipWrap reply))
  | _, _ => none

def RequestThread.step (sh : ProfileRequests A) (ts : List (RequestThread A)) (t : RequestThread A)
    (c : RequestChoice) : Option (ProfileRequests A × RequestThread A × List (RequestThread A)) :=
  match t, c with
  | .request _ _ _, .drop => some (sh, .ended, [])
  | .request allowedEndpoints req pc, c =>
    (requestStep sh allowedEndpoints req pc c).map fun r =>
      (r.1, .request allowedEndpoints req r.2, [])
  | .mutation edit, .go =>
    if ts.any RequestThread.holdsRead then none
    else some ({ sh with entries := edit sh.entries }, .ended, [])
  | _, _ => none

/-- The requests of all profiles, among the mutations of the registry. -/
def profileRequests (A : Type) : Pool (ProfileRequests A) (RequestThread A) (RequestOp A)
    RequestChoice where
  init sh := sh.delivered = []
  launch _ _
    | .request allowedEndpoints request => some (.request allowedEndpoints request .start)
    | .mutation edit => some (.mutation edit)
  step := RequestThread.step

/-! ## Containment -/

/-- From its check on, a request is about an endpoint of its profile. -/
def RequestPc.Within (allowedEndpoints : List String) : RequestPc A → Prop
  | .counting endpoint _ | .dispatching endpoint _ _ | .waiting endpoint _ _ =>
    endpoint ∈ allowedEndpoints
  | _ => True

def RequestThread.Within : RequestThread A → Prop
  | .request allowedEndpoints _ pc => pc.Within allowedEndpoints
  | _ => True

/-- A request reached an endpoint of its profile, which was enabled and healthy. -/
structure Delivery.Contained (d : Delivery A) : Prop where
  allowed : d.endpoint ∈ d.allowedEndpoints
  enabled : d.entry.disabled = false
  healthy : d.health = .healthy

variable {sh sh' : ProfileRequests A} {ts new : List (RequestThread A)} {t t' : RequestThread A}
  {c : RequestChoice} {allowedEndpoints : List String} {request : ProfileRequest}
  {pc pc' : RequestPc A} {s : Pool.State (ProfileRequests A) (RequestThread A)}

theorem promptResolved_within (allowedEndpoints : List String) (prefixedName : String)
    (lookup : Lookup) :
    (promptResolved (A := A) allowedEndpoints prefixedName lookup).Within allowedEndpoints := by
  unfold promptResolved
  split
  · trivial
  · split
    · next hin => exact List.contains_iff_mem.1 hin
    · trivial

theorem resourceDecoded_within (allowedEndpoints : List String) (wrappedUri : String) :
    (resourceDecoded (A := A) allowedEndpoints wrappedUri).Within allowedEndpoints := by
  unfold resourceDecoded
  split
  · split
    · next hin => exact List.contains_iff_mem.1 hin
    · trivial
  · trivial

theorem findSingleActiveEndpointIn_mem {entries : Entries A} {endpoint : String}
    (h : findSingleActiveEndpointIn allowedEndpoints entries = some endpoint) :
    endpoint ∈ allowedEndpoints := by
  unfold findSingleActiveEndpointIn at h
  split at h
  · next e hsingle =>
    cases h
    have he : e ∈ entries.entries.filter fun e =>
        !e.2.disabled && allowedEndpoints.contains e.1 := by
      rw [hsingle]
      exact List.mem_singleton_self e
    have hin := (List.mem_filter.1 he).2
    rw [Bool.and_eq_true] at hin
    exact List.contains_iff_mem.1 hin.2
  · cases h

/-- An entry that passes the checks is enabled, and its adapter said it was healthy. -/
theorem resolveEntry_ok {entries : Entries A} {endpointName what : String} {health : HealthStatus}
    {entry : RegisteredAdapter A} (h : resolveEntry entries endpointName what health = .ok entry) :
    entry.disabled = false ∧ health = .healthy := by
  unfold resolveEntry at h
  split at h
  · cases h
  · split at h
    · cases h
    · next henabled =>
      split at h
      · cases h
      · next hhealthy =>
        cases h
        refine ⟨eq_false_of_ne_true henabled, ?_⟩
        cases health with
        | healthy => rfl
        | unhealthy reason => exact absurd rfl hhealthy
        | starting => exact absurd rfl hhealthy
        | stopped => exact absurd rfl hhealthy

/-- A step of a request stays within its profile, and delivers at most one request, contained. -/
theorem requestStep_within (h : pc.Within allowedEndpoints)
    (hst : requestStep sh allowedEndpoints request pc c = some (sh', pc')) :
    pc'.Within allowedEndpoints ∧
      (sh'.delivered = sh.delivered ∨ ∃ d : Delivery A, d.Contained ∧ sh'.delivered = d :: sh.delivered) := by
  unfold requestStep at hst
  split at hst
  · split at hst
    · cases hst
      exact ⟨trivial, Or.inl rfl⟩
    · cases hst
      exact ⟨resourceDecoded_within _ _, Or.inl rfl⟩
  · cases hst
    exact ⟨promptResolved_within _ _ _, Or.inl rfl⟩
  · split at hst
    · cases hst
      exact ⟨trivial, Or.inl rfl⟩
    · cases hst
  · split at hst
    · cases hst
    · cases hst
      exact ⟨trivial, Or.inl rfl⟩
  · cases hst
    exact ⟨h, Or.inl rfl⟩
  · split at hst
    · next hsingle =>
      cases hst
      exact ⟨findSingleActiveEndpointIn_mem hsingle, Or.inl rfl⟩
    · cases hst
      exact ⟨trivial, Or.inl rfl⟩
  · split at hst
    · next entry hentry =>
      cases hst
      obtain ⟨henabled, hhealthy⟩ := resolveEntry_ok hentry
      exact ⟨h, Or.inr ⟨⟨_, _, _, entry, _⟩, ⟨h, henabled, hhealthy⟩, rfl⟩⟩
    · cases hst
      exact ⟨trivial, Or.inl rfl⟩
  · cases hst
    exact ⟨trivial, Or.inl rfl⟩
  · cases hst

theorem RequestThread.step_within (h : t.Within) (hst : t.step sh ts c = some (sh', t', new)) :
    new = [] ∧ t'.Within ∧
      (sh'.delivered = sh.delivered ∨ ∃ d : Delivery A, d.Contained ∧ sh'.delivered = d :: sh.delivered) := by
  unfold RequestThread.step at hst
  split at hst
  · cases hst
    exact ⟨rfl, trivial, Or.inl rfl⟩
  · obtain ⟨r, hr, heq⟩ := Option.map_eq_some_iff.1 hst
    cases heq
    exact ⟨rfl, requestStep_within h hr⟩
  · split at hst
    · cases hst
    · cases hst
      exact ⟨rfl, trivial, Or.inl rfl⟩
  · cases hst

/-- What holds of every reachable state. -/
structure RequestsInv (s : Pool.State (ProfileRequests A) (RequestThread A)) : Prop where
  threads : ∀ t ∈ s.threads, t.Within
  delivered : ∀ d ∈ s.shared.delivered, d.Contained

theorem requestsInv (h : (profileRequests A).system.Reachable s) : RequestsInv s := by
  refine Pool.invariant_of (I := fun _ => True) (fun _ _ => trivial) ?_ ?_ ?_ h
  · intro sh hsh
    refine ⟨nofun, fun d hd => ?_⟩
    change sh.delivered = [] at hsh
    rw [show (Pool.State.shared (τ := RequestThread A) ⟨sh, []⟩).delivered = [] from hsh] at hd
    cases hd
  · intro s a t _ hinv _ ht
    refine ⟨fun u hu => ?_, hinv.delivered⟩
    obtain hu | hu := List.mem_append.1 hu
    · exact hinv.threads u hu
    · rw [List.mem_singleton.1 hu]
      cases a <;>
      · cases ht
        trivial
  · intro s i c t sh' t' new _ hinv _ hi hst
    obtain ⟨rfl, hwithin, hdelivered⟩ :=
      RequestThread.step_within (hinv.threads t (List.mem_of_getElem? hi)) hst
    refine ⟨Pool.forall_mem_stepped hwithin nofun fun j u _ hj =>
      hinv.threads u (List.mem_of_getElem? hj), fun d hd => ?_⟩
    obtain hsame | ⟨d', hd', hcons⟩ := hdelivered
    · exact hinv.delivered d (hsame ▸ hd)
    · change d ∈ sh'.delivered at hd
      rw [hcons] at hd
      obtain rfl | hd := List.mem_cons.1 hd
      · exact hd'
      · exact hinv.delivered d hd

/-- **Prompt gets and resource reads stay in their profile**, in every interleaving with mutations of
the registry. -/
theorem profile_dispatches_contained (h : (profileRequests A).system.Reachable s) :
    ∀ d ∈ s.shared.delivered,
      d.endpoint ∈ d.allowedEndpoints ∧ d.entry.disabled = false ∧ d.health = .healthy := by
  intro d hd
  obtain ⟨hallowed, henabled, hhealthy⟩ := (requestsInv h).delivered d hd
  exact ⟨hallowed, henabled, hhealthy⟩

/-- A prompt get of the profile `{gmail}`, and a mutation that waits for the listing to end and removes
another endpoint. -/
def promptGetWhileRemoving : List (Pool.Action (RequestOp FixedAdapter) RequestChoice) := [
  .launch (.request ["gmail"] (.promptGet "daily" none)), .launch (.mutation (·.erase "todoist")),
  .run 0 .go, .run 0 .go, .run 0 (.listed (.ok [.obj [("name", .str "daily")]])), .run 0 .go,
  .run 1 .go, .run 0 .go, .run 0 (.health .healthy)]

theorem promptGetWhileRemoving_contained :
    ∃ s, (profileRequests FixedAdapter).system.run ⟨⟨mailEntries, []⟩, []⟩ promptGetWhileRemoving =
        some s ∧
      s.shared.delivered.map (·.endpoint) = ["gmail"] ∧
      ∀ d ∈ s.shared.delivered,
        d.endpoint ∈ d.allowedEndpoints ∧ d.entry.disabled = false ∧ d.health = .healthy := by
  have hrun : (profileRequests FixedAdapter).system.run ⟨⟨mailEntries, []⟩, []⟩
      promptGetWhileRemoving = some _ := rfl
  have hinit : (profileRequests FixedAdapter).system.Reachable ⟨⟨mailEntries, []⟩, []⟩ :=
    System.Reachable.init ⟨rfl, rfl⟩
  exact ⟨_, hrun, rfl, profile_dispatches_contained (System.Reachable.run hinit hrun)⟩

end EndaraRelay
