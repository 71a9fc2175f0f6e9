import EndaraRelay.Lib.Ip

/-!
# The guard of the OAuth client

`oauth/url_guard.rs`: a URL is validated, its host is resolved, and a client is built that has the
host pinned to the addresses that were checked.

**The model.** Reading URLs is a parameter (`UrlReader`), and so is what DNS answers. A request is
answered by hops, of which each may be a redirect; the client follows ten and connects to pinned
addresses for the pinned host alone. `GuardedUse` is a client with the requests made with it.

**The slips.** The guard asks what class an address is in as it is spelled, so the mapped IPv6
spelling of a blocked IPv4 address passes. And it sees the first URL only: a redirect is followed
wherever it leads.

**Theorem (`GuardedUse.permitted_iff`).** The connections of a client are permitted exactly when no
address it tries is such a spelling and every redirect it follows is permitted.
-/

namespace EndaraRelay

open Verif

/-! ## URLs -/

structure Origin where
  scheme : String
  host : String
  port : Nat
deriving DecidableEq

/-- What the code asks of a parsed URL. `port` is the known default when there is none, and an origin
may be opaque. -/
structure Url where
  scheme : String
  host : Option String
  port : Option Nat
  path : String
  origin : Option Origin
deriving DecidableEq

/-- `ascii_serialization`, with the port of the origin where it is not the default one. -/
def Origin.asciiSerialization (o : Origin) : String :=
  o.scheme ++ "://" ++ o.host ++
    (if (o.scheme = "https" ∧ o.port = 443) ∨ (o.scheme = "http" ∧ o.port = 80) then ""
    else ":" ++ toString o.port)

/-- `parsed.origin().ascii_serialization()`. -/
def Url.originText (url : Url) : String :=
  match url.origin with
  | some o => o.asciiSerialization
  | none => "null"

/-- The parser of URLs. A path behind the origin of a URL is read as a URL of that origin, and `null` is
not the beginning of an absolute URL. -/
structure UrlReader where
  parse : String → Option Url
  reads_origin : ∀ text url o, parse text = some url → url.origin = some o → ∀ path,
    ∃ u, parse (o.asciiSerialization ++ "/" ++ path) = some u ∧ u.scheme = o.scheme ∧
      u.host = some o.host ∧ u.port = some o.port
  reads_null : ∀ path, parse ("null" ++ "/" ++ path) = none

/-! ## The guard -/

structure SocketAddr where
  ip : Ip
  port : Nat
deriving DecidableEq

inductive UrlGuardError where
  | invalidUrl (url : String)
  | schemeNotAllowed (scheme url : String)
  | addressNotAllowed (addr : Ip) (host : String)
  | resolveFailed (host source : String)
  | noAddresses (host : String)

/-- A host with the addresses that were validated. -/
structure PinnedTarget where
  host : String
  addrs : List SocketAddr

/-- True of an address that is refused unless the operator opts in. -/
def isLoopbackOrLinkLocal : Ip → Bool
  | .v4 v4 => v4.isLoopback || v4.isLinkLocal
  | .v6 v6 => v6.isLoopback || v6.isUnicastLinkLocal

def isAlwaysBlocked : Ip → Bool
  | .v4 v4 => v4.isUnspecified || v4.isMulticast || v4.isBroadcast
  | .v6 v6 => v6.isUnspecified || v6.isMulticast

/-- The checks of one address. -/
def refuses (allowInsecure : Bool) (ip : Ip) : Bool :=
  isAlwaysBlocked ip || (!allowInsecure && isLoopbackOrLinkLocal ip)

/-- What a lookup of a host and port answers. -/
abbrev LookupHost := String → Nat → Except String (List SocketAddr)

/-- Validate `url` and resolve its host, returning the pinned target. -/
def validateAndResolve (reader : UrlReader) (lookupHost : LookupHost) (url : String) (allowInsecure : Bool) :
    Except UrlGuardError PinnedTarget :=
  match reader.parse url with
  | none => .error (.invalidUrl url)
  | some parsed =>
    if parsed.scheme ≠ "https" ∧ ¬ (allowInsecure = true ∧ parsed.scheme = "http") then
      .error (.schemeNotAllowed parsed.scheme url)
    else
      match parsed.host, parsed.port with
      | some host, some port =>
        match lookupHost host port with
        | .error source => .error (.resolveFailed host source)
        | .ok lookups =>
          if lookups.isEmpty then .error (.noAddresses host)
          else
            match lookups.find? fun sa => refuses allowInsecure sa.ip with
            | some sa => .error (.addressNotAllowed sa.ip host)
            | none => .ok { host, addrs := lookups }
      | _, _ => .error (.invalidUrl url)

/-! ## The client -/

/-- An exchange on the wire: what DNS says of the host at that time (an address is its own answer), the
addresses that are tried in turn, and where the response leads. -/
structure Hop where
  lookup : List Ip
  tried : List Ip
  location : Option Url

/-- A connection that is opened, or tried to. -/
structure Connection where
  scheme : String
  ip : Ip
deriving DecidableEq

/-- The addresses tried for a URL: for the pinned host they are among the pinned ones. -/
def addressesFor (target : PinnedTarget) (url : Url) (hop : Hop) : List Ip :=
  hop.tried.filter fun ip =>
    if url.host = some target.host then ip ∈ target.addrs.map (·.ip) else ip ∈ hop.lookup

/-- The connections of one exchange. Other schemes are not spoken. -/
def connectionsTo (target : PinnedTarget) (url : Url) (hop : Hop) : List Connection :=
  if url.scheme = "http" ∨ url.scheme = "https" then
    (addressesFor target url hop).map fun ip => ⟨url.scheme, ip⟩
  else []

/-- The exchanges of a request: a redirect is followed while `left` allows it. -/
def follow (left : Nat) (url : Url) : List Hop → List (Url × Hop)
  | [] => []
  | hop :: hops => (url, hop) ::
    match left, hop.location with
    | left + 1, some next => follow left next hops
    | _, _ => []

/-- The default policy. -/
def redirectLimit : Nat := 10

/-- The connections of a request. -/
def send (reader : UrlReader) (target : PinnedTarget) (url : String) (hops : List Hop) : List Connection :=
  match reader.parse url with
  | none => []
  | some parsed => (follow redirectLimit parsed hops).flatMap fun e => connectionsTo target e.1 e.2

/-- A validated client and the requests that are made with it, as they go. -/
structure GuardedUse where
  url : String
  lookupHost : LookupHost
  requests : List (String × List Hop)

/-- `validated_client`, and the connections of the requests. -/
def GuardedUse.connections (reader : UrlReader) (allowInsecure : Bool) (use : GuardedUse) :
    List Connection :=
  match validateAndResolve reader use.lookupHost use.url allowInsecure with
  | .error _ => []
  | .ok target => use.requests.flatMap fun r => send reader target r.1 r.2

/-! ## What is permitted -/

/-- The address that is denoted is a blocked one. -/
def blocked (allowInsecure : Bool) (ip : Ip) : Bool := refuses allowInsecure ip.canonical

/-- A connection that may be opened. -/
structure Permitted (allowInsecure : Bool) (c : Connection) : Prop where
  scheme : allowInsecure = false → c.scheme ≠ "http"
  address : blocked allowInsecure c.ip = false

/-- The mapped spelling of a blocked address. -/
def SpellsBlocked (allowInsecure : Bool) (ip : Ip) : Prop :=
  ∃ v4, ip.mapped = some v4 ∧ refuses allowInsecure (.v4 v4) = true

/-- The redirects of a request that are followed. -/
def redirects (hops : List Hop) : List (Url × Hop) :=
  match hops with
  | [] => []
  | hop :: hops => (hop.location.map fun next => follow (redirectLimit - 1) next hops).getD []

/-- A request that meets no misspelled address and is not led astray. -/
structure RequestClean (allowInsecure : Bool) (target : PinnedTarget) (hops : List Hop) : Prop where
  spelling : ∀ hop ∈ hops.head?, ∀ ip ∈ hop.tried, ip ∈ target.addrs.map (·.ip) →
    ¬ SpellsBlocked allowInsecure ip
  redirects : ∀ e ∈ redirects hops, ∀ c ∈ connectionsTo target e.1 e.2, Permitted allowInsecure c

/-- The requests made with a client, if it is built, are clean. -/
def GuardedUse.Clean (reader : UrlReader) (allowInsecure : Bool) (use : GuardedUse) : Prop :=
  ∀ target, validateAndResolve reader use.lookupHost use.url allowInsecure = .ok target →
    ∀ r ∈ use.requests, RequestClean allowInsecure target r.2

/-- The requests are of the origin of the validated URL. -/
def GuardedUse.SameOrigin (reader : UrlReader) (use : GuardedUse) : Prop :=
  ∀ parsed, reader.parse use.url = some parsed → ∀ r ∈ use.requests,
    ∃ u, reader.parse r.1 = some u ∧ u.scheme = parsed.scheme ∧ u.host = parsed.host

/-! ## What the guard sees -/

section Guard

variable {allowInsecure : Bool} {ip : Ip}

/-- **What passes the guard and is blocked** is a misspelled address. -/
theorem blocked_iff_of_passes (h : refuses allowInsecure ip = false) :
    blocked allowInsecure ip = true ↔ SpellsBlocked allowInsecure ip := by
  unfold blocked SpellsBlocked
  cases hmapped : ip.mapped with
  | none =>
    rw [Ip.canonical_of_not_mapped hmapped, h]
    simp
  | some v4 =>
    rw [Ip.canonical_of_mapped hmapped]
    simp

variable {reader : UrlReader} {lookupHost : LookupHost} {url : String} {target : PinnedTarget}

theorem validateAndResolve_ok
    (h : validateAndResolve reader lookupHost url allowInsecure = .ok target) :
    ∃ parsed, reader.parse url = some parsed ∧
      (parsed.scheme = "https" ∨ allowInsecure = true ∧ parsed.scheme = "http") ∧
      parsed.host = some target.host ∧ ∀ sa ∈ target.addrs, refuses allowInsecure sa.ip = false := by
  unfold validateAndResolve at h
  cases hparse : reader.parse url with
  | none =>
    rw [hparse] at h
    cases h
  | some parsed =>
    rw [hparse] at h
    dsimp only at h
    split at h
    · cases h
    · next hscheme =>
      split at h
      · next host port hhost hport =>
        split at h
        · cases h
        · split at h
          · cases h
          · split at h
            · cases h
            · next hfind =>
              cases h
              refine ⟨parsed, rfl, ?_, hhost, fun sa hsa => ?_⟩
              · by_cases hs : parsed.scheme = "https"
                · exact .inl hs
                · exact .inr (by_contra fun hno => hscheme ⟨hs, hno⟩)
              · simpa using List.find?_eq_none.1 hfind sa hsa
      · cases h

end Guard

/-! ## One client -/

section Use

variable {reader : UrlReader} {allowInsecure : Bool} {target : PinnedTarget}

/-- The redirects are what is followed after the first exchange. -/
theorem follow_eq (url : Url) (hops : List Hop) :
    follow redirectLimit url hops = (hops.head?.map fun hop => (url, hop)).toList ++ redirects hops := by
  cases hops with
  | nil => rfl
  | cons hop hops =>
    cases hlocation : hop.location with
    | none => simp [follow, redirects, redirectLimit, hlocation]
    | some next => simp [follow, redirects, redirectLimit, hlocation]

/-- The first exchange of a request: its connections go to pinned addresses, by a scheme the guard has
seen. -/
theorem first_permitted_iff {url : Url} {hop : Hop}
    (hscheme : url.scheme = "https" ∨ allowInsecure = true ∧ url.scheme = "http")
    (hhost : url.host = some target.host)
    (haddrs : ∀ sa ∈ target.addrs, refuses allowInsecure sa.ip = false) :
    (∀ c ∈ connectionsTo target url hop, Permitted allowInsecure c) ↔
      ∀ ip ∈ hop.tried, ip ∈ target.addrs.map (·.ip) → ¬ SpellsBlocked allowInsecure ip := by
  have hspoken : url.scheme = "http" ∨ url.scheme = "https" := hscheme.symm.imp_left fun h => h.2
  have hsecure : allowInsecure = false → url.scheme ≠ "http" := by
    intro hallow
    rcases hscheme with h | ⟨h, -⟩
    · rw [h]
      decide
    · rw [hallow] at h
      cases h
  have hpasses : ∀ ip ∈ target.addrs.map (·.ip), refuses allowInsecure ip = false := by
    intro ip hip
    obtain ⟨sa, hsa, rfl⟩ := List.mem_map.1 hip
    exact haddrs sa hsa
  unfold connectionsTo addressesFor
  rw [if_pos hspoken]
  simp only [hhost, if_true]
  constructor
  · intro h ip htried hip hspells
    have hpermitted := h ⟨url.scheme, ip⟩
      (List.mem_map.2 ⟨ip, List.mem_filter.2 ⟨htried, decide_eq_true hip⟩, rfl⟩)
    have hblocked := (blocked_iff_of_passes (hpasses ip hip)).2 hspells
    rw [hpermitted.address] at hblocked
    cases hblocked
  · intro h c hc
    obtain ⟨ip, hmem, rfl⟩ := List.mem_map.1 hc
    obtain ⟨htried, hip⟩ := List.mem_filter.1 hmem
    have hip := of_decide_eq_true hip
    refine ⟨hsecure, ?_⟩
    by_contra hblocked
    exact h ip htried hip ((blocked_iff_of_passes (hpasses ip hip)).1 (eq_true_of_ne_false hblocked))

/-- The connections of a request of the pinned origin. -/
theorem send_permitted_iff {text : String} {url : Url} {hops : List Hop} (hparse : reader.parse text = some url)
    (hscheme : url.scheme = "https" ∨ allowInsecure = true ∧ url.scheme = "http")
    (hhost : url.host = some target.host)
    (haddrs : ∀ sa ∈ target.addrs, refuses allowInsecure sa.ip = false) :
    (∀ c ∈ send reader target text hops, Permitted allowInsecure c) ↔
      RequestClean allowInsecure target hops := by
  unfold send
  rw [hparse]
  dsimp only
  rw [follow_eq, List.flatMap_append]
  simp only [List.mem_append, or_imp, forall_and]
  have hredirects : (∀ c ∈ (redirects hops).flatMap fun e => connectionsTo target e.1 e.2,
      Permitted allowInsecure c) ↔
        ∀ e ∈ redirects hops, ∀ c ∈ connectionsTo target e.1 e.2, Permitted allowInsecure c := by
    simp only [List.mem_flatMap]
    exact ⟨fun h e he c hc => h c ⟨e, he, hc⟩, fun h c ⟨e, he, hc⟩ => h e he c hc⟩
  have hfirst : (∀ c ∈ (hops.head?.map fun hop => (url, hop)).toList.flatMap fun e =>
      connectionsTo target e.1 e.2, Permitted allowInsecure c) ↔
        ∀ hop ∈ hops.head?, ∀ ip ∈ hop.tried, ip ∈ target.addrs.map (·.ip) →
          ¬ SpellsBlocked allowInsecure ip := by
    cases hops with
    | nil => simp
    | cons hop hops => simpa using first_permitted_iff hscheme hhost haddrs
  rw [hfirst, hredirects]
  exact ⟨fun h => ⟨h.1, h.2⟩, fun h => ⟨h.spelling, h.redirects⟩⟩

/-- **When the connections of a client are permitted.** -/
theorem GuardedUse.permitted_iff {use : GuardedUse} (horigin : use.SameOrigin reader) :
    (∀ c ∈ use.connections reader allowInsecure, Permitted allowInsecure c) ↔
      use.Clean reader allowInsecure := by
  unfold GuardedUse.connections GuardedUse.Clean
  cases hvalid : validateAndResolve reader use.lookupHost use.url allowInsecure with
  | error e => simp
  | ok target =>
    obtain ⟨parsed, hparse, hscheme, hhost, haddrs⟩ := validateAndResolve_ok hvalid
    have hrequest : ∀ r ∈ use.requests, ((∀ c ∈ send reader target r.1 r.2, Permitted allowInsecure c) ↔
        RequestClean allowInsecure target r.2) := by
      intro r hr
      obtain ⟨u, hu, huscheme, huhost⟩ := horigin parsed hparse r hr
      exact send_permitted_iff hu (by rw [huscheme]; exact hscheme) (huhost.trans hhost) haddrs
    constructor
    · intro h target' htarget' r hr
      cases htarget'
      exact (hrequest r hr).1 fun c hc => h c (List.mem_flatMap.2 ⟨r, hr, hc⟩)
    · intro h c hc
      obtain ⟨r, hr, hc⟩ := List.mem_flatMap.1 hc
      exact (hrequest r hr).2 (h target rfl r hr) c hc

end Use

end EndaraRelay
