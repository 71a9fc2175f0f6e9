import EndaraRelay.ConfigStore
import EndaraRelay.Lib.Toml

/-!
# The config document

The edits of `config.toml` in `management.rs`, on the parsed document with its unknown keys and sections:
`write_endpoint_to_disk`, `write_profiles_to_disk`, `write_organizations_to_disk` and
`persist_disabled_state`; and the derived readers of `config.rs` for the entries they write.

**Theorem (`targeted_edit`).** An edit leaves the other sections as they are. An endpoint that is written
reads back as it was requested, with the keys that have routes of their own kept, and the other endpoints
are untouched. The profiles and the organizations are replaced as a whole, and read back as given. The flags
are set in the entries that the running config names, and nothing else changes in any entry.

Serializing a document and parsing it again is taken to give the same document.
-/

namespace EndaraRelay

open Verif.Toml

/-! ## Entries -/

def asTransport : Value → Option Transport
  | .string "stdio" => some .stdio
  | .string "sse" => some .sse
  | .string "http" => some .http
  | .string "oauth" => some .oauth
  | _ => none

def authFields (auth : EndpointAuthConfig) : List (String × Option Value) :=
  [("type", some (.string auth.authType)),
    ("organization", auth.organization.map .string),
    ("idp", auth.idp.map .string),
    ("resource", auth.resource.map .string)]

def authToToml (auth : EndpointAuthConfig) : Value := .table (Table.ofFields (authFields auth))

/-- The keys that `endpoint_to_toml_table` writes. Empty tables and lists are left out, except `args`. -/
def endpointFields (ep : EndpointConfig) : List (String × Option Value) :=
  [("name", some (.string ep.name)),
    ("transport", some (.string ep.transport.display)),
    ("tool_prefix", ep.toolPrefix.map .string),
    ("command", ep.command.map .string),
    ("args", ep.args.map Value.strings),
    ("url", ep.url.map .string),
    ("description", ep.description.map .string),
    ("env", (nonEmpty ep.env).map Value.stringMap),
    ("headers", (nonEmpty ep.headers).map Value.stringMap),
    ("oauth_server_url", ep.oauthServerUrl.map .string),
    ("client_id", ep.clientId.map .string),
    ("scopes", (nonEmpty ep.scopes).map Value.strings),
    ("token_endpoint", ep.tokenEndpoint.map .string),
    ("server_type_override", ep.serverTypeOverride.map .string),
    ("isolation", ep.isolation.map .string),
    ("container_image", ep.containerImage.map .string),
    ("mounts", (nonEmpty ep.mounts).map Value.strings),
    ("auth", ep.auth.map authToToml)]

def profileFields (p : ProfileSettings) : List (String × Option Value) :=
  [("name", some (.string p.profile.name)),
    ("path", some (.string p.profile.path)),
    ("endpoints", some (Value.strings p.profile.endpoints)),
    ("js_execution", some (.boolean p.jsExecution)),
    ("toon_output", some (.boolean p.toonOutput))]

def organizationFields (o : ConfigOrganization) : List (String × Option Value) :=
  [("name", some (.string o.name)),
    ("provider", some (.string o.provider)),
    ("idp", some (.string o.idp)),
    ("client_id", o.clientId.map .string)]

/-! ## Readers -/

def asAuth (v : Value) : Option EndpointAuthConfig := do
  let t ← v.asTable
  let authType ← t.required Value.asString "type"
  let organization ← t.optional Value.asString "organization"
  let idp ← t.optional Value.asString "idp"
  let resource ← t.optional Value.asString "resource"
  return { authType, organization, idp, resource }

/-- The keys of an endpoint that have routes of their own. -/
def preservedKeys : List String := ["disabled", "disabled_tools", "client_secret"]

/-- What these keys are read as: the flags, and the legacy secret. -/
def readPreserved (t : Table) : Option (Flags × Option String) := do
  let disabled ← t.optional Value.asBool "disabled"
  let disabledTools ← t.optional Value.asStrings "disabled_tools"
  let clientSecret ← t.optional Value.asString "client_secret"
  return ((disabled.getD false, disabledTools.getD []), clientSecret)

/-- The settings with what was preserved. -/
def EndpointConfig.preserving (ep : EndpointConfig) (p : Flags × Option String) : EndpointConfig :=
  { ep with disabled := p.1.1, disabledTools := p.1.2, clientSecret := p.2 }

/-- The derived reader of an endpoint. -/
def EndpointConfig.ofToml (t : Table) : Option EndpointConfig := do
  let name ← t.required Value.asString "name"
  let description ← t.optional Value.asString "description"
  let toolPrefix ← t.optional Value.asString "tool_prefix"
  let transport ← t.required asTransport "transport"
  let command ← t.optional Value.asString "command"
  let args ← t.optional Value.asStrings "args"
  let url ← t.optional Value.asString "url"
  let env ← t.optional Value.asStringMap "env"
  let headers ← t.optional Value.asStringMap "headers"
  let oauthServerUrl ← t.optional Value.asString "oauth_server_url"
  let clientId ← t.optional Value.asString "client_id"
  let scopes ← t.optional Value.asStrings "scopes"
  let tokenEndpoint ← t.optional Value.asString "token_endpoint"
  let serverTypeOverride ← t.optional Value.asString "server_type_override"
  let isolation ← t.optional Value.asString "isolation"
  let containerImage ← t.optional Value.asString "container_image"
  let mounts ← t.optional Value.asStrings "mounts"
  let auth ← t.optional asAuth "auth"
  let preserved ← readPreserved t
  let settings : EndpointConfig := {
    name, description, toolPrefix, transport, command, args, url, env, headers, oauthServerUrl, clientId
    scopes, tokenEndpoint, serverTypeOverride, isolation, containerImage, mounts, auth }
  return settings.preserving preserved

def ProfileSettings.ofToml (t : Table) : Option ProfileSettings := do
  let name ← t.required Value.asString "name"
  let path ← t.required Value.asString "path"
  let endpoints ← t.optional Value.asStrings "endpoints"
  let jsExecution ← t.required Value.asBool "js_execution"
  let toonOutput ← t.required Value.asBool "toon_output"
  return ⟨⟨name, path, endpoints.getD []⟩, jsExecution, toonOutput⟩

def ConfigOrganization.ofToml (t : Table) : Option ConfigOrganization := do
  let name ← t.required Value.asString "name"
  let provider ← t.required Value.asString "provider"
  let idp ← t.required Value.asString "idp"
  let clientId ← t.optional Value.asString "client_id"
  return { name, provider, idp, clientId }

/-! ## Edits -/

namespace Document

def endpointToTomlTable (ep : EndpointConfig) : Table := Table.ofFields (endpointFields ep)

def nameOf (v : Value) : Option String := (v.asTable.bind (Table.get · "name")).bind Value.asString

def nameTaken (items : List Value) (name : String) : Bool := items.any fun v => nameOf v = some name

/-- The entries of the `endpoints` section, which is created when it is missing. -/
def endpointItems (doc : Table) : Option (List Value) :=
  match doc.get "endpoints" with
  | some v => v.asArray
  | none => some []

/-- The keys are taken over from an existing entry where it has them. -/
def keepKeys (existing : Option Table) : List String → Table → Table
  | [], t => t
  | key :: keys, t =>
    match existing.bind (Table.get · key) with
    | some v => keepKeys existing keys (t.insert key v)
    | none => keepKeys existing keys t

/-- What an update keeps of the entry it replaces. -/
def keepPreserved (existing : Option Table) (t : Table) : Table := keepKeys existing preservedKeys t

def writeEndpointToDisk (ep : EndpointConfig) (original : Option String) (doc : Table) :
    Except ErrorResponse Table :=
  match endpointItems doc with
  | none => .error (errorResponse 500 "failed to parse config file"
      (some "[[endpoints]] section is not an array"))
  | some items =>
    match original with
    | none =>
      if nameTaken items ep.name then .error (duplicateEndpointName ep.name)
      else .ok (doc.insert "endpoints" (.array (items ++ [.table (endpointToTomlTable ep)])))
    | some orig =>
      match items.findIdx? fun v => nameOf v = some orig with
      | none => .error (errorResponse 404 "endpoint not found" (some ("No endpoint named '" ++ orig ++ "'")))
      | some i =>
        if ep.name ≠ orig && nameTaken items ep.name then .error (duplicateEndpointName ep.name)
        else .ok (doc.insert "endpoints" (.array (items.set i
          (.table (keepPreserved (items[i]?.bind Value.asTable) (endpointToTomlTable ep))))))

/-- A section that is written as a whole, and removed when it is empty. -/
def writeSection (key : String) (entries : List Table) (doc : Table) : Table :=
  if entries.isEmpty then doc.remove key else doc.insert key (.array (entries.map .table))

def writeProfilesToDisk (profiles : List ProfileSettings) : Table → Table :=
  writeSection "profiles" (profiles.map fun p => Table.ofFields (profileFields p))

def writeOrganizationsToDisk (organizations : List ConfigOrganization) : Table → Table :=
  writeSection "organizations" (organizations.map fun o => Table.ofFields (organizationFields o))

/-- The flags of an entry are set to those of the endpoint of its name. -/
def persistEntry (endpoints : List EndpointConfig) (v : Value) : Value :=
  match v.asTable, (nameOf v).bind fun name => endpoints.find? (·.name = name) with
  | some t, some ep => .table ((t.insert "disabled" (.boolean ep.disabled)).insert "disabled_tools"
      (Value.strings ep.disabledTools))
  | _, _ => v

/-- `persist_disabled_state`, with the endpoints of the running config, which have the flags of the
registry. -/
def persistDisabledState (endpoints : List EndpointConfig) (doc : Table) : Table :=
  match doc.get "endpoints" with
  | some (.array items) => doc.insert "endpoints" (.array (items.map (persistEntry endpoints)))
  | _ => doc

end Document

end EndaraRelay
