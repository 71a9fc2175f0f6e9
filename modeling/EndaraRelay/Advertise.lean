import EndaraRelay.ProfileRegistry
import EndaraRelay.ToolsList

/-!
# What the meta-tools of a profile say

`advertise.rs`, for a profile: the descriptions of the meta-tools name the servers that are connected within
the profile. How a text is put in lower case is the parameter `lower`.

**What they are made from** is the enabled entries of the profile, with their adapters (`profileEnabled`),
whether its answers are in TOON, and the write roots. `profileTexts_congr` says that there is nothing else.
-/

namespace EndaraRelay

open Verif

/-- An adapter that says what kind of server it is connected to. -/
class AdvertisedAdapter (A : Type) extends McpAdapter A where
  serverType : A → Option String
  configuredServerType : A → Option String

instance : AdvertisedAdapter FixedAdapter where
  serverType _ := none
  configuredServerType _ := none

/-! ## The texts -/

def listToolsBase : String :=
  "List available tools with pagination. Returns `\x7b tools, total, limit, offset \x7d`. Each tool has " ++
    "`name`, `description`, and `input_schema`. The `name` is the exact identifier to use when calling tools via " ++
    "`execute_tools`."

def searchToolsBase : String :=
  "Fuzzy search across tool name, description, server endpoint, and input-schema property names. Typo-tolerant " ++
    "(Levenshtein), case-insensitive, and aware of camelCase / snake_case / kebab-case boundaries. Results are " ++
    "ranked by relevance (exact > prefix > substring > fuzzy; name > description > endpoint); tools matching " ++
    "more query tokens rank higher. Returns an array of matching tools, each with `name`, `description`, and " ++
    "`input_schema`."

def toonOutputHint : String :=
  "Tool responses are returned in TOON format (Token-Oriented Object Notation) for reduced token usage. TOON " ++
    "is a compact alternative to JSON — indentation-based, no braces, tabular arrays. Parse it like structured " ++
    "text. For large responses saved to disk, the `toon` CLI can filter and query TOON data (like jq for JSON). " ++
    "Use `toon --to-json` to convert back to JSON if needed. See https://toonformat.dev/cli/"

def executeToolsBase : String :=
  "Execute a JavaScript snippet that can call tools. " ++
    "Invoke a tool with `await call(\"tool_name\", \x7b ...args \x7d)` — `call()` returns the unwrapped result " ++
    "directly, no manual envelope reading required. " ++
    "Behind the scenes it returns `structuredContent` when the tool provides it, parses `content[0].text` when " ++
    "it begins with `[` or `\x7b`, returns the text as-is otherwise, and throws an `Error` on `isError` " ++
    "envelopes (the message includes the tool name and `content[0].text`). " ++
    "Multi-server tool names use `prefix__name` format (double underscore); single-server mode has no prefix. " ++
    "Use `tools[\"tool_name\"](args)` only when you need the raw MCP envelope (`\x7b content, structuredContent, " ++
    "isError \x7d`) — for example to inspect `isError` without throwing or to read the literal " ++
    "`content[0].text`. " ++
    "Calling an unknown tool name throws an error that lists the closest matching tools. " ++
    "Pass `\x7b retry: 3 \x7d` as the third argument (e.g. `await call(\"name\", args, \x7b retry: 3 \x7d)`) to " ++
    "retry transient errors on tools whose annotations declare `readOnlyHint` or `idempotentHint`. " ++
    "Scripts can also access files on the relay host with the `writeFile(absPath, data, opts?)` and " ++
    "`readFile(absPath, opts?)` globals — absolute paths only, `\x7b encoding: \"utf8\" \x7d` (default) or `\x7b " ++
    "encoding: \"base64\" \x7d` for binary data, and both are scoped to the user-configured `[relay] write_dirs` " ++
    "directories (with none configured, filesystem access is disabled). " ++
    "Use `return` to send data back.\n\n" ++
    "Examples:\n" ++
    "```js\n" ++
    "// call() returns the unwrapped result — no need to read content[0].text yourself.\n" ++
    "const tasks = await call(\"todoist__get-tasks\", \x7b limit: 5 \x7d);\n" ++
    "return tasks;\n" ++
    "```\n" ++
    "```js\n" ++
    "// Chain two tool calls and combine their results.\n" ++
    "const projects = await call(\"todoist__get-projects\", \x7b\x7d);\n" ++
    "const tasks = await call(\"todoist__get-tasks\", \x7b project_id: projects[0].id \x7d);\n" ++
    "return \x7b projects, tasks \x7d;\n" ++
    "```\n" ++
    "```js\n" ++
    "// Opt into retry for read-only / idempotent tools.\n" ++
    "const issues = await call(\"github__list-issues\", \x7b repo: \"endara-ai/relay\" \x7d, \x7b retry: 3 " ++
    "\x7d);\n" ++
    "return issues;\n" ++
    "```\n" ++
    "```js\n" ++
    "// Use the tools[...] indexer when you need the raw MCP envelope.\n" ++
    "const r = await tools[\"todoist__get-tasks\"](\x7b limit: 5 \x7d);\n" ++
    "return r.structuredContent;\n" ++
    "```\n" ++
    "```js\n" ++
    "// Fetch a binary file from an allowlisted directory as base64.\n" ++
    "return readFile(\"/absolute/path/to/exports/photo.jpg\", \x7b encoding: \"base64\" \x7d);\n" ++
    "```"

/-! ## The servers of a profile -/

variable {A : Type} [AdvertisedAdapter A]

def profileEnabled (allowedEndpoints : List String) (entries : Entries A) :
    List (Sigma fun _ : String => RegisteredAdapter A) :=
  entries.entries.filter fun e => !e.2.disabled && allowedEndpoints.contains e.1

/-- `server_types_in`: a set, in the order of its elements. -/
def serverTypesIn (lower : String → String) (allowedEndpoints : List String) (entries : Entries A) :
    List String :=
  (((profileEnabled allowedEndpoints entries).filterMap fun e =>
    (AdvertisedAdapter.serverType e.2.adapter).or
      (AdvertisedAdapter.configuredServerType e.2.adapter)).map lower).dedup.insertionSort (· ≤ ·)

def endpointCountIn (allowedEndpoints : List String) (entries : Entries A) : Nat :=
  (profileEnabled allowedEndpoints entries).length

def renderByteCap : Nat := 8 * 1024

/-- What is appended to a list that was cut off. -/
def renderSuffix : String := ", …"

/-- The loop of `render`. It breaks at the first type that does not fit. -/
def renderTypes : List String → String → String
  | [], out => out
  | ty :: types, out =>
    let sepLen := if out.isEmpty then 0 else 2
    if out.utf8ByteSize + sepLen + ty.utf8ByteSize > renderByteCap - renderSuffix.utf8ByteSize then
      out ++ renderSuffix
    else renderTypes types ((if out.isEmpty then out else out ++ ", ") ++ ty)

/-- `render`. -/
def renderServerTypes (types : List String) : Option String :=
  if types.isEmpty then none else some (renderTypes types "")

/-! ## The descriptions -/

def buildSearchToolsDescription (types : List String) (toonEnabled : Bool) : String :=
  let text :=
    match renderServerTypes types with
    | some rendered => searchToolsBase ++ "\n\nConnected server types: " ++ rendered
    | none => searchToolsBase
  if toonEnabled then text ++ "\n\n" ++ toonOutputHint else text

def buildCountSuffixDescription (count : Nat) (text : String) : String :=
  if count > 0 then
    text ++ " " ++ toString count ++
      " servers connected via Endara Relay — use search_tools to discover tools."
  else text

def maxWriteFileBytes : Nat := 32 * 1024 * 1024

def mcpRequestBodyLimit : Nat := 48 * 1024 * 1024

def writeFileDescription (roots : List String) : String :=
  let maxMib := toString (maxWriteFileBytes / (1024 * 1024))
  "Write a file on the relay host. `path` must be an absolute path inside one of the allowed directories " ++
    "(configured via `[relay] write_dirs`): " ++
    String.intercalate ", " (roots.map fun r => "`" ++ r ++ "`") ++
    ". `data` is the file content — `encoding` is `\"utf8\"` (default) for text or `\"base64\"` for " ++
    "binary data. Missing parent directories are created; an existing file is overwritten atomically (no " ++
    "partial file is left behind on failure). Each file is limited to " ++ maxMib ++
    " MiB. The JSON-serialized request must also stay under " ++
    toString (mcpRequestBodyLimit / (1024 * 1024)) ++
    " MiB: JSON escaping inflates `\"utf8\"` text (quotes and backslashes double, control characters become " ++
    "six-character escapes), so text made mostly of such characters may need to be sent as `\"base64\"` — " ++
    "base64 of a " ++ maxMib ++ " MiB file always fits. Returns `\x7b path, bytes \x7d` with the canonical " ++
    "path written and the number of bytes."

/-- The descriptions of the meta-tools within a profile. -/
def profileTexts (lower : String → String) (allowedEndpoints : List String) (toonEnabled : Bool)
    (writeRoots : List String) (entries : Entries A) : MetaToolTexts where
  listTools := buildCountSuffixDescription (endpointCountIn allowedEndpoints entries) listToolsBase
  searchTools := buildSearchToolsDescription (serverTypesIn lower allowedEndpoints entries) toonEnabled
  executeTools := buildCountSuffixDescription (endpointCountIn allowedEndpoints entries) executeToolsBase
  writeFile := writeFileDescription writeRoots

/-- **The texts of a profile** are made from its enabled entries. -/
theorem profileTexts_congr {lower : String → String} {allowed allowed' : List String} {toonEnabled : Bool}
    {writeRoots : List String} {entries entries' : Entries A}
    (h : profileEnabled allowed entries = profileEnabled allowed' entries') :
    profileTexts lower allowed toonEnabled writeRoots entries =
      profileTexts lower allowed' toonEnabled writeRoots entries' := by
  unfold profileTexts endpointCountIn serverTypesIn
  rw [h]

end EndaraRelay
