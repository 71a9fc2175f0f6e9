import EndaraRelay.Adapter
import EndaraRelay.Lib.Ecma

/-!
# The tools object of the sandbox

`register_tools_object` of `js_sandbox.rs` writes a script that defines one accessor for each tool of the
catalog. A tool's name is put between quotes as it is, in two places.

**Denotation** (`Denotes`). The script reads as the tokens it is meant to have: each literal is the name it
was written from, and what follows the accessors is left as it was. This holds just when every character of
every name stands for itself in a literal (`denotes_iff`). A name with a quote, a backslash or a line break
is not quoted, and the tokens after a quote in it are the name's own.

What the script ends in does not depend on the catalog; it is a parameter.
-/

namespace EndaraRelay

open Verif.Ecma

/-- One accessor. The name is not escaped. -/
def toolAccessor (name : String) : String :=
  "__real_tools[\"" ++ name ++ "\"] = function(args) \x7b return JSON.parse(__call_tool(\"" ++ name ++
    "\", JSON.stringify(args || \x7b\x7d))); \x7d;\n"

/-- The script: the accessors of the catalog, then what every script ends in. -/
def registerToolsObject (catalog : List ToolInfo) (proxy : String) : String :=
  catalog.foldl (fun jsSrc tool => jsSrc ++ toolAccessor tool.name) "var __real_tools = \x7b\x7d;\n" ++ proxy

/-! ## The tokens that are meant -/

def opening : List Token :=
  [.identifier "var".toList, .identifier "__real_tools".toList, .punctuator ['='], .punctuator ['{'],
    .punctuator ['}'], .punctuator [';']]

def beforeName : List Token := [.identifier "__real_tools".toList, .punctuator ['[']]

def betweenNames : List Token :=
  [.punctuator [']'], .punctuator ['='], .identifier "function".toList, .punctuator ['('],
    .identifier "args".toList, .punctuator [')'], .punctuator ['{'], .identifier "return".toList,
    .identifier "JSON".toList, .punctuator ['.'], .identifier "parse".toList, .punctuator ['('],
    .identifier "__call_tool".toList, .punctuator ['(']]

def afterNames : List Token :=
  [.punctuator [','], .identifier "JSON".toList, .punctuator ['.'], .identifier "stringify".toList,
    .punctuator ['('], .identifier "args".toList, .punctuator ['|', '|'], .punctuator ['{'], .punctuator ['}'],
    .punctuator [')'], .punctuator [')'], .punctuator [')'], .punctuator [';'], .punctuator ['}'],
    .punctuator [';']]

/-- The literal that denotes a name. -/
def nameToken (name : String) : Token := .string (units name.toList)

def accessorTokens (name : String) : List Token :=
  beforeName ++ (nameToken name :: betweenNames ++ (nameToken name :: afterNames))

def scriptTokens (catalog : List ToolInfo) : List Token :=
  opening ++ catalog.flatMap fun tool => accessorTokens tool.name

/-- The script begins with the tokens that are meant, and ends in what every script ends in. -/
def Denotes (other : List Char → Option (Token × List Char)) (catalog : List ToolInfo) (proxy : String) : Prop :=
  readTokens other (scriptTokens catalog).length (registerToolsObject catalog proxy).toList =
    some (scriptTokens catalog, '\n' :: proxy.toList)

/-- Every character of the name stands for itself between quotes. -/
def PlainName (name : String) : Prop := ∀ c ∈ name.toList, Plain '"' c

/-! ## One accessor -/

section

variable {other : List Char → Option (Token × List Char)}

theorem readTokens_name_iff (name : String) (tokens : List Token) (text after : List Char) :
    readTokens other (nameToken name :: tokens).length ('"' :: (name.toList ++ '"' :: text)) =
        some (nameToken name :: tokens, after) ↔
      PlainName name ∧ readTokens other tokens.length text = some (tokens, after) := by
  rw [List.length_cons, readTokens, readToken_string]
  constructor
  · intro h
    obtain ⟨⟨token, rest⟩, htoken, h⟩ := Option.bind_eq_some_iff.1 h
    obtain ⟨⟨tokens', after'⟩, htokens, heq⟩ := Option.map_eq_some_iff.1 h
    obtain ⟨⟨value, rest'⟩, hscan, heq'⟩ := Option.map_eq_some_iff.1 htoken
    cases heq
    cases heq'
    obtain ⟨hplain, rfl⟩ := (scanString_denotes_iff _ _ _).1 hscan
    exact ⟨hplain, htokens⟩
  · rintro ⟨hplain, htokens⟩
    simp only [scanString_plain hplain, Option.map_some, Option.bind_some, htokens]
    rfl

/-- Fixed text in front of what is read. -/
theorem readTokens_append_iff {first : List Token} {text rest : List Char}
    (hfirst : readTokens other first.length text = some (first, rest)) (second : List Token) (after : List Char) :
    readTokens other (first ++ second).length text = some (first ++ second, after) ↔
      readTokens other second.length rest = some (second, after) := by
  rw [List.length_append, readTokens_append_eq_some]
  constructor
  · rintro ⟨rest', h, hsecond⟩
    rw [hfirst] at h
    cases h
    exact hsecond
  · intro hsecond
    exact ⟨rest, hfirst, hsecond⟩

theorem readTokens_opening (text : List Char) :
    readTokens other opening.length ("var __real_tools = \x7b\x7d;\n".toList ++ text) = some (opening, '\n' :: text) := rfl

theorem readTokens_beforeName (text : List Char) :
    readTokens other beforeName.length ('\n' :: ("__real_tools[\"".toList ++ text)) =
      some (beforeName, '"' :: text) := rfl

theorem readTokens_betweenNames (text : List Char) :
    readTokens other betweenNames.length
        ("] = function(args) \x7b return JSON.parse(__call_tool(\"".toList ++ text) =
      some (betweenNames, '"' :: text) := rfl

theorem readTokens_afterNames (text : List Char) :
    readTokens other afterNames.length
        (", JSON.stringify(args || \x7b\x7d))); \x7d;\n".toList ++ text) =
      some (afterNames, '\n' :: text) := rfl

theorem toList_around (before name between after : String) (text : List Char) :
    (before ++ name ++ between ++ name ++ after).toList ++ text =
      before.toList ++ (name.toList ++ (between.toList ++ (name.toList ++ (after.toList ++ text)))) := by
  simp only [String.toList_append, List.append_assoc]

theorem readTokens_accessor_iff (name : String) (tokens : List Token) (text after : List Char) :
    readTokens other (accessorTokens name ++ tokens).length ('\n' :: ((toolAccessor name).toList ++ text)) =
        some (accessorTokens name ++ tokens, after) ↔
      PlainName name ∧ readTokens other tokens.length ('\n' :: text) = some (tokens, after) := by
  have htext : '\n' :: ((toolAccessor name).toList ++ text) =
      '\n' :: ("__real_tools[\"".toList ++ (name.toList ++ '"' ::
        ("] = function(args) \x7b return JSON.parse(__call_tool(\"".toList ++ (name.toList ++ '"' ::
          (", JSON.stringify(args || \x7b\x7d))); \x7d;\n".toList ++ text))))) :=
    congrArg (List.cons '\n') (toList_around _ name _ _ text)
  have htokens : accessorTokens name ++ tokens =
      beforeName ++ (nameToken name :: (betweenNames ++ (nameToken name :: (afterNames ++ tokens)))) := by
    simp [accessorTokens]
  rw [htext, htokens, readTokens_append_iff (readTokens_beforeName _), readTokens_name_iff,
    readTokens_append_iff (readTokens_betweenNames _), readTokens_name_iff,
    readTokens_append_iff (readTokens_afterNames _), ← and_assoc, and_self_iff]

/-! ## The script -/

theorem readTokens_accessors_iff (catalog : List ToolInfo) (text : List Char) :
    readTokens other (catalog.flatMap fun tool => accessorTokens tool.name).length
        ('\n' :: ((catalog.flatMap fun tool => (toolAccessor tool.name).toList) ++ text)) =
        some (catalog.flatMap fun tool => accessorTokens tool.name, '\n' :: text) ↔
      ∀ tool ∈ catalog, PlainName tool.name := by
  induction catalog with
  | nil => exact iff_of_true rfl (List.forall_mem_nil _)
  | cons tool catalog ih =>
    rw [List.flatMap_cons, List.flatMap_cons, List.append_assoc, readTokens_accessor_iff, ih, List.forall_mem_cons]

theorem toList_registerToolsObject (catalog : List ToolInfo) (proxy : String) :
    (registerToolsObject catalog proxy).toList =
      "var __real_tools = \x7b\x7d;\n".toList ++
        ((catalog.flatMap fun tool => (toolAccessor tool.name).toList) ++ proxy.toList) := by
  have hfold : ∀ jsSrc : String,
      (catalog.foldl (fun jsSrc tool => jsSrc ++ toolAccessor tool.name) jsSrc).toList =
        jsSrc.toList ++ catalog.flatMap fun tool => (toolAccessor tool.name).toList := by
    induction catalog with
    | nil => simp
    | cons tool catalog ih =>
      intro jsSrc
      rw [List.foldl_cons, ih, String.toList_append, List.flatMap_cons, List.append_assoc]
  rw [registerToolsObject, String.toList_append, hfold, List.append_assoc]

theorem denotes_iff_plain (catalog : List ToolInfo) (proxy : String) :
    Denotes other catalog proxy ↔ ∀ tool ∈ catalog, PlainName tool.name := by
  rw [Denotes, toList_registerToolsObject, scriptTokens, readTokens_append_iff (readTokens_opening _),
    readTokens_accessors_iff]

end

theorem plainName_iff (name : String) :
    PlainName name ↔ '"' ∉ name.toList ∧ '\\' ∉ name.toList ∧ '\n' ∉ name.toList ∧ '\r' ∉ name.toList := by
  constructor
  · intro h
    exact ⟨fun hc => (h _ hc).1 rfl, fun hc => (h _ hc).2.1 rfl, fun hc => (h _ hc).2.2.1 rfl,
      fun hc => (h _ hc).2.2.2 rfl⟩
  · rintro ⟨hquote, hslash, hlf, hcr⟩ c hc
    exact ⟨fun h => hquote (h ▸ hc), fun h => hslash (h ▸ hc), fun h => hlf (h ▸ hc), fun h => hcr (h ▸ hc)⟩

/-- **The tools object is free of injection just for plain names**: the script reads as the tokens that are
meant if and only if no name has a quote, a backslash, a line feed or a carriage return in it. -/
theorem denotes_iff (other : List Char → Option (Token × List Char)) (catalog : List ToolInfo) (proxy : String) :
    Denotes other catalog proxy ↔ ∀ tool ∈ catalog, '"' ∉ tool.name.toList ∧ '\\' ∉ tool.name.toList ∧
      '\n' ∉ tool.name.toList ∧ '\r' ∉ tool.name.toList := by
  rw [denotes_iff_plain]
  exact forall₂_congr fun tool _ => plainName_iff tool.name

def callingTool : ToolInfo where
  name := "fs__a\"]; b(); //"
  description := none
  inputSchema := .null
  annotations := none
  title := none
  outputSchema := none
  toolMeta := none
  extra := []

/-- The script calls `b`, which stands in the name. -/
theorem name_contributes_tokens :
    ¬ Denotes (fun _ => none) [callingTool] "" ∧
    (readTokens (fun _ => none) 14 (registerToolsObject [callingTool] "").toList).map Prod.fst =
      some (opening ++ beforeName ++ [.string (units "fs__a".toList), .punctuator [']'], .punctuator [';'],
        .identifier ['b'], .punctuator ['('], .punctuator [')']]) := by
  constructor
  · intro h
    exact ((denotes_iff_plain _ _).1 h callingTool List.mem_cons_self '"' (by decide)).1 rfl
  · have htext : (toolAccessor "fs__a\"]; b(); //").toList ++ "".toList = "__real_tools[\"".toList ++
        ("fs__a\"]; b(); //".toList ++ ("\"] = function(args) \x7b return JSON.parse(__call_tool(\"".toList ++
          ("fs__a\"]; b(); //".toList ++
            ("\", JSON.stringify(args || \x7b\x7d))); \x7d;\n".toList ++ "".toList)))) :=
      toList_around _ _ _ _ _
    rw [toList_registerToolsObject, List.flatMap_singleton, callingTool, htext]
    rfl

end EndaraRelay
