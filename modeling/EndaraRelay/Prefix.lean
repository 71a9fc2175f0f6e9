import Mathlib.Data.List.Basic

/-!
# Tool-name prefixes

`prefix.rs`: how a tool name is put behind the prefix of its endpoint, and how an endpoint name is
turned into a prefix.
-/

namespace EndaraRelay

/-- `{server_type}__{tool}`, or `{server_type}__{instance}__{tool}` when an instance is named. -/
def encodeToolName (serverType : String) (instanceName : Option String) (tool : String) : String :=
  match instanceName with
  | some inst => serverType ++ "__" ++ inst ++ "__" ++ tool
  | none => serverType ++ "__" ++ tool

def isAsciiLowercase (c : Char) : Bool := 'a' ≤ c && c ≤ 'z'

def isAsciiDigit (c : Char) : Bool := '0' ≤ c && c ≤ '9'

/-- The characters `sanitizeName` keeps. -/
def isPrefixChar (c : Char) : Bool := isAsciiLowercase c || isAsciiDigit c || c = '_' || c = '-'

/-- The lower case of a character, as far as `sanitizeName` can see it: of the characters outside
ASCII only the Kelvin sign and the dotted capital I have ASCII in their lower case, and every
character outside ASCII is then dropped. -/
def toLowercase (c : Char) : List Char :=
  if 'A' ≤ c ∧ c ≤ 'Z' then [Char.ofNat (c.toNat + 32)]
  else if c.toNat = 0x212A then ['k']
  else if c.toNat = 0x130 then ['i', Char.ofNat 0x307]
  else [c]

/-- Sanitize a server name for use as an identifier; `none` when nothing is left. -/
def sanitizeName (name : String) : Option String :=
  let sanitized := (((name.toList.flatMap toLowercase).map
    fun c => if c = ' ' then '_' else c).filter isPrefixChar)
  if sanitized = [] then none else some (String.ofList sanitized)

/-- The allowed prefixes: `[a-z0-9]` followed by any number of `[a-z0-9_-]`. -/
def isValidEndpointName (name : String) : Bool :=
  match name.toList with
  | [] => false
  | first :: rest => (isAsciiLowercase first || isAsciiDigit first) && rest.all isPrefixChar

end EndaraRelay
