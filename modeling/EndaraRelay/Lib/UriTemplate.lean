import EndaraRelay.Lib.Percent

/-!
# URI templates

The templates of RFC 6570, at all four levels: literal text, and expressions in braces that a client
replaces by the values of their variables.

**Reading.** `parse` reads a template from its text. A part is a literal character or an expression;
a percent sign is a literal where two hexadecimal digits follow. An expression keeps its text
(`body`) beside what the text says, and the proof that the one is read from the other.

**Expanding.** `expand` follows the table of operators: what an expression starts with, what
separates its variables, whether names are written, and which characters of a value stay as they are.
An undefined variable gives no text, and an expression without text is empty.
-/

namespace Verif.UriTemplate

/-! ## Characters -/

def unreserved (c : Char) : Bool := c.isAlphanum || c = '-' || c = '.' || c = '_' || c = '~'

def reserved (c : Char) : Bool := ":/?#[]@!$&'()*+,;=".toList.contains c

def isHex (c : Char) : Bool := c.isDigit || ('A' ≤ c && c ≤ 'F') || ('a' ≤ c && c ≤ 'f')

/-- The characters of variable names, dots and triplets apart. -/
def varChar (c : Char) : Bool := c.isAlphanum || c = '_'

/-- Non-ASCII characters that may stand in a template. -/
def ucsChar (c : Char) : Bool :=
  let n := c.toNat
  (0xA0 ≤ n && n ≤ 0xFDCF) || (0xFDF0 ≤ n && n ≤ 0xFFEF) ||
    (0x10000 ≤ n && n % 0x10000 ≤ 0xFFFD && !(0xE0000 ≤ n && n ≤ 0xE0FFF))

/-- Characters that stand for themselves in a template. -/
def literalChar (c : Char) : Bool := unreserved c || reserved c || ucsChar c

/-- A byte is escaped unless it is an unreserved character. -/
def escapes (b : UInt8) : Bool := !unreserved (Char.ofNat b.toNat)

/-- The escaping that leaves unreserved characters alone. -/
def encodeUnreserved (s : List Char) : List Char := s.flatMap (Percent.encodeChar escapes)

/-- Whether what follows a percent sign makes it a triplet. -/
def startsHexPair : List Char → Bool
  | h :: l :: _ => isHex h && isHex l
  | _ => false

/-- The escaping that also leaves reserved characters and triplets alone. -/
def encodeReserved : List Char → List Char
  | [] => []
  | c :: s =>
    (if reserved c || (c = '%' && startsHexPair s) then [c] else Percent.encodeChar escapes c) ++
      encodeReserved s

/-! ## Templates -/

/-- The operator of an expression; `simple` is none. -/
inductive Operator where
  | simple
  | reserved
  | fragment
  | label
  | pathSegment
  | parameter
  | query
  | continuation
deriving DecidableEq, Repr

namespace Operator

def ofChar (c : Char) : Option Operator :=
  if c = '+' then some reserved
  else if c = '#' then some fragment
  else if c = '.' then some label
  else if c = '/' then some pathSegment
  else if c = ';' then some parameter
  else if c = '?' then some query
  else if c = '&' then some continuation
  else none

/-- What a non-empty expansion starts with. -/
def first : Operator → List Char
  | simple | reserved => []
  | fragment => ['#']
  | label => ['.']
  | pathSegment => ['/']
  | parameter => [';']
  | query => ['?']
  | continuation => ['&']

/-- What stands between two variables. -/
def separator : Operator → List Char
  | simple | reserved | fragment => [',']
  | label => ['.']
  | pathSegment => ['/']
  | parameter => [';']
  | query | continuation => ['&']

/-- Whether a variable is written with its name. -/
def named : Operator → Bool
  | parameter | query | continuation => true
  | _ => false

/-- What follows the name of an empty value. -/
def ifEmpty : Operator → List Char
  | query | continuation => ['=']
  | _ => []

def encode : Operator → List Char → List Char
  | reserved | fragment => encodeReserved
  | _ => encodeUnreserved

end Operator

inductive Modifier where
  | none
  | maxLength (n : Nat)
  | explode
deriving DecidableEq, Repr

structure VarSpec where
  name : List Char
  modifier : Modifier
deriving DecidableEq, Repr

/-- Whether `s` finishes a variable name; the flag says whether the name may end, or go on with a
dot, where `s` begins. -/
def finishesName : Bool → List Char → Bool
  | mayEnd, [] => mayEnd
  | mayEnd, c :: s =>
    if c = '.' then mayEnd && finishesName false s
    else (varChar c || (c = '%' && startsHexPair s)) && finishesName true s

def isName (s : List Char) : Bool := finishesName false s

/-- A length from 1 to 9999. -/
def isMaxLength : List Char → Bool
  | [] => false
  | c :: s => c ≠ '0' && (c :: s).all Char.isDigit && s.length ≤ 3

def number (s : List Char) : Nat := s.foldl (fun n c => n * 10 + (c.toNat - '0'.toNat)) 0

def parseVarSpec (s : List Char) : Option VarSpec :=
  match s.splitOn ':' with
  | [s] =>
    if s.getLast? = some '*' then
      if isName s.dropLast then some ⟨s.dropLast, .explode⟩ else none
    else if isName s then some ⟨s, .none⟩ else none
  | [name, digits] =>
    if isName name && isMaxLength digits then some ⟨name, .maxLength (number digits)⟩ else none
  | _ => none

def parseVarList (s : List Char) : Option (List VarSpec) := (s.splitOn ',').mapM parseVarSpec

/-- Read what stands between the braces. -/
def parseBody : List Char → Option (Operator × List VarSpec)
  | [] => none
  | c :: s =>
    match Operator.ofChar c with
    | some op => (parseVarList s).map fun specs => (op, specs)
    | none => (parseVarList (c :: s)).map fun specs => (.simple, specs)

/-- An expression is its text and what the text says. -/
structure Expression where
  body : List Char
  operator : Operator
  varSpecs : List VarSpec
  parsed : parseBody body = some (operator, varSpecs)

def Expression.parse (body : List Char) : Option Expression :=
  match h : parseBody body with
  | some (operator, varSpecs) => some ⟨body, operator, varSpecs, h⟩
  | none => none

inductive Part where
  | literal (c : Char)
  | expression (e : Expression)

/-- Read a template; the first argument is the beginning of an expression that is still open. -/
def parseFrom : Option (List Char) → List Char → Option (List Part)
  | none, [] => some []
  | some _, [] => none
  | some body, c :: s =>
    if c = '}' then
      (Expression.parse body).bind fun e => (parseFrom none s).map fun t => .expression e :: t
    else parseFrom (some (body ++ [c])) s
  | none, c :: s =>
    if c = '{' then parseFrom (some []) s
    else if literalChar c || (c = '%' && startsHexPair s) then
      (parseFrom none s).map fun t => .literal c :: t
    else none

def parse (s : List Char) : Option (List Part) := parseFrom none s

/-! ## Expansion -/

/-- The value of a variable. -/
inductive Value where
  | string (s : List Char)
  | list (items : List (List Char))
  | pairs (items : List (List Char × List Char))
deriving DecidableEq, Repr

/-- The variables that are defined, by name. -/
abbrev Assignment := List Char → Option Value

/-- A name with its value, both as they are written. -/
def withName (op : Operator) (name value : List Char) : List Char :=
  name ++ if value = [] then op.ifEmpty else '=' :: value

/-- The text of a defined variable. A list or a table without members is undefined. -/
def VarSpec.expandValue (op : Operator) (v : VarSpec) : Value → Option (List Char)
  | .string s =>
    let text := op.encode (match v.modifier with
      | .maxLength n => s.take n
      | _ => s)
    some (if op.named then withName op v.name text else text)
  | .list [] => none
  | .pairs [] => none
  | .list items =>
    if v.modifier = .explode then
      some (op.separator.intercalate (items.map fun i =>
        if op.named then withName op v.name (op.encode i) else op.encode i))
    else
      let text := [','].intercalate (items.map op.encode)
      some (if op.named then withName op v.name text else text)
  | .pairs items =>
    if v.modifier = .explode then
      some (op.separator.intercalate (items.map fun p =>
        if op.named then withName op (encodeReserved p.1) (op.encode p.2)
        else op.encode p.1 ++ '=' :: op.encode p.2))
    else
      let text := [','].intercalate (items.flatMap fun p => [op.encode p.1, op.encode p.2])
      some (if op.named then withName op v.name text else text)

/-- What the variables of an expression are replaced by. -/
def expandVars (σ : Assignment) (op : Operator) (specs : List VarSpec) : List Char :=
  match specs.filterMap fun v => (σ v.name).bind (v.expandValue op) with
  | [] => []
  | texts => op.first ++ op.separator.intercalate texts

def Expression.expand (σ : Assignment) (e : Expression) : List Char :=
  expandVars σ e.operator e.varSpecs

def Part.expand (σ : Assignment) : Part → List Char
  | .literal c => if reserved c || c = '%' then [c] else Percent.encodeChar escapes c
  | .expression e => e.expand σ

def expand (σ : Assignment) (t : List Part) : List Char := t.flatMap (Part.expand σ)

@[simp] theorem expand_append (σ : Assignment) (s t : List Part) :
    expand σ (s ++ t) = expand σ s ++ expand σ t := List.flatMap_append

/-- What a client makes of the text of a template. -/
def expandText (σ : Assignment) (template : String) : Option String :=
  (parse template.toList).map fun t => String.ofList (expand σ t)

end Verif.UriTemplate
