import TrinityOS.Service.Text

namespace TrinityOS.Service

/-- The Python values that pass through the service. `object` is one of any other type, for
which `json` has no encoding. -/
inductive Value where
  | none
  | bool (b : Bool)
  | int (n : ℤ)
  | float (x : Float)
  | str (s : Str)
  | list (items : List Value)
  | dict (items : List (Str × Value))
  | object (id : ℕ)

namespace Value

def text (s : String) : Value := .str (Service.str s)

def truthy : Value → Bool
  | .none => false
  | .bool b => b
  | .int n => n ≠ 0
  | .float x => x != 0
  | .str s => !s.isEmpty
  | .list items => !items.isEmpty
  | .dict items => !items.isEmpty
  | .object _ => true

def typeName : Value → String
  | .none => "NoneType"
  | .bool _ => "bool"
  | .int _ => "int"
  | .float _ => "float"
  | .str _ => "str"
  | .list _ => "list"
  | .dict _ => "dict"
  | .object _ => "object"

def isDict : Value → Bool
  | .dict _ => true
  | _ => false

def lookup (key : Str) : List (Str × Value) → Option Value
  | [] => Option.none
  | (k, v) :: items => if k = key then some v else lookup key items

/-- `v.get(key, default)`: of the values here only a dict has the method. -/
def get (v : Value) (key : String) (default : Value := .none) : Except PyError Value :=
  match v with
  | .dict items => .ok ((lookup (Service.str key) items).getD default)
  | v => .error (.attributeError v.typeName "get")

/-- `items[key] = value`: a key that is there keeps its place. -/
def insert (key : Str) (value : Value) : List (Str × Value) → List (Str × Value)
  | [] => [(key, value)]
  | (k, v) :: items => if k = key then (k, value) :: items else (k, v) :: insert key value items

def ofPairs (pairs : List (Str × Value)) : Value :=
  .dict (pairs.foldl (fun items p => insert p.1 p.2 items) [])

end Value

/-! `json.loads` -/

def skipWhitespace (s : List Char) : List Char := s.dropWhile (· ∈ [' ', '\t', '\n', '\r'])

def isHighSurrogate (c : ℕ) : Bool := 0xD800 ≤ c && c < 0xDC00

def isLowSurrogate (c : ℕ) : Bool := 0xDC00 ≤ c && c < 0xE000

/-- Only escapes write surrogates, so that a pair of them in a scanned string is one of escapes. -/
def joinSurrogates : List ℕ → Str
  | high :: low :: rest =>
    if isHighSurrogate high ∧ isLowSurrogate low then
      (0x10000 + (high - 0xD800) * 0x400 + (low - 0xDC00)) :: joinSurrogates rest
    else high :: joinSurrogates (low :: rest)
  | rest => rest

def hexDigit? (c : Char) : Option ℕ :=
  if c.isDigit then some (c.toNat - 48)
  else if 'a' ≤ c ∧ c ≤ 'f' then some (c.toNat - 87)
  else if 'A' ≤ c ∧ c ≤ 'F' then some (c.toNat - 55)
  else none

def hex4? (a b c d : Char) : Option ℕ := do
  return (← hexDigit? a) * 4096 + (← hexDigit? b) * 256 + (← hexDigit? c) * 16 + (← hexDigit? d)

def escape? : Char → Option ℕ
  | '"' => some 34
  | '\\' => some 92
  | '/' => some 47
  | 'b' => some 8
  | 'f' => some 12
  | 'n' => some 10
  | 'r' => some 13
  | 't' => some 9
  | _ => none

/-- The code units of a string whose opening quote has been read. -/
def scanUnits : List Char → Except PyError (List ℕ × List Char)
  | [] => .error (.valueError "Unterminated string")
  | '"' :: rest => .ok ([], rest)
  | '\\' :: 'u' :: a :: b :: c :: d :: rest =>
    match hex4? a b c d with
    | some unit => do
      let (units, rest) ← scanUnits rest
      return (unit :: units, rest)
    | none => .error (.valueError "Invalid \\uXXXX escape")
  | '\\' :: c :: rest =>
    match escape? c with
    | some unit => do
      let (units, rest) ← scanUnits rest
      return (unit :: units, rest)
    | none => .error (.valueError "Invalid \\escape")
  | c :: rest =>
    if c.toNat < 0x20 then .error (.valueError "Invalid control character")
    else do
      let (units, rest) ← scanUnits rest
      return (c.toNat :: units, rest)

def scanString (s : List Char) : Except PyError (Str × List Char) := do
  let (units, rest) ← scanUnits s
  return (joinSurrogates units, rest)

/-- `json.scanner.NUMBER_RE`: integer part, digits of the fraction, exponent. -/
def scanNumber (negative : Bool) (s : List Char) : Except PyError (Value × List Char) :=
  let whole := match s with
    | '0' :: _ => ['0']
    | _ => s.takeWhile Char.isDigit
  if whole = [] then .error (.valueError "Expecting value")
  else
    let rest := s.drop whole.length
    let fraction := match rest with
      | '.' :: rest => rest.takeWhile Char.isDigit
      | _ => []
    let rest := if fraction = [] then rest else rest.drop (fraction.length + 1)
    let (negativeExponent, marked) := match rest with
      | 'e' :: '-' :: rest | 'E' :: '-' :: rest => (true, some rest)
      | 'e' :: '+' :: rest | 'E' :: '+' :: rest => (false, some rest)
      | 'e' :: rest | 'E' :: rest => (false, some rest)
      | _ => (false, none)
    let exponent := (marked.getD []).takeWhile Char.isDigit
    let rest := if exponent = [] then rest else (marked.getD []).drop exponent.length
    let number (digits : List Char) := ofDigits (digits.map fun c => c.toNat - 48)
    if fraction = [] ∧ exponent = [] then
      if whole.length ≤ intMaxStrDigits then
        .ok (.int (if negative then -(number whole : ℤ) else number whole), rest)
      else .error (.valueError "Exceeds the limit for integer string conversion")
    else
      let scale : ℤ :=
        (if negativeExponent then -(number exponent : ℤ) else number exponent) - fraction.length
      let x := Float.ofScientific (number (whole ++ fraction)) (scale < 0) scale.natAbs
      .ok (.float (if negative then -x else x), rest)

section containers

variable (scan : List Char → Except PyError (Value × List Char))

def scanElements : ℕ → List Char → Except PyError (List Value × List Char)
  | 0, _ => .error (.valueError "Expecting value")
  | n + 1, s => do
    let (v, rest) ← scan s
    match skipWhitespace rest with
    | ',' :: rest =>
      let (vs, rest) ← scanElements n (skipWhitespace rest)
      return (v :: vs, rest)
    | ']' :: rest => return ([v], rest)
    | _ => .error (.valueError "Expecting ',' delimiter")

def scanArray (s : List Char) : Except PyError (Value × List Char) :=
  match skipWhitespace s with
  | ']' :: rest => .ok (.list [], rest)
  | s => do
    let (vs, rest) ← scanElements scan s.length s
    return (.list vs, rest)

def scanMembers : ℕ → List Char → Except PyError (List (Str × Value) × List Char)
  | n + 1, '"' :: s => do
    let (key, rest) ← scanString s
    match skipWhitespace rest with
    | ':' :: rest =>
      let (v, rest) ← scan (skipWhitespace rest)
      match skipWhitespace rest with
      | ',' :: rest =>
        let (pairs, rest) ← scanMembers n (skipWhitespace rest)
        return ((key, v) :: pairs, rest)
      | '}' :: rest => return ([(key, v)], rest)
      | _ => .error (.valueError "Expecting ',' delimiter")
    | _ => .error (.valueError "Expecting ':' delimiter")
  | _, _ => .error (.valueError "Expecting property name enclosed in double quotes")

def scanObject (s : List Char) : Except PyError (Value × List Char) :=
  match skipWhitespace s with
  | '}' :: rest => .ok (.dict [], rest)
  | s => do
    let (pairs, rest) ← scanMembers scan s.length s
    return (Value.ofPairs pairs, rest)

end containers

/-- `scan_once`; `depth` is how many more containers the interpreter's recursion limit lets it
enter. -/
def scanOnce (depth : ℕ) (s : List Char) : Except PyError (Value × List Char) :=
  match s with
  | '"' :: rest => do
    let (s, rest) ← scanString rest
    return (.str s, rest)
  | '{' :: rest =>
    match depth with
    | 0 => .error .recursionError
    | depth + 1 => scanObject (scanOnce depth) rest
  | '[' :: rest =>
    match depth with
    | 0 => .error .recursionError
    | depth + 1 => scanArray (scanOnce depth) rest
  | 'n' :: 'u' :: 'l' :: 'l' :: rest => .ok (.none, rest)
  | 't' :: 'r' :: 'u' :: 'e' :: rest => .ok (.bool true, rest)
  | 'f' :: 'a' :: 'l' :: 's' :: 'e' :: rest => .ok (.bool false, rest)
  | 'N' :: 'a' :: 'N' :: rest => .ok (.float (0 / 0), rest)
  | 'I' :: 'n' :: 'f' :: 'i' :: 'n' :: 'i' :: 't' :: 'y' :: rest => .ok (.float (1 / 0), rest)
  | '-' :: 'I' :: 'n' :: 'f' :: 'i' :: 'n' :: 'i' :: 't' :: 'y' :: rest =>
    .ok (.float (-1 / 0), rest)
  | '-' :: rest => scanNumber true rest
  | s => scanNumber false s

def loads (depth : ℕ) (s : List Char) : Except PyError Value :=
  if s.head? = some '\uFEFF' then .error (.valueError "Unexpected UTF-8 BOM")
  else do
    let (v, rest) ← scanOnce depth (skipWhitespace s)
    if skipWhitespace rest = [] then return v
    else .error (.valueError "Extra data")

/-! `json.dumps` with its default settings -/

def hex4 (n : ℕ) : List Char :=
  [n / 4096 % 16, n / 256 % 16, n / 16 % 16, n % 16].map Nat.digitChar

def escape (c : ℕ) : List Char :=
  if c = 34 then ['\\', '"']
  else if c = 92 then ['\\', '\\']
  else if c = 10 then ['\\', 'n']
  else if c = 13 then ['\\', 'r']
  else if c = 9 then ['\\', 't']
  else if c = 12 then ['\\', 'f']
  else if c = 8 then ['\\', 'b']
  else if 32 ≤ c ∧ c ≤ 126 then [Char.ofNat c]
  else if c < 0x10000 then '\\' :: 'u' :: hex4 c
  else
    '\\' :: 'u' :: hex4 (0xD800 + (c - 0x10000) / 0x400) ++
      '\\' :: 'u' :: hex4 (0xDC00 + (c - 0x10000) % 0x400)

def dumpsString (s : Str) : List Char := '"' :: s.flatMap escape ++ ['"']

section dumps

-- the text `json` writes for a float
variable (floatRepr : Float → List Char)

mutual

def dumps : Value → Except PyError (List Char)
  | .none => .ok "null".toList
  | .bool true => .ok "true".toList
  | .bool false => .ok "false".toList
  | .int n => .ok (toString n).toList
  | .float x => .ok (floatRepr x)
  | .str s => .ok (dumpsString s)
  | .list items => do
    let parts ← dumpsElements items
    return '[' :: [',', ' '].intercalate parts ++ [']']
  | .dict items => do
    let parts ← dumpsMembers items
    return '{' :: [',', ' '].intercalate parts ++ ['}']
  | .object _ => .error (.typeError "Object is not JSON serializable")

def dumpsElements : List Value → Except PyError (List (List Char))
  | [] => .ok []
  | v :: items => do
    let part ← dumps v
    return part :: (← dumpsElements items)

def dumpsMembers : List (Str × Value) → Except PyError (List (List Char))
  | [] => .ok []
  | (key, v) :: items => do
    let part ← dumps v
    return (dumpsString key ++ ':' :: ' ' :: part) :: (← dumpsMembers items)

end

/-! `json.dump` with `indent=2` -/

def newline (level : ℕ) : List Char := '\n' :: List.replicate (2 * level) ' '

def enclose (level : ℕ) (opening closing : Char) (parts : List (List Char)) : List Char :=
  if parts = [] then [opening, closing]
  else
    opening :: newline (level + 1) ++ (',' :: newline (level + 1)).intercalate parts ++
      newline level ++ [closing]

mutual

def dumpIndented (level : ℕ) : Value → Except PyError (List Char)
  | .list items => do
    let parts ← dumpIndentedElements (level + 1) items
    return enclose level '[' ']' parts
  | .dict items => do
    let parts ← dumpIndentedMembers (level + 1) items
    return enclose level '{' '}' parts
  | v => dumps floatRepr v

def dumpIndentedElements (level : ℕ) : List Value → Except PyError (List (List Char))
  | [] => .ok []
  | v :: items => do
    let part ← dumpIndented level v
    return part :: (← dumpIndentedElements level items)

def dumpIndentedMembers (level : ℕ) : List (Str × Value) → Except PyError (List (List Char))
  | [] => .ok []
  | (key, v) :: items => do
    let part ← dumpIndented level v
    return (dumpsString key ++ ':' :: ' ' :: part) :: (← dumpIndentedMembers level items)

end

end dumps

end TrinityOS.Service
