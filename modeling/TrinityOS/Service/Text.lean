import Mathlib.Data.Int.Notation
import Mathlib.Data.Nat.Notation

namespace TrinityOS.Service

/-- A Python `str` as its code points; unlike a `String` it may hold lone surrogates. -/
abbrev Str := List ℕ

def str (s : String) : Str := s.toList.map Char.toNat

/-- The exceptions the service meets, all of them subclasses of `Exception`. -/
inductive PyError where
  | attributeError (type name : String)
  | typeError (message : String)
  | valueError (message : String)
  | recursionError
  | osError (message : String)
  | brokenPipeError
  | connectionResetError
  | other (message : String)
  deriving DecidableEq, Repr

/-- `str(e)`. The position in the text of a decoding error is left out. -/
def PyError.message : PyError → String
  | .attributeError type name => s!"'{type}' object has no attribute '{name}'"
  | .typeError message | .valueError message | .osError message | .other message => message
  | .recursionError => "maximum recursion depth exceeded"
  | .brokenPipeError => "[Errno 32] Broken pipe"
  | .connectionResetError => "[Errno 104] Connection reset by peer"

/-! `bytes.decode("utf-8")` -/

/-- `n` continuation bytes, the first of them between `low` and `high`; on a byte that is none
the rest starts with it. -/
def continuation : ℕ → UInt8 → UInt8 → ℕ → List UInt8 → Option ℕ × List UInt8
  | 0, _, _, acc, rest => (some acc, rest)
  | _ + 1, _, _, _, [] => (none, [])
  | n + 1, low, high, acc, b :: rest =>
    if low ≤ b ∧ b ≤ high then continuation n 0x80 0xBF (acc * 64 + b.toNat % 64) rest
    else (none, b :: rest)

def decodeFirst (lead : UInt8) (rest : List UInt8) : Option ℕ × List UInt8 :=
  if lead < 0x80 then (some lead.toNat, rest)
  else if 0xC2 ≤ lead ∧ lead ≤ 0xDF then continuation 1 0x80 0xBF (lead.toNat % 32) rest
  else if lead = 0xE0 then continuation 2 0xA0 0xBF 0 rest
  else if lead = 0xED then continuation 2 0x80 0x9F 13 rest
  else if 0xE1 ≤ lead ∧ lead ≤ 0xEF then continuation 2 0x80 0xBF (lead.toNat % 16) rest
  else if lead = 0xF0 then continuation 3 0x90 0xBF 0 rest
  else if 0xF1 ≤ lead ∧ lead ≤ 0xF3 then continuation 3 0x80 0xBF (lead.toNat % 8) rest
  else if lead = 0xF4 then continuation 3 0x80 0x8F 4 rest
  else (none, rest)

/-- Decoding of at most `n` characters; `onError` stands for a byte sequence that is no character. -/
def decodeUpTo (onError : Option Char) : ℕ → List UInt8 → Option (List Char)
  | 0, _ => some []
  | _, [] => some []
  | n + 1, lead :: rest => do
    let (c, rest) := decodeFirst lead rest
    let c ← (c.map Char.ofNat).or onError
    return c :: (← decodeUpTo onError n rest)

/-- `raw.decode("utf-8")` -/
def decodeStrict (raw : List UInt8) : Option (List Char) := decodeUpTo none raw.length raw

/-- `raw.decode("utf-8", errors="replace")` -/
def decodeReplace (raw : List UInt8) : List Char :=
  (decodeUpTo (some '\uFFFD') raw.length raw).getD []

/-! `int(s)` for a header value, whose characters are those of Latin-1 -/

def isSpace (c : Char) : Bool := c.toNat ∈ [9, 10, 11, 12, 13, 28, 29, 30, 31, 32, 133, 160]

def intMaxStrDigits : ℕ := 4300

/-- Decimal digits with single underscores between them; `digit` says whether one came before. -/
def digitRun (digit : Bool) : List Char → Option (List ℕ)
  | [] => if digit then some [] else none
  | c :: rest =>
    if c.isDigit then (digitRun true rest).map ((c.toNat - 48) :: ·)
    else if c = '_' ∧ digit then digitRun false rest
    else none

def ofDigits (digits : List ℕ) : ℕ := digits.foldl (fun acc d => acc * 10 + d) 0

/-- `int(s)`, `none` for a `ValueError`. -/
def pyIntOf (s : String) : Option ℤ :=
  let body := ((s.toList.dropWhile isSpace).reverse.dropWhile isSpace).reverse
  let (negative, body) := match body with
    | '-' :: rest => (true, rest)
    | '+' :: rest => (false, rest)
    | _ => (false, body)
  match digitRun false body with
  | some digits =>
    if digits.length ≤ intMaxStrDigits then
      some (if negative then -(ofDigits digits : ℤ) else ofDigits digits)
    else none
  | none => none

example : pyIntOf " 1_2\n" = some 12 ∧ pyIntOf "-0x2" = none ∧ pyIntOf "" = none := by decide

end TrinityOS.Service
