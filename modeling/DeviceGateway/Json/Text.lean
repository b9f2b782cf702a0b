import DeviceGateway.Json.Basic

/-! The text of a JSON string. Writing escapes quotes, backslashes and controls and nothing else;
reading knows every escape, and a half of a surrogate pair that stands alone is refused. -/

namespace DeviceGateway.Json

def hexDigit (n : Nat) : Char := Nat.digitChar n

def escapeControl (c : Char) : List Char :=
  ['\\', 'u', '0', '0', hexDigit (c.toNat / 16), hexDigit (c.toNat % 16)]

def escapeChar (c : Char) : List Char :=
  if c = '"' then ['\\', '"']
  else if c = '\\' then ['\\', '\\']
  else if c = '\x08' then ['\\', 'b']
  else if c = '\x0c' then ['\\', 'f']
  else if c = '\n' then ['\\', 'n']
  else if c = '\r' then ['\\', 'r']
  else if c = '\t' then ['\\', 't']
  else if c.toNat < 0x20 then escapeControl c
  else [c]

def escape (s : List Char) : List Char := s.flatMap escapeChar

def shortEscape? (c : Char) : Option Char :=
  match c with
  | '"' => some '"'
  | '\\' => some '\\'
  | '/' => some '/'
  | 'b' => some '\x08'
  | 'f' => some '\x0c'
  | 'n' => some '\n'
  | 'r' => some '\r'
  | 't' => some '\t'
  | _ => none

def hexValue? (c : Char) : Option Nat :=
  if '0' ≤ c ∧ c ≤ '9' then some (c.toNat - '0'.toNat)
  else if 'a' ≤ c ∧ c ≤ 'f' then some (c.toNat - 'a'.toNat + 10)
  else if 'A' ≤ c ∧ c ≤ 'F' then some (c.toNat - 'A'.toNat + 10)
  else none

def unit? (a b c d : Char) : Option Nat :=
  match hexValue? a, hexValue? b, hexValue? c, hexValue? d with
  | some a, some b, some c, some d => some (((a * 16 + b) * 16 + c) * 16 + d)
  | _, _, _, _ => none

def isLead (n : Nat) : Bool := 0xD800 ≤ n && n ≤ 0xDBFF

def isTrail (n : Nat) : Bool := 0xDC00 ≤ n && n ≤ 0xDFFF

def paired (lead trail : Nat) : Char :=
  Char.ofNat ((lead - 0xD800) * 0x400 + (trail - 0xDC00) + 0x10000)

def unescapeOnto (out : List Char) : List Char → Option (List Char)
  | [] => some out.reverse
  | '\\' :: 'u' :: a :: b :: c :: d :: rest =>
    match unit? a b c d with
    | none => none
    | some n =>
      if isTrail n then none
      else if isLead n then
        match rest with
        | '\\' :: 'u' :: e :: f :: g :: h :: rest =>
          match unit? e f g h with
          | some m => if isTrail m then unescapeOnto (paired n m :: out) rest else none
          | none => none
        | _ => none
      else unescapeOnto (Char.ofNat n :: out) rest
  | ['\\'] => none
  | '\\' :: c :: rest =>
    match shortEscape? c with
    | some x => unescapeOnto (x :: out) rest
    | none => none
  | c :: rest => unescapeOnto (c :: out) rest

def unescape (s : List Char) : Option (List Char) := unescapeOnto [] s

def Value.ofText (s : String) : Value := .string (Text.utf8 (String.ofList (escape s.toList)))

def textOf? (raw : Bytes) : Option String :=
  match Text.ofUtf8? raw with
  | none => none
  | some s => (unescape s.toList).map String.ofList

def Value.text? : Value → Option String
  | .string raw => textOf? raw
  | _ => none

end DeviceGateway.Json
