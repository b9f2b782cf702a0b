import DeviceGateway.Json.Basic

/-! Reading JSON, one byte at a time. The reader keeps the containers it is inside of, so nesting
costs no recursion; how deep it may go is a parameter. It checks the form of escapes and numbers but
neither the UTF-8 of texts nor the size of numbers. -/

namespace DeviceGateway.Json

/-- A container whose next element is being read; what is done stands latest first. -/
inductive Frame
  | array (done : List Value)
  | object (done : List (Bytes × Value)) (key : Bytes)

/-- Where a string is: in plain text, after a backslash, or before `left + 1` more hexadecimal
digits. -/
inductive TextPart
  | plain
  | escape
  | hex (left : Nat)

inductive NumberPart
  | minus
  | zero
  | whole
  | point
  | fraction
  | mark
  | sign
  | power

inductive Mode
  | value
  | firstItem
  | afterItem (done : List Value)
  | key (done : List (Bytes × Value)) (mayEnd : Bool)
  | keyText (done : List (Bytes × Value)) (part : TextPart) (soFar : Bytes)
  | colon (done : List (Bytes × Value)) (key : Bytes)
  | afterMember (done : List (Bytes × Value))
  | text (part : TextPart) (soFar : Bytes)
  | number (part : NumberPart) (soFar : Bytes)
  | word (rest : Bytes) (meaning : Value)
  | done (v : Value)

structure State where
  mode : Mode
  outer : List Frame

def State.start : State := ⟨.value, []⟩

def deliver (v : Value) : List Frame → State
  | [] => ⟨.done v, []⟩
  | .array done :: outer => ⟨.afterItem (v :: done), outer⟩
  | .object done key :: outer => ⟨.afterMember ((key, v) :: done), outer⟩

def isSpace (c : Char) : Bool := c == ' ' || c == '\t' || c == '\n' || c == '\r'

def isHexDigit (c : Char) : Bool :=
  ('0' ≤ c && c ≤ '9') || ('a' ≤ c && c ≤ 'f') || ('A' ≤ c && c ≤ 'F')

def TextPart.next? : TextPart → Char → Option TextPart
  | .plain, c => if c = '\\' then some .escape else if c < ' ' then none else some .plain
  | .escape, 'u' => some (.hex 3)
  | .escape, c => if "\"\\/bfnrt".toList.contains c then some .plain else none
  | .hex 0, c => if isHexDigit c then some .plain else none
  | .hex (left + 1), c => if isHexDigit c then some (.hex left) else none

def NumberPart.next? (p : NumberPart) (c : Char) : Option NumberPart :=
  let digit := '0' ≤ c && c ≤ '9'
  let mark := c = 'e' || c = 'E'
  match p with
  | .minus => if c = '0' then some .zero else if digit then some .whole else none
  | .zero => if c = '.' then some .point else if mark then some .mark else none
  | .whole =>
    if digit then some .whole else if c = '.' then some .point
    else if mark then some .mark else none
  | .point => if digit then some .fraction else none
  | .fraction => if digit then some .fraction else if mark then some .mark else none
  | .mark => if c = '+' || c = '-' then some .sign else if digit then some .power else none
  | .sign | .power => if digit then some .power else none

def NumberPart.mayEnd : NumberPart → Bool
  | .zero | .whole | .fraction | .power => true
  | _ => false

def begin? (limit : Option Nat) (outer : List Frame) (b : UInt8) : Option State :=
  let opened (m : Mode) : Option State :=
    match limit with
    | some n => if outer.length < n then some ⟨m, outer⟩ else none
    | none => some ⟨m, outer⟩
  let word (s : String) (v : Value) : Option State := some ⟨.word ((ascii s).drop 1) v, outer⟩
  let c := Char.ofUInt8 b
  if c = '"' then some ⟨.text .plain [], outer⟩
  else if c = '[' then opened .firstItem
  else if c = '\x7b' then opened (.key [] true)
  else if c = 'n' then word "null" .null
  else if c = 't' then word "true" (.bool true)
  else if c = 'f' then word "false" (.bool false)
  else if c = '-' then some ⟨.number .minus [b], outer⟩
  else if c = '0' then some ⟨.number .zero [b], outer⟩
  else if '1' ≤ c ∧ c ≤ '9' then some ⟨.number .whole [b], outer⟩
  else none

def between? (limit : Option Nat) (s : State) (b : UInt8) : Option State :=
  let c := Char.ofUInt8 b
  if isSpace c then some s
  else match s.mode with
    | .value => begin? limit s.outer b
    | .firstItem =>
      if c = ']' then some (deliver (.array []) s.outer)
      else begin? limit (.array [] :: s.outer) b
    | .afterItem done =>
      if c = ',' then some ⟨.value, .array done :: s.outer⟩
      else if c = ']' then some (deliver (.array done.reverse) s.outer)
      else none
    | .key done mayEnd =>
      if c = '"' then some ⟨.keyText done .plain [], s.outer⟩
      else if c = '\x7d' && mayEnd then some (deliver (.object done.reverse) s.outer)
      else none
    | .colon done key => if c = ':' then some ⟨.value, .object done key :: s.outer⟩ else none
    | .afterMember done =>
      if c = ',' then some ⟨.key done false, s.outer⟩
      else if c = '\x7d' then some (deliver (.object done.reverse) s.outer)
      else none
    | _ => none

def State.next? (limit : Option Nat) (s : State) (b : UInt8) : Option State :=
  let c := Char.ofUInt8 b
  match s.mode with
  | .text part soFar =>
    match part, c with
    | .plain, '"' => some (deliver (.string soFar.reverse) s.outer)
    | _, _ => (part.next? c).map fun part => ⟨.text part (b :: soFar), s.outer⟩
  | .keyText done part soFar =>
    match part, c with
    | .plain, '"' => some ⟨.colon done soFar.reverse, s.outer⟩
    | _, _ => (part.next? c).map fun part => ⟨.keyText done part (b :: soFar), s.outer⟩
  | .number part soFar =>
    match part.next? c with
    | some part => some ⟨.number part (b :: soFar), s.outer⟩
    | none =>
      if part.mayEnd then between? limit (deliver (.number soFar.reverse) s.outer) b else none
  | .word rest meaning =>
    match rest with
    | [] => none
    | [x] => if x = b then some (deliver meaning s.outer) else none
    | x :: rest => if x = b then some ⟨.word rest meaning, s.outer⟩ else none
  | _ => between? limit s b

def State.result? (s : State) : Option Value :=
  match s.mode, s.outer with
  | .done v, _ => some v
  | .number part soFar, [] => if part.mayEnd then some (.number soFar.reverse) else none
  | _, _ => none

def State.run? (limit : Option Nat) (s : State) (bytes : Bytes) : Option State :=
  bytes.foldlM (State.next? limit) s

/-- The one JSON value that `bytes` consist of, nested at most `limit` deep. -/
def read (limit : Option Nat) (bytes : Bytes) : Option Value :=
  (State.start.run? limit bytes).bind State.result?

theorem State.run?_append (limit : Option Nat) (s : State) (a b : Bytes) :
    s.run? limit (a ++ b) = (s.run? limit a).bind (·.run? limit b) := by
  simp only [State.run?, List.foldlM_append]
  rfl

end DeviceGateway.Json
