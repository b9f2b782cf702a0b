/-! Reading a natural number that has to fit in 64 bits. Digits are taken from the left and the
first fault met decides: a character that is no digit, or a value that has grown too large. -/

namespace DeviceGateway.Text

inductive NumberFault
  | empty
  | badDigit
  | tooLarge
  deriving DecidableEq, Repr

def NumberFault.message : NumberFault → String
  | .empty => "cannot parse integer from empty string"
  | .badDigit => "invalid digit found in string"
  | .tooLarge => "number too large to fit in target type"

def digit? (c : Char) : Option Nat :=
  if '0' ≤ c ∧ c ≤ '9' then some (c.toNat - '0'.toNat) else none

def naturalFrom (limit : Nat) : Nat → List Char → Except NumberFault Nat
  | value, [] => .ok value
  | value, c :: rest =>
    match digit? c with
    | none => .error .badDigit
    | some d =>
      if limit < value * 10 + d then .error .tooLarge
      else naturalFrom limit (value * 10 + d) rest

/-- A number of at most `limit`: one optional plus sign, then at least one digit. -/
def natural (limit : Nat) : List Char → Except NumberFault Nat
  | [] => .error .empty
  | ['+'] => .error .badDigit
  | '+' :: rest => naturalFrom limit 0 rest
  | s => naturalFrom limit 0 s

theorem naturalFrom_le {limit value n : Nat} {s : List Char} (hv : value ≤ limit)
    (h : naturalFrom limit value s = .ok n) : n ≤ limit := by
  induction s generalizing value with
  | nil => simp only [naturalFrom, Except.ok.injEq] at h; omega
  | cons c s ih =>
    simp only [naturalFrom] at h
    split at h
    · cases h
    · split at h
      · cases h
      · exact ih (by omega) h

end DeviceGateway.Text
