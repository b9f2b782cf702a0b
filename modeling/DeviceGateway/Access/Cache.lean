import DeviceGateway.Activity
import DeviceGateway.Duration

/-! A cache whose entries end. An entry counts while the time is before its deadline; a get drops
the entry it finds ended, and a set drops all of them. Time is in nanoseconds from the zero of a
clock whose seconds are a signed number of 64 bits. -/

namespace DeviceGateway

inductive CacheError
  | unavailable (why : String)
  deriving DecidableEq, Repr

def CacheError.message : CacheError → String
  | .unavailable why => "cache unavailable: " ++ why

structure Cache.Entry where
  key : String
  value : String
  deadline : Nat

/-- A cache that crashed in the middle of a set is `poisoned` and answers nothing any more. -/
structure Cache where
  entries : List Cache.Entry := []
  poisoned : Bool := false

namespace Cache

/-- The clock cannot show this time or a later one. -/
def endOfTime : Nat := UInt64.size / 2 * Duration.second

def poisonedError : CacheError := .unavailable "cache lock poisoned"

def find? (c : Cache) (key : String) : Option Entry := c.entries.find? (·.key == key)

def erase (c : Cache) (key : String) : Cache :=
  { c with entries := c.entries.filter (·.key != key) }

def sweep (c : Cache) (now : Nat) : Cache :=
  { c with entries := c.entries.filter fun e => now < e.deadline }

def get (c : Cache) (now : Nat) (key : String) : Cache × Except CacheError (Option String) :=
  if c.poisoned then (c, .error poisonedError)
  else match c.find? key with
    | none => (c, .ok none)
    | some e => if now < e.deadline then (c, .ok (some e.value)) else (c.erase key, .ok none)

/-- A deadline past the end of time crashes the set, after the sweep. -/
def set (c : Cache) (now : Nat) (key value : String) (ttl : Duration) :
    Cache × Outcome (Except CacheError Unit) :=
  if c.poisoned then (c, .answer (.error poisonedError))
  else
    let kept := c.sweep now
    if endOfTime ≤ now + ttl.nanos then ({ kept with poisoned := true }, .crash)
    else
      ({ kept.erase key with entries := ⟨key, value, now + ttl.nanos⟩ :: (kept.erase key).entries },
        .answer (.ok ()))

def size (c : Cache) : Nat := if c.poisoned then 0 else c.entries.length

theorem find?_erase (c : Cache) (key other : String) :
    (c.erase key).find? other = if other = key then none else c.find? other := by
  simp only [erase, find?, List.find?_filter]
  split
  · subst other
    simp
  · rename_i h
    congr 1
    funext e
    by_cases he : e.key = other <;> simp [he, h]

theorem poisoned_get (c : Cache) (now : Nat) (key : String) :
    (c.get now key).1.poisoned = c.poisoned := by
  simp only [get, erase]
  repeat (split <;> try rfl)

end Cache

end DeviceGateway
