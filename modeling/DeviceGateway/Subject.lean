import DeviceGateway.Text.Pieces

/-! Patterns over bus subjects and filters over device topics. In a subject `*` stands for one
token and a final `>` for one or more; in a topic `+` stands for one level and `#` for all that
remain, the level above included. -/

namespace DeviceGateway.Subject

def tokensMatch : List (List Char) → List (List Char) → Bool
  | ['>'] :: _, _ :: _ => true
  | p :: ps, s :: ss => (p == ['*'] || p == s) && tokensMatch ps ss
  | [], [] => true
  | _, _ => false

def levelsMatch : List (List Char) → List (List Char) → Bool
  | ['#'] :: _, _ => true
  | f :: fs, t :: ts => (f == ['+'] || f == t) && levelsMatch fs ts
  | [], [] => true
  | _, _ => false

def tokens (s : String) : List (List Char) := Text.pieces (· == '.') s.toList

def levels (s : String) : List (List Char) := Text.pieces (· == '/') s.toList

def patternMatches (pattern subject : String) : Bool :=
  tokensMatch (tokens pattern) (tokens subject)

def filterMatches (filter topic : String) : Bool := levelsMatch (levels filter) (levels topic)

/-- A subject that can be published on: no empty token and no wildcard token. -/
def isSubject (s : String) : Bool :=
  (tokens s).all fun t => !t.isEmpty && t != ['*'] && t != ['>']

def isPatternTokens : List (List Char) → Bool
  | [] => true
  | t :: ts => !t.isEmpty && (t != ['>'] || ts.isEmpty) && isPatternTokens ts

/-- A pattern that can be subscribed to: no empty token, and `>` as the last token only. -/
def isPattern (s : String) : Bool := isPatternTokens (tokens s)

end DeviceGateway.Subject
