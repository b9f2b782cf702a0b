import DeviceGateway.Program
import DeviceGateway.Text.Blank
import DeviceGateway.Text.Natural

/-! The filters of the log in rehearsal. A filter is a list of directives with commas between them.
A directive is a level; or a target, for the lines whose target starts with it, with a level of its
own after an equals sign; or it has a span in brackets after the target, and in it a field in
braces. The most special directive that concerns a line decides about it. -/

namespace DeviceGateway

namespace LogLevel

def rank : LogLevel → Nat
  | off => 0
  | error => 1
  | warn => 2
  | info => 3
  | debug => 4
  | trace => 5

def name : LogLevel → String
  | off => "off"
  | error => "error"
  | warn => "warn"
  | info => "info"
  | debug => "debug"
  | trace => "trace"

def all : List LogLevel := [off, error, warn, info, debug, trace]

def ofText? (s : List Char) : Option LogLevel :=
  match Text.natural (UInt64.size - 1) s with
  | .ok n => all.find? (·.rank == n)
  | .error _ => all.find? fun l => l.name.toList == s.map Char.toLower

end LogLevel

/-- A directive with a span, or with the value of a field, concerns no line outside that span. -/
structure LogFilter.Directive where
  level : LogLevel := .trace
  target : Option (List Char) := none
  span : Option (List Char) := none
  field : Option (List Char) := none

structure LogFilter where
  directives : List LogFilter.Directive

namespace LogFilter

def isNameStart (c : Char) : Bool :=
  c.isAlphanum || c == '-' || c == '_' || c == ':' || (127 < c.toNat && !Text.isBlank c)

def levelAfter (s : List Char) : Option LogLevel :=
  if s.isEmpty then some .trace else LogLevel.ofText? s

def afterSpan (d : Directive) : List Char → Option Directive
  | [] => some d
  | '=' :: s => (levelAfter s).map fun level => { d with level := level }
  | _ => none

def inSpan (target : Option (List Char)) (s : List Char) : Option Directive :=
  let name := s.takeWhile fun c => c != ']' && c != '\x7b'
  match s.drop name.length with
  | ']' :: rest => afterSpan { target := target, span := some name } rest
  | '\x7b' :: rest =>
    let field := rest.takeWhile (· != '\x7d')
    if field.isEmpty then none
    else match rest.drop field.length with
      | '\x7d' :: ']' :: rest =>
        afterSpan
          { target := target, span := if name.isEmpty then none else some name, field := some field }
          rest
      | _ => none
  | _ => none

def Directive.ofText? (s : List Char) : Option Directive :=
  match Text.trim s with
  | [] => none
  | '[' :: rest => inSpan none rest
  | c :: rest =>
    if !isNameStart c then none
    else
      let s := c :: rest
      let name := s.takeWhile fun c => c != '=' && c != '['
      match s.drop name.length with
      | '=' :: level => (levelAfter level).map fun level => { level := level, target := some name }
      | '[' :: rest => inSpan (some name) rest
      | _ =>
        match LogLevel.ofText? name with
        | some level => some { level := level }
        | none => some { target := some name }

def ofText? (s : List Char) : Option LogFilter :=
  (((Text.pieces (· == ',') s).filter (!·.isEmpty)).mapM Directive.ofText?).map LogFilter.mk

def Directive.concerns (d : Directive) (line : LogLine) : Bool :=
  d.span.isNone && (d.target.all fun t => t.isPrefixOf line.target.toList) &&
    d.field.all fun f => !f.contains '=' && line.fields.any fun g => g.toList == f

/-- Whether `d` is at least as special as `e`: first by its target, then by its field. -/
def Directive.outranks (d e : Directive) : Bool :=
  let size (t : Option (List Char)) : Nat := (t.map fun t => t.length + 1).getD 0
  if size d.target = size e.target then
    match d.field, e.field with
    | some f, some g => !decide (f < g)
    | none, some _ => false
    | _, none => true
  else size e.target < size d.target

def deciding? (f : LogFilter) (line : LogLine) : Option Directive :=
  (f.directives.filter (·.concerns line)).foldl
    (fun best d => if best.all d.outranks then some d else best) none

def shows (f : LogFilter) (fallback : LogLevel) (line : LogLine) : Bool :=
  let f := if f.directives.isEmpty then ⟨[{ level := fallback }]⟩ else f
  (f.deciding? line).any fun d => line.level.rank ≤ d.level.rank

instance : LogFilters where
  shows? text fallback line := (ofText? text.toList).map fun f => f.shows fallback line

end LogFilter

end DeviceGateway
