import CastLint.Report.Json
import CastLint.Text.Blank
import CastLint.Text.Letter
import CastLint.Text.Quoted

/-! Messages about the work of the program, and which of them are written. -/

namespace CastLint
namespace Command
namespace Log

inductive Level where
  | trace | debug | info | warn | error
deriving DecidableEq, Repr, Inhabited

namespace Level

/-- The number of levels that are at least as important. -/
def rank : Level → Nat
  | error => 1
  | warn => 2
  | info => 3
  | debug => 4
  | trace => 5

def name : Level → String
  | trace => "TRACE"
  | debug => "DEBUG"
  | info => "INFO"
  | warn => "WARN"
  | error => "ERROR"

def all : List Level := [trace, debug, info, warn, error]

def ofName? (name : String) : Option Level :=
  all.find? fun l => l.name.toList = name.toList.map Char.toUpper

def colour : Level → String
  | trace => "35"
  | debug => "34"
  | info => "32"
  | warn => "33"
  | error => "31"

end Level

inductive Field where
  /-- A text in quotes. -/
  | quoted (s : String)
  | text (s : String)
  | number (n : Nat)
  | boolean (b : Bool)
deriving DecidableEq, Repr

def Field.shown : Field → String
  | quoted s => Text.quoted s
  | text s => s
  | number n => toString n
  | boolean b => toString b

def Field.json : Field → Report.Json
  | quoted s => .string s
  | text s => .string s
  | number n => .number n
  | boolean b => .boolean b

structure Event where
  level : Level
  /-- The part of the program that speaks. -/
  target : String
  message : String
  fields : List (String × Field) := []
deriving DecidableEq, Repr

/-- A rule about which events are written: those of targets that start so, or all, that have the
fields, and up to a rank. -/
structure Directive where
  target : Option String
  fields : List String := []
  rank : Nat
  /-- The rule is about events inside a span, or about the values of fields there. -/
  isScoped : Bool := false
deriving DecidableEq, Repr

def number? (word : String) : Option Nat :=
  let digits := match word.toList with
    | '+' :: cs => cs
    | cs => cs
  if digits.isEmpty || !digits.all Char.isDigit then none
  else some (digits.foldl (fun n c => 10 * n + (c.toNat - 48)) 0)

def rankOf? (word : String) : Option Nat :=
  match number? word with
  | some n => if n ≤ 5 then some n else none
  | none =>
    if word.toList.map Char.toLower = "off".toList then some 0 else (Level.ofName? word).map Level.rank

inductive DirectiveError where
  | invalid
  | unknownLevel
deriving DecidableEq, Repr

def DirectiveError.message : DirectiveError → String
  | invalid => "invalid filter directive"
  | unknownLevel =>
    "error parsing level filter: expected one of \"off\", \"error\", \"warn\", \"info\", " ++
      "\"debug\", \"trace\", or a number 0-5"

def startsDirective (c : Char) : Bool :=
  c.isAlphanum || c = '-' || c = ':' || c = '_' || Text.isLetter c || Text.isMark c

inductive Stage where
  | start
  | word (origin : Nat)
  | span (origin : Nat)
  | field (origin : Nat)
  | fields
  | target
  | level (origin : Nat)
deriving DecidableEq, Repr

def Directive.addField (d : Directive) (text : String) : Except DirectiveError Directive :=
  if text = "" then .error .invalid
  else
    let cs := text.toList
    .ok { d with
      fields := d.fields ++ [String.ofList (cs.takeWhile (· ≠ '='))]
      isScoped := d.isScoped || cs.contains '=' }

/-- Takes the character `c`, the `i`-th one; `cut` gives the text between two places. -/
def Directive.step (cut : Nat → Nat → String) (d : Directive) (i : Nat) (c : Char) :
    Stage → Except DirectiveError (Directive × Stage)
  | .start =>
    if c = '[' then .ok (d, .span (i + 1))
    else if startsDirective c then .ok (d, .word i)
    else .error .invalid
  | .word origin =>
    if c = '=' then .ok ({ d with target := some (cut origin i) }, .level (i + 1))
    else if c = '[' then .ok ({ d with target := some (cut origin i) }, .span (i + 1))
    else .ok (d, .word origin)
  | .span origin =>
    if c = ']' then .ok ({ d with isScoped := true }, .target)
    else if c = '\x7b' then
      .ok ({ d with isScoped := d.isScoped || cut origin i ≠ "" }, .field (i + 1))
    else .ok (d, .span origin)
  | .field origin =>
    if c = '\x7d' then do return (← d.addField (cut origin i), .fields)
    else .ok (d, .field origin)
  | .fields => if c = ']' then .ok (d, .target) else .error .invalid
  | .target => if c = '=' then .ok (d, .level (i + 1)) else .error .invalid
  | .level origin => .ok (d, .level origin)

def Directive.steps (cut : Nat → Nat → String) :
    Directive → Nat → Stage → List Char → Except DirectiveError (Directive × Stage)
  | d, _, stage, [] => .ok (d, stage)
  | d, i, stage, c :: cs =>
    match d.step cut i c stage with
    | .ok (d, stage) => Directive.steps cut d (i + 1) stage cs
    | .error e => .error e

/-- A directive is a level, a target, or a target with a level; behind a target, brackets can hold
the name of a span and, in braces, a field. A directive without a level has all levels. Blanks
around a directive are skipped, but its parts are counted from the start of the text. -/
def Directive.parse (text : String) : Except DirectiveError Directive :=
  let cs := text.toList
  let cut (first last : Nat) : String := String.ofList ((cs.drop first).take (last - first))
  let blank : Directive := { target := none, rank := Level.trace.rank }
  match Directive.steps cut blank 0 .start (Text.trim cs) with
  | .error e => .error e
  | .ok (d, .word origin) =>
    let word := cut origin cs.length
    match rankOf? word with
    | some rank => .ok { d with rank := rank }
    | none => .ok { d with target := some word }
  | .ok (d, .level origin) =>
    let level := cut origin cs.length
    if level = "" then .ok d
    else
      match rankOf? level with
      | some rank => .ok { d with rank := rank }
      | none => .error .unknownLevel
  | .ok (d, .target) => .ok d
  | .ok _ => .error .invalid

def parts (text : String) : List String :=
  (text.splitOn ",").filter (· ≠ "")

def directives (text : String) : List Directive :=
  (parts text).filterMap fun p => (Directive.parse p).toOption

def complaints (text : String) : List String :=
  (parts text).filterMap fun p =>
    match Directive.parse p with
    | .ok _ => none
    | .error e => some ("ignoring \x60" ++ p ++ "\x60: " ++ e.message)

/-- How closely a directive fits an event if it is about it: the length of the target, and the
number of fields. The program opens no spans, so a directive about one fits nothing. -/
def Directive.fit? (e : Event) (d : Directive) : Option (Nat × Nat) :=
  let names := "message" :: e.fields.map (·.1)
  if d.isScoped || !d.fields.all names.contains then none
  else
    match d.target with
    | none => some (0, d.fields.length)
    | some start =>
      if start.toList.isPrefixOf e.target.toList then some (start.length + 1, d.fields.length)
      else none

/-- The directive that fits an event most closely, and of two equally close ones the one with the
greater fields or the later. -/
def best? (e : Event) (ds : List Directive) : Option Directive :=
  (ds.foldl (fun (best : Option ((Nat × Nat) × Directive)) d =>
    match d.fit? e, best with
    | none, _ => best
    | some n, none => some (n, d)
    | some n, some (m, b) =>
      let closer := m.1 < n.1 || (m.1 = n.1 && m.2 < n.2)
      if closer || (m = n && !(decide (d.fields < b.fields))) then some (n, d) else best)
    none).map (·.2)

structure Settings where
  directives : List Directive
  json : Bool
  /-- Whether words have colours. -/
  ansi : Bool
  /-- The time that is written in front of a message. -/
  time : String
deriving Repr

def Settings.writes (s : Settings) (e : Event) : Bool :=
  (best? e s.directives).any fun d => e.level.rank ≤ d.rank

def Event.json (time : String) (e : Event) : Report.Json :=
  .object [("timestamp", .string time), ("level", .string e.level.name),
    ("fields", .object (("message", .string e.message) :: e.fields.map fun (k, f) => (k, f.json))),
    ("target", .string e.target)]

def styled (ansi : Bool) (code text : String) : String :=
  if ansi then "\x1b[" ++ code ++ "m" ++ text ++ "\x1b[0m" else text

def Event.text (ansi : Bool) (e : Event) : String :=
  let name := String.ofList (List.replicate (5 - e.level.name.length) ' ') ++ e.level.name
  styled ansi e.level.colour name ++ " " ++ e.message ++
    String.join (e.fields.map fun (k, f) =>
      " " ++ styled ansi "3" k ++ styled ansi "2" "=" ++ f.shown)

def Settings.line (s : Settings) (e : Event) : String :=
  if s.writes e then (if s.json then (e.json s.time).line else e.text s.ansi) ++ "\n" else ""

end Log
end Command
end CastLint
