import CastLint.Command.Help
import CastLint.Command.Log
import CastLint.Command.Suggestion
import CastLint.Command.UsageError
import CastLint.Text.ByteString

/-! What the arguments of the program ask for. Options may stand on both sides of an operand, two
hyphens end them, and an argument counts only when the next one is reached, so that a mistake in it
may come second. -/

namespace CastLint
namespace Command

inductive Format where
  | pretty | text | json | ndjson
deriving DecidableEq, Repr, Inhabited

def Format.ofName? : String → Option Format
  | "pretty" => some .pretty
  | "text" => some .text
  | "json" => some .json
  | "ndjson" => some .ndjson
  | _ => none

structure CheckOptions where
  path : ByteString
  fix : Bool := false
  format : Format := .pretty
  failOnWarnings : Bool := false
  noColor : Bool := false
deriving DecidableEq, Repr

inductive Action where
  | check (options : CheckOptions)
  | explain (rule : String)
deriving DecidableEq, Repr

structure Invocation where
  action : Action
  logLevel : Log.Level := .warn
  logJson : Bool := false
deriving DecidableEq, Repr

inductive Stop where
  | help (topic : HelpTopic)
  | version
  | noArguments
  | mistake (e : UsageError)
deriving DecidableEq, Repr

inductive Given where
  | option (o : OptionSpec) (value : Option String)
  | operand (text : String)
deriving DecidableEq, Repr

namespace Given

def option? : Given → Option OptionSpec
  | option o _ => some o
  | operand _ => none

def operand? : Given → Option String
  | option _ _ => none
  | operand text => some text

end Given

structure Taken where
  given : List Given := []
  /-- The last argument, which may lack its value. -/
  pending : Option Given := none
deriving DecidableEq, Repr

namespace Taken

def options (t : Taken) : List OptionSpec := t.given.filterMap Given.option?

def has (t : Taken) (o : OptionSpec) : Bool := t.options.contains o

def operand? (t : Taken) : Option String := t.given.findSome? Given.operand?

/-- An operand is there, even if it does not yet count. -/
def hasOperand (t : Taken) : Bool :=
  t.operand?.isSome || (t.pending.bind Given.operand?).isSome

def waiting? (t : Taken) : Option OptionSpec :=
  match t.pending with
  | some (.option o none) => some o
  | _ => none

def valueOf? (t : Taken) (o : OptionSpec) : Option String :=
  t.given.findSome? fun g =>
    match g with
    | .option p value => if p = o then value else none
    | .operand _ => none

end Taken

def valueMistake? (o : OptionSpec) (value : String) : Option UsageError :=
  match o.kind with
  | .choice _ values =>
    if values.contains value then none
    else if value = "" then some { complaint := .missingValue o.text values }
    else some {
      complaint := .invalidValue o.text value values
      tip := (mostSimilar? value values).map .similarValue }
  | _ => none

def OptionSpec.values (o : OptionSpec) : List String :=
  match o.kind with
  | .choice _ values => values
  | _ => []

variable (g : Grammar)

/-- Takes an option over. It must not come twice. -/
def take (t : Taken) (o : OptionSpec) (value : Option String) : Taken × Option UsageError :=
  if t.has o then
    ({ t with given := t.given.filter fun x => x.option? ≠ some o },
      some { complaint := .repeatedOption o.text, usage := some g.usage })
  else ({ t with given := t.given ++ [.option o value] }, value.bind (valueMistake? o))

def settle (t : Taken) : Taken × Option UsageError :=
  let done := { t with pending := none }
  match t.pending with
  | none => (t, none)
  | some (.option o none) => (done, some { complaint := .missingValue o.text o.values })
  | some (.option o (some value)) => take g done o (some value)
  | some (.operand text) =>
    ({ done with given := t.given ++ [.operand text] },
      if g.operand = .path && text = "" then
        some { complaint := .missingValue g.operand.text [] }
      else none)

def orStop (r : Taken × Option UsageError) : Except Stop Taken :=
  match r with
  | (t, none) => .ok t
  | (_, some e) => .error (.mistake e)

def topicOf (long : Bool) : HelpTopic :=
  match g.operand with
  | .path => .check
  | .rule => .explain
  | .subcommand => if long then .program else .summary

def takeValue (t : Taken) (o : OptionSpec) (value : String) : Except Stop Taken := do
  orStop (take g (← orStop (settle g t)) o (some value))

def awaitValue (t : Taken) (o : OptionSpec) : Except Stop Taken := do
  return { ← orStop (settle g t) with pending := some (.option o none) }

def takeFlag (t : Taken) (o : OptionSpec) (long : Bool) : Except Stop Taken := do
  let t ← orStop (settle g t)
  match o.kind with
  | .help => .error (.help (topicOf g long))
  | .version => .error .version
  | _ => orStop (take g t o none)

def Subcommand.grammar? : Subcommand → Option Grammar
  | .check => some checkGrammar
  | .explain => some explainGrammar
  | .help => none

def optionElsewhere? (name : String) : List String → Option Tip
  | [] => none
  | a :: rest =>
    match (Subcommand.ofName? a).bind fun c =>
      c.grammar?.bind fun h => (mostSimilar? name h.longs).map fun l => Tip.optionOf c.name ("--" ++ l)
    with
    | some tip => some tip
    | none => optionElsewhere? name rest

def usageOf (t : Taken) : String :=
  if t.given.isEmpty then g.usage else g.usageWith t.options

def unknownLong (t : Taken) (name : String) (rest : List String) : UsageError :=
  let t := (settle g t).1
  let complaint := Complaint.unexpectedArgument ("--" ++ name)
  match (mostSimilar? name g.longs).bind g.findLong? with
  | some o =>
    { complaint := complaint, tip := some (.similarArgument ("--" ++ o.long))
      usage := some (g.usageWith (t.options ++ [o])) }
  | none =>
    { complaint := complaint
      tip := if g.hasSubcommands then optionElsewhere? name rest
        else some (.passAsValue ("--" ++ name))
      usage := some (usageOf g t) }

def readLong (t : Taken) (text : List Char) (rest : List String) : Except Stop Taken :=
  let name := String.ofList (text.takeWhile (· ≠ '='))
  let value := match text.dropWhile (· ≠ '=') with
    | [] => none
    | _ :: value => some (String.ofList value)
  match g.findLong? name with
  | none => .error (.mistake (unknownLong g t name rest))
  | some o =>
    match o.kind, value with
    | .choice _ _, some value => takeValue g t o value
    | .choice _ _, none => awaitValue g t o
    | _, none => takeFlag g t o true
    | _, some value =>
      .error (.mistake {
        complaint := .unexpectedValue o.text value
        usage := some (g.usageWith (t.options ++ [o])) })

/-- Options behind one hyphen. The rest behind one with a value is its value. -/
def readShorts (t : Taken) : List Char → Except Stop Taken
  | [] => .ok t
  | c :: cs =>
    match g.findShort? c with
    | none =>
      let name := "-" ++ c.toString
      .error (.mistake {
        complaint := .unexpectedArgument name
        tip := if g.hasSubcommands then none else some (.passAsValue name)
        usage := some g.usage })
    | some o =>
      match o.kind, cs with
      | .choice _ _, [] => awaitValue g t o
      | .choice _ _, '=' :: value => takeValue g t o (String.ofList value)
      | .choice _ _, value => takeValue g t o (String.ofList value)
      | _, cs =>
        match takeFlag g t o false with
        | .error e => .error e
        | .ok t => readShorts t cs

def unexpected (trailing : Bool) (a : String) : UsageError :=
  if g.hasSubcommands then
    if trailing && (Subcommand.ofName? a).isSome then
      { complaint := .unexpectedArgument a, tip := some (.dropHyphens a), usage := some g.usage }
    else
      let names := similar a Subcommand.names
      { complaint := .unrecognizedSubcommand a
        tip := if names.isEmpty then none else some (.similarSubcommands names)
        usage := some g.usage }
  else { complaint := .unexpectedArgument a, usage := some g.usage }

def readOperand (t : Taken) (trailing : Bool) (a : String) : Except Stop Taken :=
  if g.hasSubcommands || t.hasOperand then .error (.mistake (unexpected g trailing a))
  else do return { ← orStop (settle g t) with pending := some (.operand a) }

def readArgument (t : Taken) (a : String) (rest : List String) : Except Stop Taken :=
  match a.toList with
  | '-' :: '-' :: text => readLong g t text rest
  | '-' :: c :: cs => readShorts g t (c :: cs)
  | _ =>
    match t.waiting? with
    | some o => .ok { t with pending := some (.option o (some a)) }
    | none => readOperand g t false a

/-- The arguments of a command up to a subcommand, with what follows its name. -/
def read (trailing : Bool) (t : Taken) :
    List String → Except Stop (Taken × Option (Subcommand × List String))
  | [] => .ok (t, none)
  | a :: rest =>
    if trailing then
      match readOperand g t true a with
      | .error e => .error e
      | .ok t => read true t rest
    else
      match if g.hasSubcommands && t.waiting?.isNone then Subcommand.ofName? a else none with
      | some c => .ok (t, some (c, rest))
      | none =>
        if a = "--" then read true t rest
        else
          match readArgument g t a rest with
          | .error e => .error e
          | .ok t => read false t rest

def readAll (args : List String) : Except Stop (Taken × String) := do
  let (t, _) ← read g false {} args
  let t ← orStop (settle g t)
  match t.operand? with
  | some operand => return (t, operand)
  | none =>
    .error (.mistake {
      complaint := .missingOperand g.operand.text
      usage := some (g.usageWith t.options) })

def helpAbout : List String → Stop
  | [] => .help .program
  | a :: rest =>
    let unrecognized (name usage : String) : Stop :=
      .mistake { complaint := .unrecognizedSubcommand name, usage := some usage }
    match Subcommand.ofName? a, rest with
    | none, _ => unrecognized a topGrammar.usage
    | some .check, [] => .help .check
    | some .explain, [] => .help .explain
    | some .help, [] => .help .help
    | some .check, b :: _ => unrecognized b checkGrammar.usage
    | some .explain, b :: _ => unrecognized b explainGrammar.usage
    | some .help, b :: _ => unrecognized b (program ++ " help [COMMAND]...")

def withoutSubcommand (t : Taken) : Stop :=
  if t.given.isEmpty then .noArguments
  else .mistake {
    complaint := .missingSubcommand program Subcommand.names
    usage := some topGrammar.usage }

/-- The invocation for an action. What stands behind the subcommand wins. -/
def invocation (top inner : Taken) (action : Action) : Invocation where
  action := action
  logLevel := ((inner.valueOf? logLevelOption <|> top.valueOf? logLevelOption).bind
    Log.Level.ofName?).getD .warn
  logJson := inner.has logJsonOption || top.has logJsonOption

def checkAction (t : Taken) (path : String) : Action :=
  .check {
    path := path
    fix := t.has fixOption
    format := ((t.valueOf? formatOption).bind Format.ofName?).getD .pretty
    failOnWarnings := t.has failOnWarningsOption
    noColor := t.has noColorOption }

def parseArguments (args : List String) : Except Stop Invocation := do
  match ← read topGrammar false {} args with
  | (top, none) => .error (withoutSubcommand (← orStop (settle topGrammar top)))
  | (_, some (.help, rest)) => .error (helpAbout rest)
  | (top, some (.check, rest)) =>
    let (inner, path) ← readAll checkGrammar rest
    return invocation (← orStop (settle topGrammar top)) inner (checkAction inner path)
  | (top, some (.explain, rest)) =>
    let (inner, rule) ← readAll explainGrammar rest
    return invocation (← orStop (settle topGrammar top)) inner (.explain rule)

end Command
end CastLint
