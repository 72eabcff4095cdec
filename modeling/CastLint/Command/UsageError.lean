import CastLint.Command.Grammar

/-! Mistakes in the arguments of a command. -/

namespace CastLint
namespace Command

inductive Complaint where
  | unexpectedArgument (argument : String)
  | unrecognizedSubcommand (name : String)
  | invalidValue (target value : String) (choices : List String)
  | missingValue (target : String) (choices : List String)
  | repeatedOption (option : String)
  /-- A value at an option that takes none. -/
  | unexpectedValue (option value : String)
  | missingOperand (operand : String)
  | missingSubcommand (command : String) (choices : List String)
deriving DecidableEq, Repr

def choicesText (title : String) (choices : List String) : String :=
  if choices.isEmpty then "" else "\n  [" ++ title ++ ": " ++ ", ".intercalate choices ++ "]"

def Complaint.text : Complaint → String
  | unexpectedArgument argument => "unexpected argument '" ++ argument ++ "' found"
  | unrecognizedSubcommand name => "unrecognized subcommand '" ++ name ++ "'"
  | invalidValue target value choices =>
    "invalid value '" ++ value ++ "' for '" ++ target ++ "'" ++
      choicesText "possible values" choices
  | missingValue target choices =>
    "a value is required for '" ++ target ++ "' but none was supplied" ++
      choicesText "possible values" choices
  | repeatedOption option => "the argument '" ++ option ++ "' cannot be used multiple times"
  | unexpectedValue option value =>
    "unexpected value '" ++ value ++ "' for '" ++ option ++ "' found; no more were expected"
  | missingOperand operand =>
    "the following required arguments were not provided:\n  " ++ operand
  | missingSubcommand command choices =>
    "'" ++ command ++ "' requires a subcommand but one was not provided" ++
      choicesText "subcommands" choices

inductive Tip where
  | similarArgument (argument : String)
  | similarValue (value : String)
  /-- At least one subcommand. -/
  | similarSubcommands (names : List String)
  | passAsValue (argument : String)
  | optionOf (subcommand option : String)
  | dropHyphens (subcommand : String)
deriving DecidableEq, Repr

def Tip.text : Tip → String
  | similarArgument argument => "a similar argument exists: '" ++ argument ++ "'"
  | similarValue value => "a similar value exists: '" ++ value ++ "'"
  | similarSubcommands names =>
    (if names.length = 1 then "a similar subcommand exists: " else
      "some similar subcommands exist: ") ++
      ", ".intercalate (names.map fun n => "'" ++ n ++ "'")
  | passAsValue argument =>
    "to pass '" ++ argument ++ "' as a value, use '-- " ++ argument ++ "'"
  | optionOf subcommand option => "'" ++ subcommand ++ " " ++ option ++ "' exists"
  | dropHyphens subcommand =>
    "subcommand '" ++ subcommand ++ "' exists; to use it, remove the '--' before it"

structure UsageError where
  complaint : Complaint
  tip : Option Tip := none
  /-- How to write the command. -/
  usage : Option String := none
deriving DecidableEq, Repr

def UsageError.message (e : UsageError) : String :=
  "error: " ++ e.complaint.text ++ ((e.tip.map fun t => "\n\n  tip: " ++ t.text).getD "") ++
    ((e.usage.map fun u => "\n\nUsage: " ++ u).getD "") ++
    "\n\nFor more information, try '--help'.\n"

end Command
end CastLint
