/-!
The command line.

There is one option with a value, the path of the configuration, and there are three
flags. The words are read from left to right, and the first fault counts. An option whose
value may stand in the next word is settled only when the word after it has been looked
at, so a word that means nothing is reported before a fault of the option before it.

* `Arguments.parse`: the arguments in the words of a command line.
-/

namespace CallCensus.App

/-- The arguments of the program. -/
structure Arguments where
  /-- The path of the configuration. -/
  config : String
  /-- Whether the sampled files are to be audited. -/
  checkFalsePositives : Bool
deriving DecidableEq, Repr

/-- Why a command line gives no arguments. -/
inductive Usage where
  /-- It asks for help. -/
  | help
  /-- It asks for the version. -/
  | version
  /-- A word means nothing. -/
  | unknownArgument (word : String)
  /-- A value is missing or empty. -/
  | invalidValue
  /-- Something is given twice. -/
  | conflict
  /-- A flag has a value. -/
  | unwantedValue
deriving DecidableEq, Repr

namespace Arguments

/-- The path of the configuration where none is given. -/
def defaultConfig : String := "configs/config.json"

/-- A command line that has been read in part. -/
structure Parsing where
  config : Option String
  checkFalsePositives : Bool
  /-- The value of the option that was read last, if it is not settled, and `none` in its
  place as long as the value has not come. -/
  unsettled : Option (Option String)
  /-- Whether options have ended. -/
  optionsEnded : Bool

namespace Parsing

/-- Nothing has been read. -/
def start : Parsing :=
  ⟨none, false, none, false⟩

/-- Take the value of the option. -/
def setConfig (p : Parsing) (value : String) : Except Usage Parsing :=
  if p.config.isSome then .error .conflict
  else if value.isEmpty then .error .invalidValue
  else .ok { p with config := some value }

/-- Settle the option that was read last. -/
def settle (p : Parsing) : Except Usage Parsing :=
  match p.unsettled with
  | none => .ok p
  | some none => .error .invalidValue
  | some (some value) => { p with unsettled := none }.setConfig value

/-- Settle the option before, and take one with a value or wait for its value. -/
def option (p : Parsing) (value : Option String) : Except Usage Parsing :=
  match p.settle with
  | .error u => .error u
  | .ok p =>
    match value with
    | some value => p.setConfig value
    | none => .ok { p with unsettled := some none }

/-- Settle the option before, and take the flag. -/
def check (p : Parsing) : Except Usage Parsing :=
  match p.settle with
  | .error u => .error u
  | .ok p =>
    if p.checkFalsePositives then .error .conflict
    else .ok { p with checkFalsePositives := true }

/-- Settle the option before, and end with what a flag asks for. -/
def ask (p : Parsing) (u : Usage) : Except Usage Parsing :=
  match p.settle with
  | .error u => .error u
  | .ok _ => .error u

/-- Read an option or flag with a long name. -/
def long (p : Parsing) (word name : String) (value : Option String) : Except Usage Parsing :=
  if name = "config" then p.option value
  else if name = "check-false-positives" ∨ name = "help" ∨ name = "version" then
    if value.isSome then .error .unwantedValue
    else if name = "help" then p.ask .help
    else if name = "version" then p.ask .version
    else p.check
  else .error (.unknownArgument word)

/-- The value that stands in the same word as a short option: an equals sign before it
does not belong to it. -/
def attached? (rest : List Char) : Option String :=
  match rest with
  | [] => none
  | '=' :: value => some (String.ofList value)
  | value => some (String.ofList value)

/-- Read an option or flag with a short name. -/
def short (p : Parsing) (word : String) (name : Char) (rest : List Char) : Except Usage Parsing :=
  if name = 'c' then p.option (attached? rest)
  else if name = 'h' then p.ask .help
  else if name = 'V' then p.ask .version
  else .error (.unknownArgument word)

/-- Read a word that is no option: it can only be the value that an option waits for. -/
def value (p : Parsing) (word : String) : Except Usage Parsing :=
  match p.unsettled with
  | some none => .ok { p with unsettled := some (some word) }
  | _ => .error (.unknownArgument word)

/-- Read a word. -/
def word (p : Parsing) (word : String) : Except Usage Parsing :=
  if p.optionsEnded then .error (.unknownArgument word)
  else
    match word.toList with
    | ['-', '-'] => .ok { p with optionsEnded := true }
    | '-' :: '-' :: rest =>
      match rest.span (· != '=') with
      | (name, []) => p.long word (String.ofList name) none
      | (name, _ :: value) => p.long word (String.ofList name) (some (String.ofList value))
    | '-' :: name :: rest => p.short word name rest
    | _ => p.value word

/-- The arguments at the end of a command line. -/
def finish (p : Parsing) : Except Usage Arguments :=
  p.settle.map fun p => ⟨p.config.getD defaultConfig, p.checkFalsePositives⟩

end Parsing

/-- The arguments in the words of a command line. -/
def parse (words : List String) : Except Usage Arguments :=
  match words.foldlM Parsing.word .start with
  | .error u => .error u
  | .ok p => p.finish

end Arguments

end CallCensus.App
