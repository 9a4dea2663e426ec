import Targeting.Text.Numeral

/-!
# Arguments

A command line is a list of words. An option is written `--name VALUE` or `--name=VALUE`, and with a letter
also `-n VALUE`, `-nVALUE` or `-n=VALUE`; a flag is an option without value. A value in a word of its own may
not begin with a hyphen, unless it is a hyphen. No option may be given twice.

* `Switch`, `Given`: an option that is understood, and the options that are given;
* `readSwitches`: the options at the front of a list of words;
* `Stop`: why the words are not carried out.
-/

namespace Targeting.CommandLine

/-- An option that is understood, with the values that it accepts. -/
structure Switch where
  name : String
  letter : Option Char := none
  takesValue : Bool := true
  accepts : String → Bool := fun _ => true

/-- Why a command line is not carried out: it is wrong, or it asks for help. -/
inductive Stop
  | usage
  | help
  deriving DecidableEq

/-- Options by name, each with its value. -/
abbrev Given : Type := List (String × String)

/-- What a word is among options. -/
inductive Form
  | word
  | ending
  | help
  | unknown
  | flag (s : Switch)
  | value (s : Switch) (v : String)
  | wants (s : Switch)

/-- The name and the attached value of a long option. -/
def splitValue (cs : List Char) : String × Option String :=
  let name := String.ofList (cs.takeWhile (· ≠ '='))
  match cs.dropWhile (· ≠ '=') with
  | _ :: v => (name, some (String.ofList v))
  | [] => (name, none)

/-- A long option after its hyphens. -/
def longForm (switches : List Switch) (cs : List Char) : Form :=
  let (name, value) := splitValue cs
  match switches.find? (·.name = name), value with
  | some s, some v => if s.takesValue then .value s v else .unknown
  | some s, none => if s.takesValue then .wants s else .flag s
  | none, none => if name = "help" then .help else .unknown
  | none, some _ => .unknown

/-- An option by its letter, with what follows in the same word. -/
def shortForm (switches : List Switch) (letter : Char) (cs : List Char) : Form :=
  match switches.find? (·.letter = some letter), cs with
  | some s, [] => .wants s
  | some s, '=' :: v => .value s (String.ofList v)
  | some s, v => .value s (String.ofList v)
  | none, _ => if letter = 'h' then .help else .unknown

/-- What a word is among options. -/
def formOf (switches : List Switch) (word : String) : Form :=
  match word.toList with
  | ['-', '-'] => .ending
  | '-' :: '-' :: cs => longForm switches cs
  | '-' :: c :: cs => shortForm switches c cs
  | _ => .word

/-- A word may be the value of the option in front of it. -/
def isValue (word : String) : Bool :=
  match word.toList with
  | '-' :: _ :: _ => false
  | _ => true

/-- The options given so far and one more. -/
def give (given : Given) (s : Switch) (value : String) : Except Stop Given :=
  if (given.lookup s.name).isSome || !s.accepts value then .error .usage
  else .ok (given ++ [(s.name, value)])

/-- The options up to the first other word, added to those given so far, and the words from there on. -/
def readSwitches (switches : List Switch) (given : Given) (words : List String) :
    Except Stop (Given × List String) :=
  match words with
  | [] => .ok (given, [])
  | word :: rest =>
    match formOf switches word with
    | .word => .ok (given, word :: rest)
    | .ending => if rest.isEmpty then .ok (given, []) else .error .usage
    | .help => .error .help
    | .unknown => .error .usage
    | .flag s => do readSwitches switches (← give given s "") rest
    | .value s v => do readSwitches switches (← give given s v) rest
    | .wants s =>
      match rest with
      | [] => .error .usage
      | v :: rest =>
        if isValue v then do readSwitches switches (← give given s v) rest else .error .usage

end Targeting.CommandLine
