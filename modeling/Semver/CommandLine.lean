import Semver.Requirement.Basic

/-!
# The command line

Two commands work on texts given as arguments: `compare` puts two versions in order, and `satisfy`
holds a version against a requirement. Each has a short name, and `satisfy` has one flag, which may
stand anywhere among its arguments.

* `Semver.Command`: the commands with their arguments.
* `Semver.Command.ofArguments?`: the command that a list of arguments denotes.
* `Semver.Command.run`: what a command answers.
* `Semver.CommandLine.run`: the outcome of a list of arguments.
-/

namespace Semver

/-- A **command** with its arguments. -/
inductive Command where
  /-- Compares two versions. -/
  | compare (first second : String)
  /-- Holds a version against a requirement. -/
  | satisfy (version requirement : String) (options : Options)
  deriving Repr, DecidableEq

namespace Command

/-! ### Arguments -/

/-- The flag of `satisfy` that lets pre-releases in. -/
def includeFlag : String := "--include-pre-release"

/-- Whether an argument is a flag: it starts with a hyphen and has more than that. -/
def isFlag (argument : String) : Bool :=
  match argument.toList with
  | '-' :: _ :: _ => true
  | _ => false

/-- **The positional arguments among all arguments, and the number of flags.** Only the flags that
are known may occur; after a double hyphen there are no flags any more. -/
def positionals? (known : List String) : List String → Option (List String × Nat)
  | [] => some ([], 0)
  | argument :: rest =>
    if argument = "--" then some (rest, 0)
    else if isFlag argument then
      if known.contains argument then
        (positionals? known rest).map fun found => (found.1, found.2 + 1)
      else none
    else (positionals? known rest).map fun found => (argument :: found.1, found.2)

/-- **The command that a list of arguments denotes**, if it denotes one: a name, two positional
arguments, and for `satisfy` at most one flag. -/
def ofArguments? : List String → Option Command
  | [] => none
  | name :: rest =>
    if name = "compare" || name = "c" then
      match positionals? [] rest with
      | some ([first, second], _) => some (.compare first second)
      | _ => none
    else if name = "satisfy" || name = "s" then
      match positionals? [includeFlag] rest with
      | some ([version, requirement], 0) => some (.satisfy version requirement {})
      | some ([version, requirement], 1) =>
        some (.satisfy version requirement { includePreRelease := true })
      | _ => none
    else none

/-! ### Answers -/

/-- The number that stands for an order in an answer. -/
def orderCode : Ordering → Int
  | .lt => -1
  | .eq => 0
  | .gt => 1

/-- The version that an argument denotes, or the complaint about it. -/
def readVersion (text : String) : Except String Version :=
  (Version.parse text).mapError fun e =>
    "failed to parse npm version (" ++ text ++ "): " ++ e.message

/-- The requirement that an argument denotes, or the complaint about it. -/
def readRequirement (text : String) (options : Options) : Except String Requirement :=
  (Requirement.parse text options).mapError fun e =>
    "failed to parse npm constraint (" ++ text ++ "): " ++ e.message

/-- **What a command answers**, or the complaint about its first argument that is in error. -/
def run : Command → Except String String
  | compare first second => do
    let v ← readVersion first
    let w ← readVersion second
    return toString (orderCode (Ord.compare v w))
  | satisfy version requirement options => do
    let v ← readVersion version
    let r ← readRequirement requirement options
    return toString (r.satisfiedBy v)

end Command

namespace CommandLine

/-- How a program ends. -/
inductive Outcome where
  /-- The command has an answer. -/
  | answer (line : String)
  /-- An argument of the command is in error. -/
  | complaint (line : String)
  /-- The arguments are no command. -/
  | misuse
  deriving Repr, DecidableEq

namespace Outcome

/-- The exit code of an outcome. -/
def exitCode : Outcome → Nat
  | answer _ => 0
  | complaint _ => 1
  | misuse => 2

/-- What an outcome writes to the standard output. -/
def output : Outcome → String
  | answer line => line ++ "\n"
  | _ => ""

/-- How the program is used. -/
def usage : String :=
  "usage: compare VERSION VERSION\n" ++
    "       satisfy [" ++ Command.includeFlag ++ "] VERSION CONSTRAINT\n"

/-- What an outcome writes to the standard error. -/
def complaints : Outcome → String
  | answer _ => ""
  | complaint line => line ++ "\n"
  | misuse => usage

end Outcome

/-- **The outcome of a list of arguments.** -/
def run (arguments : List String) : Outcome :=
  match Command.ofArguments? arguments with
  | none => .misuse
  | some command =>
    match command.run with
    | .ok line => .answer line
    | .error line => .complaint line

end CommandLine

end Semver
