import Abacus.Lexer

/-! # Command lines

The commands of the program and the arguments that ask for them. Options and the
path may come in any order, and behind `--` everything is a path. An option that
is unknown or given twice is no command, and neither is an empty path. -/

namespace Abacus

/-- How a parsed program is written out. -/
inductive Rendering
  | parenthesized
  | reversePolish
  | outline
deriving DecidableEq, Inhabited

inductive Command
  /-- Runs a program and lists its variables. -/
  | run (path : String) (mode : Mode)
  /-- Lists the tokens of a program. -/
  | tokens (path : String) (mode : Mode)
  /-- Writes out a program without running it. -/
  | parse (path : String) (rendering : Rendering) (mode : Mode)
  /-- Lexes every line of the standard input. -/
  | lexLines
  /-- Runs every line of the standard input. -/
  | runLines (mode : Mode)
  | version
deriving DecidableEq, Inhabited

namespace CommandLine

def defaultPath : String := "input.txt"

/-- Arguments told apart: the options that were given, and the others. -/
structure Arguments where
  options : List String
  positional : List String
deriving DecidableEq, Inhabited

/-- A single dash is an argument like any other. -/
def isOption (argument : String) : Bool :=
  argument.startsWith "-" && argument != "-"

/-- Tells arguments apart, if the options are among the known ones and no option is
given twice. -/
def sort? (known : List String) : List String → Option Arguments
  | [] => some ⟨[], []⟩
  | argument :: rest =>
      if argument = "--" then some ⟨[], rest⟩
      else
        match sort? known rest with
        | none => none
        | some ⟨options, positional⟩ =>
            if isOption argument then
              if known.contains argument && !options.contains argument then
                some ⟨argument :: options, positional⟩
              else none
            else some ⟨options, argument :: positional⟩

namespace Arguments

def mode (arguments : Arguments) : Mode :=
  if arguments.options.contains "--strict" then .strict else .permissive

def path? (arguments : Arguments) : Option String :=
  match arguments.positional with
  | [] => some defaultPath
  | [path] => if path.isEmpty then none else some path
  | _ => none

/-- The outline wins over reverse Polish order. -/
def rendering (arguments : Arguments) : Rendering :=
  if arguments.options.contains "--print-ast" then .outline
  else if arguments.options.contains "--postfix" then .reversePolish
  else .parenthesized

end Arguments

/-- The command behind its name. -/
def subcommand? (name : String) (rest : List String) : Option Command := do
  match name with
  | "run" =>
      let arguments ← sort? ["--strict"] rest
      return .run (← arguments.path?) arguments.mode
  | "tokens" =>
      let arguments ← sort? ["--strict"] rest
      return .tokens (← arguments.path?) arguments.mode
  | "parse" =>
      let arguments ← sort? ["--postfix", "--print-ast", "--strict"] rest
      return .parse (← arguments.path?) arguments.rendering arguments.mode
  | "rlpl" =>
      let arguments ← sort? [] rest
      if arguments.positional.isEmpty then return .lexLines else none
  | "repl" =>
      let arguments ← sort? ["--strict"] rest
      if arguments.positional.isEmpty then return .runLines arguments.mode else none
  | _ => none

/-- The command that arguments ask for, if they ask for one. The version can be asked
for by an option of one letter too, whatever letters follow it. -/
def read? : List String → Option Command
  | [] => some (.run defaultPath .permissive)
  | ["--"] => some (.run defaultPath .permissive)
  | name :: rest =>
      if name = "--version" || name.startsWith "-V" then some .version
      else subcommand? name rest

end CommandLine

end Abacus
