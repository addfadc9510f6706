import Abacus.Console

/-! # The program

Reads the arguments, the documents and the standard input, and writes what the
console says. -/

namespace Abacus.Main

open Console

/-- What a path leads to. -/
def find (path : String) : IO Document := do
  try
    return .file (← IO.FS.readBinFile path).toList
  catch
    | .noFileOrDirectory .. => return .unreadable .notFound
    | .permissionDenied .. => return .unreadable .permissionDenied
    | .inappropriateType .. => return .unreadable .isDirectory
    | _ => return .unreadable .other

def write (coloured : Bool) (output : Output) : IO Unit := do
  IO.eprint (output.err.write coloured)
  IO.print output.out
  (← IO.getStdout).flush

def finish (coloured : Bool) (completion : Completion) : IO UInt32 := do
  write coloured completion.output
  return completion.code.toUInt32

/-- Hundredths of a second, rounded to the nearest. -/
def seconds (milliseconds : Nat) : String :=
  let hundredths := (milliseconds + 5) / 10
  let fraction := Text.naturalText (hundredths % 100)
  Text.naturalText (hundredths / 100) ++ "." ++
    (if fraction.length < 2 then "0" ++ fraction else fraction) ++ "s"

/-- The bytes of the next line, with its newline. -/
partial def readLine (input : IO.FS.Stream) (line : List UInt8) : IO (List UInt8) := do
  match (← input.read 1).toList with
  | [] => return line.reverse
  | byte :: _ => if byte = 10 then return (byte :: line).reverse else readLine input (byte :: line)

partial def converse (coloured : Bool) (answer : σ → String → Reply σ) (state : σ) :
    IO UInt32 := do
  let line ← do
    write coloured { out := prompt }
    readLine (← IO.getStdin) []
  if line.isEmpty then return 0
  match Text.Utf8.text? line with
  | none => finish coloured (failed {} (.access .invalidData))
  | some text =>
      let reply := answer state text
      write coloured reply.output
      match reply.next with
      | none => return 0
      | some state => converse coloured answer state

def perform (coloured : Bool) : Command → IO UInt32
  | .run path mode => do
      let start ← IO.monoMsNow
      let document ← find path
      let outcome ← IO.lazyPure fun _ => document.interpret mode path
      let stop ← IO.monoMsNow
      finish coloured (Console.run path (seconds (stop - start)) outcome)
  | .tokens path mode => do finish coloured (Console.tokens path mode (← find path))
  | .parse path rendering mode => do
      finish coloured (Console.parse path rendering mode (← find path))
  | .lexLines => converse coloured lexLine ()
  | .runLines mode => converse coloured (runLine mode) .empty
  | .version => finish coloured (completed { out := versionText })

end Abacus.Main

def main (arguments : List String) : IO UInt32 := do
  let coloured := Abacus.Console.coloured (← IO.getEnv "FORCE_COLOR")
  match Abacus.CommandLine.read? arguments with
  | some command => Abacus.Main.perform coloured command
  | none => return Abacus.usageErrorCode.toUInt32
