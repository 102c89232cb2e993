import StyleTree.CommandLine.Command
import StyleTree.CommandLine.Printout

/-! # The command on this machine

The host of the command on a real machine, and the entry point. -/

namespace StyleTree

/-- The result of an action, if it does not fail. -/
def attempt? {α : Type} (action : IO α) : IO (Option α) := do
  try
    return some (← action)
  catch _ => return none

/-- The host on this machine. -/
def machineHost : Host IO where
  readFile name := attempt? (IO.FS.readFile name)
  readInput := do
    let bytes ← attempt? (do (← IO.getStdin).readBinToEnd)
    return bytes.bind String.fromUTF8?
  writeFile name text := return (← attempt? (IO.FS.writeFile name text)).isSome
  print text := do
    let output ← IO.getStdout
    let printout := Printout.print {} text
    output.putStr printout.shown
    output.flush
    output.putStr printout.held

/-- A generator with a seed that the machine makes up. -/
def unseededGenerator : IO Generator := do
  let bytes ← IO.getRandomBytes 8
  return .ofSeed (bytes.toList.foldl (fun seed byte => seed * 256 + byte.toUInt64) 0)

end StyleTree

/-- Run the command with the arguments given. -/
def main (arguments : List String) : IO UInt32 := do
  let request := StyleTree.Request.ofArguments arguments
  let exit ← request.run StyleTree.machineHost (← StyleTree.unseededGenerator)
  match exit.message with
  | some message => IO.eprintln ("Error: " ++ message)
  | none => pure ()
  return UInt32.ofNat exit.code
