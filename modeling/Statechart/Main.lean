import Statechart.Command.Places
import Statechart.Command.Run
/-!
# Main — the program

Asks for what stands at the places that a request may look at, runs, writes the file of the run if there is one, and
prints.  Nothing is decided here.
-/
namespace Statechart

def observed (place : Place) : IO (Option Thing) := do
  try
    return some (.file (← IO.FS.readBinFile (String.ofList (Path.ofPlace place).shown)))
  catch
    | .inappropriateType _ 21 _ => return some .folder
    | _ => return none

def observedDisk (here : Place) (places : List Place) : IO Disk := do
  let things ← places.mapM (fun place => return (place, ← observed place))
  return { here, look := fun place => (things.lookup place).join }

end Statechart

open Statechart

def main (args : List String) : IO UInt32 := do
  let args := args.map String.toList
  let here := (Path.ofText (← IO.currentDir).toString.toList).names
  let places := (Request.read? args).elim [] (Request.places here)
  let r := run .supplied { disk := ← observedDisk here places } args
  if let some (place, bytes) := r.written then
    IO.FS.writeBinFile (String.ofList (Path.ofPlace place).shown) bytes
  IO.eprint (String.ofList r.err)
  if let some b := r.breakdown then
    IO.eprintln (String.ofList ("Error: ".toList ++ b.message))
  IO.print (String.ofList r.out)
  return UInt32.ofNat r.code
