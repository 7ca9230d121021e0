import Statechart.Files.Path
import Statechart.Text.Bytes
import Statechart.Text.Quoted
/-!
# Disk — what stands at every place

A disk tells what stands at a place, and where one stands.  A path is walked name by name: every place on the way has
to be a folder, also the one that `..` leaves.  Writing puts a file at the end of a path whose way is there, and
leaves every other place alone (`look_put_of_ne`).
-/
namespace Statechart

/-- What stands at a place. -/
inductive Thing where
  | folder
  | file (bytes : ByteArray)

/-- Why a file cannot be read or written. -/
inductive Fault where
  | missing
  /-- A file is on the way. -/
  | noFolder
  /-- A folder stands where a file should. -/
  | folder
  /-- There is no room for what is written. -/
  | full
deriving DecidableEq, Repr

namespace Fault

def number : Fault → Nat
  | missing => 2
  | noFolder => 20
  | folder => 21
  | full => 28

def description : Fault → Text
  | missing => "No such file or directory".toList
  | noFolder => "Not a directory".toList
  | folder => "Is a directory".toList
  | full => "No space left on device".toList

/-- The fault, with the path in question; a fault met while writing does not name it. -/
def message (path : Path) (f : Fault) : Text :=
  "[Errno ".toList ++ Text.ofNat f.number ++ "] ".toList ++ f.description ++
    if f = full then [] else ": ".toList ++ Text.quoted path.shown

end Fault

structure Disk where
  /-- Where paths without a slash in front begin. -/
  here : Place
  look : Place → Option Thing

namespace Disk

/-- The place where a walk along names ends. -/
def walk (d : Disk) : Place → List Text → Except Fault Place
  | place, [] => .ok place
  | place, name :: names => match d.look place with
    | some .folder => walk d (Path.step place name) names
    | some (.file _) => .error .noFolder
    | none => .error .missing

/-- The place that a path names. -/
def find (d : Disk) (p : Path) : Except Fault Place := d.walk (p.origin d.here) p.names

def read (d : Disk) (p : Path) : Except Fault ByteArray :=
  match d.find p with
  | .error f => .error f
  | .ok place => match d.look place with
    | some (.file bytes) => .ok bytes
    | some .folder => .error .folder
    | none => .error .missing

/-- The place where the file that a path names can be written. -/
def target (d : Disk) (p : Path) : Except Fault Place :=
  match d.find p with
  | .error f => .error f
  | .ok place => match d.look place with
    | some .folder => .error .folder
    | _ => .ok place

def put (d : Disk) (place : Place) (bytes : ByteArray) : Disk where
  here := d.here
  look q := if q = place then some (.file bytes) else d.look q

def isFolder (d : Disk) (place : Place) : Bool :=
  match d.look place with
  | some .folder => true
  | _ => false

def isFile (d : Disk) (place : Place) : Bool :=
  match d.look place with
  | some (.file _) => true
  | _ => false

theorem look_put (d : Disk) (place : Place) (bytes : ByteArray) :
    (d.put place bytes).look place = some (.file bytes) := by simp [put]

/-- **Writing changes one place only.** -/
theorem look_put_of_ne (d : Disk) {place other : Place} (bytes : ByteArray) (h : other ≠ place) :
    (d.put place bytes).look other = d.look other := by simp [put, h]

end Disk
end Statechart
