import Statechart.Chart.Record
import Statechart.Doc.Format
import Statechart.Files.Disk
import Statechart.Grammar.Reading
import Statechart.Text.Casing
import Statechart.Toml.Document
/-!
# Settings — the configuration file

A configuration file sets the id of a root that joins several states, the format and the indentation of what is
written, and the least level of the records that are shown.  What it does not set has a default.  The file that counts
is the nearest one: in the folder asked about, or else in the first folder around it that has one.

A setting that cannot be used is refused.  Settings are looked at in a fixed order, format, indentation, level and id,
and the first that cannot be used is the one reported.
-/
namespace Statechart

structure Settings where
  rootId : Text := defaultRootId
  format : Format := .json
  indent : Nat := 2
  level : Level := .warning
deriving DecidableEq, Repr

namespace Settings

/-- Why a configuration file cannot be used. -/
inductive Problem where
  | fault (f : Fault)
  /-- The bytes of the file are no text. -/
  | notText
  | malformed
  /-- A whole number in the file has more digits than are read, so many, or than are written. -/
  | tooLong (digits : Option Nat)
  /-- Where a section should be there is a value of another type. -/
  | noSection (typeName : Text)
  | unknownFormat (name : Text)
  | badIndent (stated : Text)
  | unknownLevel (name : Text)
  | badRootId
deriving DecidableEq, Repr

namespace Problem

/-- Whether the problem is one that the file's author is told about. -/
def isReported : Problem → Bool
  | notText | tooLong _ | noSection _ => false
  | _ => true

/-- What is wrong with the file that a path names. -/
def message (path : Path) : Problem → Text
  | fault f => f.message path
  | notText => "The file is not encoded as UTF-8".toList
  | malformed => "Invalid TOML in ".toList ++ path.shown
  | tooLong digits =>
    "Exceeds the limit (".toList ++ Text.ofNat Whole.maxDigits ++ " digits) for integer string conversion".toList ++
      (match digits with
        | none => []
        | some n => ": value has ".toList ++ Text.ofNat n ++ " digits".toList) ++
      "; use sys.set_int_max_str_digits() to increase the limit".toList
  | noSection typeName => Text.quoted typeName ++ " object has no attribute 'get'".toList
  | unknownFormat name =>
    "Unknown output format ".toList ++ Text.quoted name ++ " in ".toList ++ path.shown ++
      " (expected one of: ".toList ++ Text.join ", ".toList (Format.all.map Format.name) ++ [')']
  | badIndent stated =>
    "Output indent must be a non-negative integer in ".toList ++ path.shown ++ ", got ".toList ++ stated
  | unknownLevel name => "Unknown log level ".toList ++ Text.quoted name ++ " in ".toList ++ path.shown
  | badRootId => "Parser root_id must be a non-empty string in ".toList ++ path.shown

end Problem

def fileName : Text := "chartlang.toml".toList

/-- A section of the file; one that is not there is empty. -/
def section? (t : Toml.Table) (name : Text) : Except Problem Toml.Table :=
  match Keyed.get? t name with
  | none => .ok []
  | some (.table entries) => .ok entries
  | some v => .error (.noSection v.typeName)

/-- What a message writes, unless it is a number with too many digits. -/
def written : Option Text → Except Problem Text
  | none => .error (.tooLong none)
  | some t => .ok t

/-- A setting that is one of several names, each as `casing` writes it. -/
def nameOf {α : Type} (casing : Text → Text) (ofName? : Text → Option α) (unknown : Text → Problem) (default : α)
    (key : Text) (entries : Toml.Table) : Except Problem α :=
  match Keyed.get? entries key with
  | none => .ok default
  | some v => do
    let name := casing (← written v.plain)
    match ofName? name with
    | some a => .ok a
    | none => .error (unknown name)

/-- The format that a section sets; capital letters do not matter. -/
def formatOf : Toml.Table → Except Problem Format :=
  nameOf Text.lower Format.ofName? .unknownFormat .json "format".toList

def indentOf (output : Toml.Table) : Except Problem Nat :=
  match Keyed.get? output "indent".toList with
  | none => .ok 2
  | some (.int (.ofNat n)) => .ok n
  | some v => do
    let stated ← written v.stated
    .error (.badIndent stated)

/-- The level that a section sets; small letters do not matter. -/
def levelOf : Toml.Table → Except Problem Level :=
  nameOf Text.upper Level.ofName? .unknownLevel .warning "level".toList

def rootIdOf (parser : Toml.Table) : Except Problem Text :=
  match Keyed.get? parser "root_id".toList with
  | none => .ok defaultRootId
  | some (.text (c :: cs)) => .ok (c :: cs)
  | some _ => .error .badRootId

def ofTable (t : Toml.Table) : Except Problem Settings := do
  let output ← section? t "output".toList
  let format ← formatOf output
  let indent ← indentOf output
  let logging ← section? t "logging".toList
  let level ← levelOf logging
  let parser ← section? t "parser".toList
  let rootId ← rootIdOf parser
  return { rootId, format, indent, level }

def ofBytes (bytes : ByteArray) : Except Problem Settings :=
  match Toml.ofBytes bytes with
  | .error .notText => .error .notText
  | .error (.refused .malformed) => .error .malformed
  | .error (.refused (.tooLong digits)) => .error (.tooLong digits)
  | .ok t => ofTable t

/-- The settings of the file that a path names; without a file all is as by default. -/
def load (d : Disk) : Option Path → Except Problem Settings
  | none => .ok {}
  | some p => match d.read p with
    | .error f => .error (.fault f)
    | .ok bytes => ofBytes bytes

/-- The folder asked about: the path itself, or what is around it. -/
def folder (d : Disk) (start : Path) : Place :=
  if d.isFolder (start.resolve d.here) then start.resolve d.here else (start.resolve d.here).dropLast

/-- The place of the nearest configuration file. -/
def find? (d : Disk) (start : Path) : Option Place :=
  ((folder d start).outward.map (fun around => around ++ [fileName])).find? d.isFile

end Settings
end Statechart
