import Statechart.Command.Table
import Statechart.Command.World
import Statechart.Release
import Statechart.Settings
/-!
# Run — what the program does for a command line

A run meets a world and ends with a code, what is printed, and perhaps a file that was written.  It ends with code 0
when the request was met, with 2 when the command line was no request, and with 1 when something stopped it.  Most of
what can stop a run is put into words and printed; the rest is a breakdown, of which only the cause is known.

The steps of a command have an order, and the first that fails is the one reported: settings, level, format, source,
reading, opening the output, writing, printing.  Opening an output empties it.  So a run that fails while it writes, or
behind that, has already changed the file; one that fails before has changed nothing.
-/
namespace Statechart

open Diagnostic (BadIndentation)

/-- What stops a run without a message. -/
inductive Breakdown where
  | settings (path : Path) (problem : Settings.Problem)
  | unknownLevel (name : Text)
  /-- The bytes of the source are no text. -/
  | sourceNotText
  | output (path : Path) (fault : Fault)
  /-- Standard output did not take a text. -/
  | unshown
  /-- A token has no text where a name is needed. -/
  | unfit

def Breakdown.message : Breakdown → Text
  | settings path problem => problem.message path
  | unknownLevel name => "Unknown level: ".toList ++ Text.quoted name
  | sourceNotText => "The source is not encoded as UTF-8".toList
  | output path fault => fault.message path
  | unshown => "Standard output cannot be written".toList
  | unfit => "A name is missing".toList

structure Run where
  code : Nat := 0
  out : Text := []
  err : Text := []
  breakdown : Option Breakdown := none
  /-- The file that was written: its place and what it holds. -/
  written : Option (Place × ByteArray) := none

namespace Run

/-- The disk after a run. -/
def diskAfter (r : Run) (d : Disk) : Disk :=
  match r.written with
  | none => d
  | some (place, bytes) => d.put place bytes

def line (t : Text) : Text := t ++ ['\n']

def usage : Text :=
  line "Usage: chartlang [--version] [--log-level LEVEL] parse SOURCE [OPTIONS] | tokens SOURCE [OPTIONS]".toList

/-- A step of a run that failed. -/
inductive Stop where
  | told (message : Text)
  | broken (b : Breakdown)

/-- A run that stops after it has printed records. -/
def stopped (records : Text) : Stop → Run
  | .told message => { code := 1, err := records ++ line message }
  | .broken b => { code := 1, err := records, breakdown := some b }

/-- A run that prints a text, behind what it has done so far. -/
def printing (w : World) (r : Run) (text : Text) : Run :=
  if w.shown text = text then { r with out := text }
  else { r with code := 1, out := w.shown text, breakdown := some .unshown }

/-! ## The steps -/

/-- The settings: those of the file asked for, or of the nearest one. -/
def settings (d : Disk) (config : Option Path) (source : Path) : Except Stop Settings :=
  let path := config.or ((Settings.find? d source).map Path.ofPlace)
  match Settings.load d path, path with
  | .ok s, _ => .ok s
  | .error problem, none => .error (.broken (.settings source problem))
  | .error problem, some path =>
    if problem.isReported then .error (.told ("Error loading config: ".toList ++ problem.message path))
    else .error (.broken (.settings path problem))

/-- The levels that can be asked for on a command line, with their weights. -/
def levels : List (Text × Nat) :=
  Level.all.map (fun l => (l.name, l.weight)) ++
    [("FATAL".toList, Level.critical.weight), ("WARN".toList, Level.warning.weight), ("NOTSET".toList, 0)]

/-- The least weight of the records shown: the one of the level asked for, or else of the configured one. -/
def leastWeight (asked : Option Text) (configured : Level) : Except Stop Nat :=
  match (asked.getD []).isEmpty with
  | true => .ok configured.weight
  | false => match levels.lookup (Text.upper (asked.getD [])) with
    | some w => .ok w
    | none => .error (.broken (.unknownLevel (Text.upper (asked.getD []))))

def format (asked : Option Text) (configured : Format) : Except Stop Format :=
  match (asked.getD []).isEmpty with
  | true => .ok configured
  | false => match Format.ofName? (Text.lower (asked.getD [])) with
    | some f => .ok f
    | none => .error (.told ("Unknown format ".toList ++ Text.quoted (Text.lower (asked.getD [])) ++
        " (expected json or yaml)".toList))

/-- The text of the source, every line end as one line feed. -/
def source (d : Disk) (path : Path) : Except Stop Text :=
  match d.read path with
  | .error f => .error (.told ("Cannot read ".toList ++ path.shown ++ ": ".toList ++ f.message path))
  | .ok bytes => match Text.decode? bytes with
    | none => .error (.broken .sourceNotText)
    | some t => .ok (Text.plainLineEnds t)

def about (path : Path) (message : Text) : Stop := .told (path.shown ++ ':' :: message)

/-- The records of at least a weight, one on a line. -/
def shownRecords (least : Nat) (records : List Record) : Text :=
  ((records.filter (fun r => least ≤ r.level.weight)).map (fun r =>
    line (r.level.name ++ ' ' :: r.origin ++ ": ".toList ++ r.message))).flatten

/-! ## The command `parse` -/

/-- What the first steps of the command settle. -/
structure Job where
  settings : Settings
  least : Nat
  format : Format
  text : Text

def job (d : Disk) (level : Option Text) (r : ParseRequest) : Except Stop Job := do
  let settings ← settings d r.config r.source
  let least ← leastWeight level settings.level
  let format ← format r.format settings.format
  let text ← source d r.source
  return { settings, least, format, text }

/-- The id asked for, or else the configured one. -/
def rootId (asked : Option Text) (configured : Text) : Text :=
  if (asked.getD []).isEmpty then configured else asked.getD []

/-- A text that ends with a line feed. -/
def closed (t : Text) : Text := if t.getLast? = some '\n' then t else line t

/-- A text that ends with one line feed. -/
def closedOnce (t : Text) : Text := line (Text.dropEndWhile (· = '\n') t)

/-- What is said of a chart that is kept in a file. -/
def notice (root : Node) (path : Path) : Text :=
  line ("Statechart ".toList ++ Text.quoted root.id ++ " written to ".toList ++ path.shown)

/-- Keeps a chart in the file at a place, which is open. -/
def keep (w : World) (path : Path) (place : Place) (records : Text) (root : Node) (content : Text) : Run :=
  let bytes := Text.encode (closed content)
  let kept : Run := { err := records, written := some (place, w.taken place bytes) }
  if (w.taken place bytes).data = bytes.data then kept.printing w (notice root path)
  else { kept with code := 1, breakdown := some (.output path .full) }

/-- Prints a chart that has been written out, or keeps it in a file. -/
def deliver (w : World) (output : Option Path) (records : Text) (root : Node) (content : Text) : Run :=
  match output with
  | none => printing w { err := records } (closedOnce content)
  | some path => match w.disk.target path with
    | .error f => stopped records (.broken (.output path f))
    | .ok place => keep w path place records root content

/-- Reads the source and delivers its chart. -/
def compile (tools : Tools) (w : World) (r : ParseRequest) (j : Job) : Run :=
  match Reading.ofText (rootId r.rootId j.settings.rootId) j.text with
  | .error (.indentation e) => stopped [] (about r.source e.message)
  | .error .unfit => stopped [] (.broken .unfit)
  | .ok (.mismatch m, records) => stopped (shownRecords j.least records) (about r.source m.shown)
  | .ok (.tree root, records) => deliver w r.output (shownRecords j.least records) root
      (j.format.write tools.dump (r.indent.getD j.settings.indent) root.toDoc)

def parse (tools : Tools) (w : World) (level : Option Text) (r : ParseRequest) : Run :=
  match job w.disk level r with
  | .error s => stopped [] s
  | .ok j => compile tools w r j

/-! ## The command `tokens` -/

/-- A token on a line: its place, its kind, and its text if it has one. -/
def tokenLine (t : Token) : Text :=
  line (Text.ofInt t.line ++ ':' :: Text.ofInt t.col ++ ' ' :: t.describe)

def tokenTable (title : Text) (tokens : List Token) : Table where
  title
  columns := [⟨"Line".toList, true⟩, ⟨"Col".toList, true⟩, ⟨"Type".toList, false⟩, ⟨"Text".toList, false⟩]
  rows := tokens.map (fun t => [Text.ofInt t.line, Text.ofInt t.col, t.kind.name, t.text.getD []])

def listing (d : Disk) (level : Option Text) (r : TokensRequest) : Except Stop (Nat × Text) := do
  let settings ← settings d r.config r.source
  let least ← leastWeight level settings.level
  let text ← source d r.source
  return (least, text)

/-- The tokens as a table, or one on a line. -/
def listed (r : TokensRequest) (tokens : List Token) : Text :=
  if r.table then (tokenTable r.source.shown tokens).shown else (tokens.map tokenLine).flatten

def tokens (w : World) (level : Option Text) (r : TokensRequest) : Run :=
  match listing w.disk level r with
  | .error s => stopped [] s
  | .ok (least, text) => match tokenize text with
    | .error e => stopped [] (about r.source e.message)
    | .ok tokens => printing w { err := shownRecords least [.tokenized text.length tokens.length] } (listed r tokens)

end Run

/-- What the program does for a request. -/
def Request.run (tools : Tools) (w : World) : Request → Run
  | help => Run.printing w {} Run.usage
  | version => Run.printing w {} (Run.line (Release.program ++ ' ' :: Release.current))
  | parse level r => Run.parse tools w level r
  | tokens level r => Run.tokens w level r

def run (tools : Tools) (w : World) (args : List Text) : Run :=
  match tools.request? args with
  | none => { code := 2, err := Run.usage }
  | some r => r.run tools w

end Statechart
