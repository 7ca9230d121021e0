import Statechart.Command.Switch
import Statechart.Files.Path
import Statechart.Number.Whole
/-!
# Request — what a command line asks for

There are two commands, `parse` and `tokens`, and before the command two switches of the program: one asks for the
version, one sets the least level of the records shown.  A command line that cannot be understood is no request.
-/
namespace Statechart

/-- The switches of the command `parse`, and its operand. -/
structure ParseRequest where
  source : Path
  output : Option Path := none
  format : Option Text := none
  indent : Option Nat := none
  rootId : Option Text := none
  config : Option Path := none
deriving DecidableEq, Repr

/-- The switches of the command `tokens`, and its operand. -/
structure TokensRequest where
  source : Path
  table : Bool := false
  config : Option Path := none
deriving DecidableEq, Repr

inductive Request where
  | help
  | version
  | parse (level : Option Text) (request : ParseRequest)
  | tokens (level : Option Text) (request : TokensRequest)
deriving DecidableEq, Repr

namespace Request

def helpSwitch : Switch := { long := "--help".toList }
def versionSwitch : Switch := { long := "--version".toList, short := some 'v' }
def levelSwitch : Switch := { long := "--log-level".toList, takesValue := true }
def outputSwitch : Switch := { long := "--output".toList, short := some 'o', takesValue := true }
def formatSwitch : Switch := { long := "--format".toList, short := some 'f', takesValue := true }
def indentSwitch : Switch := { long := "--indent".toList, takesValue := true }
def rootIdSwitch : Switch := { long := "--root-id".toList, takesValue := true }
def configSwitch : Switch := { long := "--config".toList, short := some 'c', takesValue := true }
def tableSwitch : Switch := { long := "--table".toList }

/-- An indentation: an integer that is not negative. -/
def indent? (t : Text) : Option Nat :=
  match Whole.ofText? t with
  | some (.ofNat n) => some n
  | _ => none

/-- A value that, if given, has to be of a form. -/
def optional? {α : Type} (form : Text → Option α) : Option Text → Option (Option α)
  | none => some none
  | some t => (form t).map some

/-- The request of a command with one operand, its source. -/
def ofGiven (g : Switch.Given) (command : Path → Option Request) : Option Request :=
  if g.has helpSwitch then some .help
  else match g.operands with
    | [source] => command (Path.ofText source)
    | _ => none

def readParse (level : Option Text) (args : List Text) : Option Request :=
  match Switch.read [helpSwitch, outputSwitch, formatSwitch, indentSwitch, rootIdSwitch, configSwitch] false args with
  | none => none
  | some g => ofGiven g (fun source => (optional? indent? (g.value? indentSwitch)).map (fun indent =>
      .parse level
        { source, indent, output := (g.value? outputSwitch).map Path.ofText, format := g.value? formatSwitch,
          rootId := g.value? rootIdSwitch, config := (g.value? configSwitch).map Path.ofText }))

def readTokens (level : Option Text) (args : List Text) : Option Request :=
  match Switch.read [helpSwitch, tableSwitch, configSwitch] false args with
  | none => none
  | some g => ofGiven g (fun source => some (.tokens level
      { source, table := g.has tableSwitch, config := (g.value? configSwitch).map Path.ofText }))

/-- The request of a command line.  Of the version and the help, the one asked for first comes before all else. -/
def read? (args : List Text) : Option Request :=
  match Switch.read [helpSwitch, versionSwitch, levelSwitch] true args with
  | none => none
  | some g => match g.values.find? (fun v => v.1 == helpSwitch || v.1 == versionSwitch) with
    | some v => some (if v.1 = helpSwitch then .help else .version)
    | none => match g.operands with
      | [] => none
      | command :: rest =>
        if command = "parse".toList then readParse (g.value? levelSwitch) rest
        else if command = "tokens".toList then readTokens (g.value? levelSwitch) rest
        else none

end Request
end Statechart
