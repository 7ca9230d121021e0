import Statechart.Toml.Document
/-!
# Release — the version of the program

A source tree states its version in its project file, which counts when the file is about this program.
-/
namespace Statechart
namespace Release

def program : Text := "chartlang".toList

def current : Text := "0.3.0".toList

/-- The version when nothing states one. -/
def unknown : Text := "0.0.0".toList

/-- Why a project file tells nothing. -/
inductive Problem where
  | unreadable (u : Toml.Unreadable)
  /-- Where the project should be described there is a value of another type. -/
  | noSection (typeName : Text)
deriving DecidableEq, Repr

/-- The version that the description of a project states, if it can be written. -/
def stated (project : Toml.Table) : Option Text :=
  match Keyed.get? project "name".toList, Keyed.get? project "version".toList with
  | some (.text name), some version => if name = program then version.plain else some unknown
  | _, _ => some unknown

/-- The version that a project file states. -/
def ofProject (bytes : ByteArray) : Except Problem Text :=
  match Toml.ofBytes bytes with
  | .error u => .error (.unreadable u)
  | .ok t => match Keyed.get? t "project".toList with
    | none => .ok unknown
    | some (.table project) => match stated project with
      | none => .error (.unreadable (.refused (.tooLong none)))
      | some version => .ok version
    | some v => .error (.noSection v.typeName)

end Release
end Statechart
