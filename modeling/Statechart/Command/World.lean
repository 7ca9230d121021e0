import Statechart.Command.Request
import Statechart.Doc.Yaml
import Statechart.Files.Disk
/-!
# World — what a run depends on

A run meets a world: a disk, files that may not have room for what is written to them, and a standard output that may
not take what is printed.  And it uses two tools that are not its own: one understands command lines, the other writes
documents as YAML.
-/
namespace Statechart

structure World where
  disk : Disk
  /-- What the file at a place has of the bytes written to it: all of them, or those it took until writing failed. -/
  taken : Place → ByteArray → ByteArray := fun _ bytes => bytes
  /-- What comes out of a text that is printed: all of it, or what came out until printing failed. -/
  shown : Text → Text := fun text => text

structure Tools where
  /-- The request of a command line, if it is one. -/
  request? : List Text → Option Request
  /-- A document as YAML text, with an indentation. -/
  dump : Int → Doc → Text

/-- The tools that come with the library. -/
def Tools.supplied : Tools := ⟨Request.read?, Doc.Yaml.dump⟩

end Statechart
