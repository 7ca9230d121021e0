import Statechart.Command.Request
import Statechart.Settings
/-!
# Places — what a run may look at

A run looks only at the places that the paths of its request pass, and at the ones where a configuration file may be.
Outside the library these are asked for beforehand, so that a run needs no more than a disk with them.
-/
namespace Statechart

/-- The places that names pass on the way from a place, and the last one. -/
def Place.passed : Place → List Text → List Place
  | place, [] => [place]
  | place, name :: names => place :: passed (Path.step place name) names

namespace Request

def paths : Request → List Path
  | help | version => []
  | parse _ r => r.source :: (r.output.toList ++ r.config.toList)
  | tokens _ r => r.source :: r.config.toList

def sources : Request → List Path
  | help | version => []
  | parse _ r => [r.source]
  | tokens _ r => [r.source]

/-- The places that a run for a request may look at. -/
def places (here : Place) (r : Request) : List Place :=
  (r.paths.flatMap (fun p => Place.passed (p.origin here) p.names) ++
    r.sources.flatMap (fun p => p.resolve here :: (Place.outward (p.resolve here)).map (· ++ [Settings.fileName])))

end Request
end Statechart
