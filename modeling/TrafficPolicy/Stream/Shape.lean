import TrafficPolicy.Policy.UrlPolicy
import TrafficPolicy.Stream.Stage

/-!
# The stages of a policy

From the outside in: discarding, if the request is dropped; the delay or timeout of the response; that of
the body; the framing; the rate.
-/

namespace TrafficPolicy

structure Draws where
  delay : Float
  body : Float

/-- The stage of a delay or a timeout for a response that begins at `now`. A drop is no stage. -/
def DelayPolicy.stage? (p : DelayPolicy) (now : Nat) (factor : Float) : Option Stream.Stage :=
  match p.kind with
  | .drop => none
  | .delay =>
    let wait := p.sample factor
    some (.pause (if p.body then .beforeBody wait else .beforeAll wait))
  | .timeout => some (.deadline (.after now (p.sample factor)))

def Framing.stage? : Framing → Option Stream.Stage
  | .blocks count => some (.framer (.ofCount count))
  | .sizes list => some (.framer (.ofSizes list))
  | _ => none

def UrlPolicy.stages (p : UrlPolicy) (dropping : Bool) (now : Nat) (draws : Draws) :
    List Stream.Stage :=
  (if dropping then [.discard] else []) ++
    ((p.get .delay).bind fun d => d.stage? now draws.delay).toList ++
    ((p.get .body).bind fun d => d.stage? now draws.body).toList ++
    ((p.get (.setting .chunked)).bind fun framing => framing.stage?).toList ++
    ((p.get (.setting .speed)).map fun rate => .meter (.starting now rate)).toList

end TrafficPolicy
