import TrafficPolicy.Error
import TrafficPolicy.Regex.Footprint
import TrafficPolicy.Regex.Reader

/-!
# Expressions that can be searched for

A text is refused if it is no expression, or if the tables for its search would take too much memory.
-/

namespace TrafficPolicy.Regex

def compile (source : String) : Except RegexFault Expression :=
  match Expression.read? source with
  | none => .error .malformed
  | some e => if e.body.fits then .ok e else .error (.oversized sizeLimit)

end TrafficPolicy.Regex
