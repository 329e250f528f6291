import TrafficPolicy.Quantity.PieceSizes

/-!
# Framing of a body

A body is sent in chunks or not, or it is cut into a number of chunks or into chunks of given sizes.
-/

namespace TrafficPolicy

inductive Framing where
  /-- Whatever framing the server used. -/
  | keep
  | on
  | off
  | blocks (count : Nat)
  | sizes (list : List Int)
deriving DecidableEq, Repr

namespace Framing

def command : Framing → String
  | .keep => "chunked default"
  | .on => "chunked"
  | .off => "chunked off"
  | .blocks count => s!"chunked block {count}"
  | .sizes list => s!"chunked size {PieceSizes.text list}"

def comment : Framing → String
  | .keep => "keep upstream framing"
  | .on => "force chunked encoding"
  | .off => "disable chunked encoding"
  | .blocks count => s!"split body into {count} chunks"
  | .sizes list => s!"send chunks of {PieceSizes.text list} bytes"

end Framing

end TrafficPolicy
