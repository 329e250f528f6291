import TrafficPolicy.Quantity.Duration

/-!
# The delay family

Three policies take a duration: `drop` swallows answers for that long after the first request, `delay`
waits before an answer, and `timeout` breaks an answer off that has taken so long. Each may be meant
for the body of the answer only, and its duration may be the upper bound of a random one.
-/

namespace TrafficPolicy

inductive DelayKind where
  | drop
  | delay
  | timeout
deriving DecidableEq, Repr

namespace DelayKind

def all : List DelayKind := [.drop, .delay, .timeout]

def keyword : DelayKind → String
  | .drop => "drop"
  | .delay => "delay"
  | .timeout => "timeout"

def ofKeyword? (keyword : String) : Option DelayKind :=
  all.find? fun k => k.keyword == keyword

end DelayKind

structure DelayPolicy where
  kind : DelayKind
  body : Bool := false
  rand : Bool := false
  seconds : Float
deriving DecidableEq

namespace DelayPolicy

def nanos (p : DelayPolicy) : Nat :=
  Duration.nanos p.seconds

/-- The duration of one wait. A random one is the product of the duration and `factor`. -/
def sample (p : DelayPolicy) (factor : Float) : Nat :=
  if p.rand then Duration.nanos (factor * Duration.secondsOf p.nanos) else p.nanos

def words (p : DelayPolicy) : List String :=
  [p.kind.keyword] ++ (if p.body then ["body"] else []) ++ (if p.rand then ["rand"] else []) ++
    [Duration.text p.seconds]

def command (p : DelayPolicy) : String :=
  Text.joinWith " " p.words

def comment (p : DelayPolicy) : String :=
  let duration := Duration.text p.seconds
  let amount := if p.rand then s!"a random time up to {duration}" else duration
  let scope := if p.body then " the body" else ""
  match p.kind with
  | .drop =>
    if p.seconds == 0.0 then s!"drop{scope} the first request"
    else s!"drop{scope} requests for {amount} after the first"
  | .delay => s!"delay{scope} {amount}"
  | .timeout => s!"time out{scope} after {amount}"

end DelayPolicy

end TrafficPolicy
