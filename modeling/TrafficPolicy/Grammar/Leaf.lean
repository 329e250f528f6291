import TrafficPolicy.Policy.Basic
import TrafficPolicy.Text.Cursor

/-!
# Policies that hold no other policy

What the words after a keyword have to be, for each policy that is not put together from others.
-/

namespace TrafficPolicy

/-- A keyword's way of reading the words after it, if these name no further policies. -/
inductive Leaf where
  | marker (marker : Marker)
  | flag (switch : Switch) (flag : Flag)
  | text (kind : TextKind)
  | map
  | chunked
  | speed
  /-- A rate that is fixed with the keyword. -/
  | fixedSpeed (rate : Float)
  | status
  | limit
  | delay (kind : DelayKind)
deriving DecidableEq

namespace Leaf

def invalid {α : Type} (keyword value : String) (reason : Reason) : Except CommandError α :=
  .error (.invalidValue keyword value reason)

def outOfRange {α : Type} (keyword value : String) (reason : Reason) : Except CommandError α :=
  .error (.outOfRange keyword value reason)

/-- The result of a reader of values, with its reason put into the context of a keyword. -/
def valueOf {α : Type} (keyword value : String) (result : Except Reason α) :
    Except CommandError α :=
  result.mapError (.invalidValue keyword value)

def readInteger (keyword value : String) (reason : Reason) : Except CommandError Int :=
  match Number.readInteger? value.toList with
  | some n => .ok n
  | none => invalid keyword value reason

def readWithin (keyword value : String) (notInteger outside : Reason) (within : Int → Bool) :
    Except CommandError Nat := do
  let n ← readInteger keyword value notInteger
  if within n then return n.toNat else outOfRange keyword value outside

def readText (kind : TextKind) : WordReader Policy := do
  let value ← WordReader.argument kind.keyword kind.expected
  let text ← TextValue.read kind value
  return .text kind text

def readMap : WordReader Policy := do
  let target ← WordReader.argument "map" "a url or \x60replace /<regex>/<replacement>/\x60"
  if target = "replace" then
    let raw ← WordReader.argument "map" "/<regex>/<replacement>/"
    let mapping ← Mapping.readReplace raw
    return .map mapping
  else if target.toList.contains '"' then invalid "map" target .quotedUrl
  else return .map (.url target)

def readBlocks : WordReader Framing := do
  let raw ← WordReader.argument "chunked" "a block count"
  let count ← readWithin "chunked" raw .blocksNotInteger .blocksNotPositive (0 < ·)
  return .blocks count

def readSizes : WordReader Framing := do
  let raw ← WordReader.argument "chunked" "a comma separated size list"
  let sizes ← valueOf "chunked" raw (PieceSizes.read raw)
  return .sizes sizes

/-- The word after `chunked` is an option or belongs to what follows. -/
def readFraming : WordReader Framing := do
  if ← WordReader.accept "default" then return .keep
  else if ← WordReader.accept "on" then return .on
  else if ← WordReader.accept "off" then return .off
  else if ← WordReader.accept "block" then readBlocks
  else if ← WordReader.accept "size" then readSizes
  else return .on

def readChunked : WordReader Policy := do
  let framing ← readFraming
  return .chunked framing

def minRate : Float := 1.0

def readSpeed : WordReader Policy := do
  let raw ← WordReader.argument "speed" "a rate like 1KB/s"
  let rate ← valueOf "speed" raw (Rate.read raw)
  if rate < minRate then outOfRange "speed" raw .rateTooSlow
  else return .speed rate

def readStatus : WordReader Policy := do
  let raw ← WordReader.argument "status" "a status code"
  let code ← readWithin "status" raw .statusNotInteger .statusOutOfRange
    fun n => 100 ≤ n && n ≤ 999
  return .status code

def readLimit : WordReader Policy := do
  let raw ← WordReader.argument "n" "a count"
  let count ← readWithin "n" raw .countNotInteger .countNegative (0 ≤ ·)
  return .limit count

def readDelay (kind : DelayKind) : WordReader Policy := do
  let body ← WordReader.accept "body"
  let rand ← WordReader.accept "rand"
  let raw ← WordReader.argument kind.keyword "a duration like 1s or 500ms"
  let seconds ← valueOf kind.keyword raw (Duration.read raw)
  if seconds > Duration.maxSeconds then outOfRange kind.keyword raw .durationTooLong
  else return .delay { kind, body, rand, seconds }

def read : Leaf → WordReader Policy
  | .marker m => return .marker m
  | .flag switch f => return .flag switch f
  | .text kind => readText kind
  | .map => readMap
  | .chunked => readChunked
  | .speed => readSpeed
  | .fixedSpeed rate => return .speed rate
  | .status => readStatus
  | .limit => readLimit
  | .delay kind => readDelay kind

end Leaf

end TrafficPolicy
