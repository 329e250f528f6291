import TrafficPolicy.Text.Blank

/-!
# Internet addresses

An address is four octets or eight groups of sixteen bits. The text of a group address leaves out
leading zeros, writes the longest run of at least two zero groups (the first of several) as `::`, and
shows an embedded octet address in octets.
-/

namespace TrafficPolicy

inductive Address where
  | octets (bytes : Vector UInt8 4)
  | groups (words : Vector UInt16 8)
deriving DecidableEq, Repr

namespace Address

def octetsText (bytes : List UInt8) : String :=
  Text.joinWith "." (bytes.map fun b => toString b.toNat)

def groupsText (words : List UInt16) : String :=
  Text.joinWith ":" (words.map fun w => String.ofList (Nat.toDigits 16 w.toNat))

def zeroRun (words : List UInt16) : Nat :=
  (words.takeWhile (· == 0)).length

/-- Start and length of the longest run of zero groups, of equal ones the first. -/
def longestRun : Nat → List UInt16 → Nat × Nat
  | start, [] => (start, 0)
  | start, w :: ws =>
    let here := zeroRun (w :: ws)
    let later := longestRun (start + 1) ws
    if later.2 ≤ here then (start, here) else later

/-- The octet address embedded in eight groups, if the first six are five zeros and a group of
ones. -/
def embedded? : List UInt16 → Option (List UInt8)
  | [0, 0, 0, 0, 0, 0xFFFF, high, low] =>
    some [(high >>> 8).toUInt8, high.toUInt8, (low >>> 8).toUInt8, low.toUInt8]
  | _ => none

def text : Address → String
  | .octets bytes => octetsText bytes.toList
  | .groups words =>
    match embedded? words.toList with
    | some bytes => "::ffff:" ++ octetsText bytes
    | none =>
      let (start, count) := longestRun 0 words.toList
      if 1 < count then
        groupsText (words.toList.take start) ++ "::" ++ groupsText (words.toList.drop (start + count))
      else groupsText words.toList

/-- Whether one address comes before another or is the same: octets before groups, and those of one kind by number. -/
def le : Address → Address → Bool
  | .octets a, .octets b => a.toList ≤ b.toList
  | .octets _, .groups _ => true
  | .groups _, .octets _ => false
  | .groups a, .groups b => a.toList ≤ b.toList

theorem le_trans (a b c : Address) (h : a.le b) (h' : b.le c) : a.le c := by
  cases a <;> cases b <;> cases c <;> simp only [le, decide_eq_true_eq, Bool.false_eq_true] at h h' ⊢
  · exact List.le_trans h h'
  · exact List.le_trans h h'

theorem le_total (a b : Address) : a.le b || b.le a := by
  cases a <;> cases b <;> simp only [le, Bool.or_eq_true, decide_eq_true_eq, Bool.false_eq_true, or_false, or_true]
  · exact List.le_total _ _
  · exact List.le_total _ _

theorem le_antisymm {a b : Address} (h : a.le b) (h' : b.le a) : a = b := by
  cases a <;> cases b <;> simp only [le, decide_eq_true_eq, Bool.false_eq_true] at h h'
  · exact congrArg octets (Vector.toList_inj.mp (List.le_antisymm h h'))
  · exact congrArg groups (Vector.toList_inj.mp (List.le_antisymm h h'))

def listText (addresses : List Address) : String :=
  Text.joinWith "," (addresses.map text)

end Address

end TrafficPolicy
