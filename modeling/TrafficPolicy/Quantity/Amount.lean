import TrafficPolicy.Error
import TrafficPolicy.Number.Numeral

/-!
# Amounts

The number in front of a unit: finite and not negative. Leaving it out means one.
-/

namespace TrafficPolicy

def readAmount (literal : List Char) : Except Reason Float :=
  if literal.isEmpty then .ok 1.0
  else
    match Number.Numeral.read? literal with
    | none => .error (.notNumber (String.ofList literal))
    | some numeral =>
      let value := numeral.toFloat
      if !value.isFinite then .error (.notFinite (String.ofList literal))
      else if value < 0.0 then .error .negative
      else .ok value

end TrafficPolicy
