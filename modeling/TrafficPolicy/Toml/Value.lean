import TrafficPolicy.Number.Numeral

/-!
# Values of a configuration

A configuration is a table of named values, which may be tables themselves. A number may be written
that no word and no float can represent; it is an error only where the value is asked for.
-/

namespace TrafficPolicy.Toml

inductive Value where
  | string (text : String)
  | integer (value : Int)
  | float (value : Number.Numeral)
  | boolean (value : Bool)
  | datetime (text : String)
  | array (items : List Value)
  | table (entries : List (String × Value))
deriving Repr, Inhabited

namespace Value

def string? : Value → Option String
  | .string text => some text
  | _ => none

def items? : Value → Option (List Value)
  | .array items => some items
  | _ => none

def entries? : Value → Option (List (String × Value))
  | .table entries => some entries
  | _ => none

/-- Whether a whole number fits into a signed or an unsigned word of 128 bits. -/
def fitsLongWord (n : Int) : Bool :=
  -0x80000000000000000000000000000000 ≤ n && n < 0x100000000000000000000000000000000

mutual

def representable : Value → Bool
  | .integer value => fitsLongWord value
  | .float value => !value.overflows
  | .array items => allRepresentable items
  | .table entries => entriesRepresentable entries
  | _ => true

def allRepresentable : List Value → Bool
  | [] => true
  | value :: rest => value.representable && allRepresentable rest

def entriesRepresentable : List (String × Value) → Bool
  | [] => true
  | (_, value) :: rest => value.representable && entriesRepresentable rest

end

/-- The fields of a record. It may also be written as an array, or as a time, which has none of the
fields. Items of an array beyond the fields do not count, but if `exact` holds there must be none. Values
of other fields must be representable. -/
def fields? (exact : Bool) (names : List String) : Value → Option (List (String × Value))
  | .table entries =>
    if entries.all fun (name, value) => names.contains name || value.representable then some entries
    else none
  | .array items => if exact && names.length < items.length then none else some (names.zip items)
  | .datetime _ => some []
  | _ => none

end Value

end TrafficPolicy.Toml
