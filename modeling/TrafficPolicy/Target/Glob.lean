import TrafficPolicy.Regex.Escape
import TrafficPolicy.Text.Blank

/-!
# Names with stars

A name with stars is compared as a regular expression for the whole of a text, which is put together label
by label. A label that is just a star stands for whole labels, none of them empty: for any number of them
at the start, for exactly one at the end, and for at least one in the middle. Within a label a star stands
for any run of characters without a point. The name that is just a star matches every text of one line.
-/

namespace TrafficPolicy.Glob

def labels (name : List Char) : List (List Char) :=
  Text.splitOn '.' name

/-- The expression for the label that stands at `index` among `count` labels. What it takes ends with a
point, unless the label is the last one. -/
def labelExpression (count index : Nat) (label : List Char) : List Char :=
  if label = ['*'] then
    if index = 0 then "(?:[^.]+\\.)*".toList
    else if index + 1 = count then "[^.]+".toList
    else "(?:[^.]+\\.)+".toList
  else
    let escaped := "[^.]*".toList.intercalate ((Text.splitOn '*' label).map Regex.escape)
    if index + 1 = count then escaped else escaped ++ "\\.".toList

def expression (name : List Char) : List Char :=
  if name = ['*'] then "^.*$".toList
  else
    let labels := labels name
    "^".toList ++ (labels.mapIdx (labelExpression labels.length)).flatten ++ "$".toList

end TrafficPolicy.Glob
