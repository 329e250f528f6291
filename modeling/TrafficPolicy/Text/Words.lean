import TrafficPolicy.Text.Blank

/-!
# Words of a command

A command is split into words at blank characters. Double quotes group blanks into one word and are
not kept; a quote that is not closed runs to the end of the text. `quote` writes a word so that it is
read as one word.
-/

namespace TrafficPolicy.Text

/-- The words of a text, given whether a quote is open and the reversed word that has been begun. -/
def scanWords : Bool → Option (List Char) → List Char → List (List Char)
  | _, word, [] => (word.map List.reverse).toList
  | quoted, word, c :: cs =>
    if c = '"' then scanWords (!quoted) (some (word.getD [])) cs
    else if isBlank c && !quoted then
      (word.map List.reverse).toList ++ scanWords quoted none cs
    else scanWords quoted (some (c :: word.getD [])) cs

def words (command : String) : List String :=
  (scanWords false none command.toList).map String.ofList

/-- Whether a word has to be quoted to be read as one word. -/
def needsQuotes (word : List Char) : Bool :=
  word.isEmpty || word.any isBlank

def quote (word : String) : String :=
  if needsQuotes word.toList then "\"" ++ word ++ "\"" else word

end TrafficPolicy.Text
