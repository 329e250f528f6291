import TrafficPolicy.Error
import TrafficPolicy.Text.Words

/-!
# Reading words one after the other

A reader takes words from the front of a list and says what is left, which is always an end of the list;
it says so also when it fails. A cursor is a list of words with the number of those already read, so that
reading can go on later or be taken back.
-/

namespace TrafficPolicy

/-- The words that a reader leaves of those it was given. -/
abbrev Rest (words : List String) := { rest : List String // rest <:+ words }

namespace Rest

variable {words : List String}

def whole (words : List String) : Rest words :=
  ⟨words, List.suffix_rfl⟩

def afterOne (word : String) (rest : List String) : Rest (word :: rest) :=
  ⟨rest, List.suffix_cons word rest⟩

def trans (rest : Rest words) (later : Rest rest.val) : Rest words :=
  ⟨later.val, later.property.trans rest.property⟩

def cons (word : String) (rest : Rest words) : Rest (word :: words) :=
  (afterOne word words).trans rest

theorem length_le (rest : Rest words) : rest.val.length ≤ words.length :=
  rest.property.length_le

end Rest

def WordReader (α : Type) :=
  (words : List String) → Except CommandError α × Rest words

namespace WordReader

variable {α β : Type}

def ofExcept (result : Except CommandError α) : WordReader α :=
  fun words => (result, .whole words)

def resume {words : List String} (read : Except CommandError α × Rest words)
    (next : α → WordReader β) : Except CommandError β × Rest words :=
  match read with
  | (.error e, rest) => (.error e, rest)
  | (.ok value, rest) =>
    let (result, later) := next value rest.val
    (result, rest.trans later)

def andThen (reader : WordReader α) (next : α → WordReader β) : WordReader β :=
  fun words => resume (reader words) next

instance : Monad WordReader where
  pure value := ofExcept (.ok value)
  bind := andThen

instance : MonadLift (Except CommandError) WordReader where
  monadLift := ofExcept

def next? : WordReader (Option String)
  | [] => (.ok none, .whole [])
  | word :: rest => (.ok (some word), .afterOne word rest)

/-- Takes the next word, which an argument of `keyword` is read from. -/
def argument (keyword expected : String) : WordReader String
  | [] => (.error (.missingArgument keyword expected), .whole [])
  | word :: rest => (.ok word, .afterOne word rest)

def accept (expected : String) : WordReader Bool
  | [] => (.ok false, .whole [])
  | word :: rest =>
    if word = expected then (.ok true, .afterOne word rest) else (.ok false, .whole (word :: rest))

/-- Refuses words that are left over. -/
def finish (keyword : String) : WordReader Unit
  | [] => (.ok (), .whole [])
  | extra :: rest => (.error (.tooManyArguments keyword extra), .whole (extra :: rest))

def run (reader : WordReader α) (words : List String) : Except CommandError α :=
  (reader words).1

end WordReader

/-- A list of words and how many of them have been read. -/
structure Cursor where
  items : List String
  position : Nat
  position_le : position ≤ items.length := by simp

namespace Cursor

def ofList (items : List String) : Cursor :=
  ⟨items, 0, Nat.zero_le _⟩

def ofCommand (command : String) : Cursor :=
  ofList (Text.words command)

def remaining (c : Cursor) : List String :=
  c.items.drop c.position

def isEmpty (c : Cursor) : Bool :=
  c.remaining.isEmpty

/-- Moves to a position, or to the end if there are fewer words. -/
def rewind (c : Cursor) (position : Nat) : Cursor :=
  ⟨c.items, min position c.items.length, Nat.min_le_right _ _⟩

def leave (c : Cursor) (rest : Rest c.remaining) : Cursor :=
  ⟨c.items, c.items.length - rest.val.length, Nat.sub_le _ _⟩

def peek? (c : Cursor) : Option String :=
  c.remaining.head?

def read {α : Type} (c : Cursor) (reader : WordReader α) : Except CommandError α × Cursor :=
  let (result, rest) := reader c.remaining
  (result, c.leave rest)

/-- What remains after a move is what was to be left. -/
theorem remaining_leave (c : Cursor) (rest : Rest c.remaining) :
    (c.leave rest).remaining = rest.val := by
  obtain ⟨rest, before, h⟩ := rest
  have hlen : before.length + rest.length = c.items.length - c.position := by
    rw [← List.length_append, h, remaining, List.length_drop]
  have hpos := c.position_le
  have hdrop : c.items.drop c.position = before ++ rest := h.symm
  have hsub : c.items.length - rest.length = c.position + before.length := by omega
  simp only [leave, remaining, hsub]
  rw [← List.drop_drop, hdrop, List.drop_left]

end Cursor

end TrafficPolicy
