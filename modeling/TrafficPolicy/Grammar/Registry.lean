import TrafficPolicy.Grammar.Leaf
import TrafficPolicy.Text.Literal

/-!
# The words of the command language

A registry says for each keyword how the words after it are read. A keyword that is registered again
gets the new way of reading.
-/

namespace TrafficPolicy

inductive Builder where
  | leaf (leaf : Leaf)
  /-- The words after the keyword are a command of their own, which stands for the whole. -/
  | following
  | url
  | domain
deriving DecidableEq

structure Registry where
  entries : List (String × Builder)
deriving DecidableEq

namespace Registry

def empty : Registry := ⟨[]⟩

def builder? (registry : Registry) (keyword : String) : Option Builder :=
  registry.entries.lookup keyword

def register (registry : Registry) (keyword : String) (builder : Builder) : Registry :=
  ⟨(keyword, builder) :: registry.entries.filter fun entry => entry.1 != keyword⟩

def contains (registry : Registry) (keyword : String) : Bool :=
  (registry.builder? keyword).isSome

/-- The keywords in the order of their characters. -/
def keywords (registry : Registry) : List String :=
  (registry.entries.map Prod.fst).mergeSort fun a b => a ≤ b

def listing (registry : Registry) : String :=
  "Registry \x7b keywords: [" ++ Text.joinWith ", " (registry.keywords.map Text.literal) ++ "] \x7d"

def standardEntries : List (String × Builder) :=
  Marker.all.map (fun m => (m.keyword, .leaf (.marker m))) ++
  [Switch.dont302, Switch.disable304].flatMap
    (fun switch => switch.flags.map fun f => (f.keyword, .leaf (.flag switch f))) ++
  TextKind.all.map (fun kind => (kind.keyword, .leaf (.text kind))) ++
  [("map", .leaf .map), ("chunked", .leaf .chunked), ("speed", .leaf .speed),
    ("status", .leaf .status), ("n", .leaf .limit)] ++
  DelayKind.all.map (fun kind => (kind.keyword, .leaf (.delay kind))) ++
  [("url", .url), ("domain", .domain)]

def standard : Registry :=
  standardEntries.foldl (fun registry entry => registry.register entry.1 entry.2) empty

theorem builder?_register_self (registry : Registry) (keyword : String) (builder : Builder) :
    (registry.register keyword builder).builder? keyword = some builder := by
  simp [builder?, register]

theorem builder?_register_of_ne (registry : Registry) {keyword other : String}
    (builder : Builder) (h : other ≠ keyword) :
    (registry.register keyword builder).builder? other = registry.builder? other := by
  simp only [builder?, register, List.lookup_cons, beq_eq_false_iff_ne.2 h]
  induction registry.entries with
  | nil => rfl
  | cons entry entries ih =>
    obtain ⟨k, b⟩ := entry
    by_cases hk : k = keyword
    · subst hk
      simpa [List.lookup_cons, beq_eq_false_iff_ne.2 h] using ih
    · by_cases ho : other = k
      · simp [hk, ho]
      · simpa [hk, List.lookup_cons, beq_eq_false_iff_ne.2 ho] using ih

end Registry

end TrafficPolicy
