import TrafficPolicy.Grammar.Registry

/-!
# Commands

A command is a keyword and what its builder reads after it. The parts of a url rule and the options of a
domain rule are commands themselves, so that reading is recursive; every turn takes at least one word.
-/

namespace TrafficPolicy

/-- What has been read of a domain command. -/
structure DomainOptions where
  action : Option Marker := none
  delay : Option DelayPolicy := none
  shuffle : Bool := false
  circular : Bool := false
  limit : Option Nat := none

namespace DomainOptions

def place (options : DomainOptions) : Policy → Except CommandError DomainOptions
  | .marker .shuffle => .ok { options with shuffle := true }
  | .marker .circular => .ok { options with circular := true }
  | .marker m =>
    if (DomainAction.ofMarker? m).isNone then .error (.misplaced m.keyword .domainOptions)
    else
      match options.action with
      | some first => .error (.conflict "action" first.keyword m.keyword)
      | none => .ok { options with action := some m }
  | .delay d =>
    if d.kind = .delay ∧ !d.body then
      match options.delay with
      | some first => .error (.conflict "delay" first.command d.command)
      | none => .ok { options with delay := some d }
    else .error (.invalidValue "domain" d.command .notPlainDelay)
  | .limit count => .ok { options with limit := some count }
  | other => .error (.misplaced other.command .domainOptions)

def rule (options : DomainOptions) (target : DomainTarget) (addresses : List Address) :
    DomainRule where
  action := (options.action.bind DomainAction.ofMarker?).getD .resolve
  delay := options.delay
  shuffle := options.shuffle
  circular := options.circular
  limit := options.limit
  target := target
  addresses := addresses

end DomainOptions

namespace UrlRule

def placePolicy (rule : UrlRule) (policy : Policy) : Except CommandError UrlRule :=
  match policy.urlPart? with
  | some part => rule.place part
  | none => .error (.misplaced policy.command .urlSlots)

/-- Reads the target of a rule, after which no words may follow. -/
def readTarget (rule : UrlRule) : WordReader Policy := do
  let rule ← match ← WordReader.next? with
    | none => pure rule
    | some text => do
      let target ← UrlPattern.read text
      pure { rule with target := some target }
  WordReader.finish "url"
  return .url rule

end UrlRule

namespace DomainOptions

def readTarget (options : DomainOptions) : WordReader Policy := do
  let text ← WordReader.argument "domain" "a domain name or all"
  let target ← DomainTarget.read text
  let addresses ← match ← WordReader.next? with
    | none => pure []
    | some list => DomainRule.readAddresses list
  WordReader.finish "domain"
  return .domain (options.rule target addresses)

end DomainOptions

def readDeletion (scope : Scope) : WordReader Policy := do
  let text ← WordReader.argument scope.keyword scope.expected
  return .delete ⟨scope, .ofText text⟩

/-- A target of a removal: all, or a text that is a url pattern. -/
def readTargetName (text : String) : Except CommandError TargetName :=
  match TargetName.ofText text with
  | .all => .ok .all
  | .named pattern => (UrlPattern.read pattern).map fun _ => .named pattern

def readRemoval : WordReader Policy := do
  let keyword ← WordReader.argument "url" "a keyword to remove"
  match h : Slot.ofKeyword? keyword with
  | none => WordReader.ofExcept (.error (.unknownKeyword keyword))
  | some slot =>
    let text ← WordReader.argument "url" "a url pattern or all"
    let target ← readTargetName text
    return .remove ⟨keyword, slot, target, h⟩

namespace Registry

mutual

/-- Reads a keyword and what belongs to it. -/
def build (registry : Registry) :
    (words : List String) → Except CommandError Policy × Rest words.tail
  | [] => (.error .emptyCommand, .whole [])
  | keyword :: words =>
    match registry.builder? keyword with
    | none => (.error (.unknownKeyword keyword), .whole words)
    | some (.leaf leaf) => leaf.read words
    | some .following =>
      let (result, rest) := registry.build words
      (result, ⟨rest.val, rest.property.trans (List.tail_suffix words)⟩)
    | some .url => registry.buildUrl words
    | some .domain => registry.buildDomain words
termination_by words => (words.length, 0)

def buildUrl (registry : Registry) : WordReader Policy
  | "remove" :: words => let (result, rest) := readRemoval words; (result, rest.cons "remove")
  | "delete" :: words => let (result, rest) := readDeletion .url words; (result, rest.cons "delete")
  | words => WordReader.resume (registry.urlParts {} words) UrlRule.readTarget
termination_by words => (words.length, 2)

def urlParts (registry : Registry) (rule : UrlRule) : WordReader UrlRule
  | [] => (.ok rule, .whole [])
  | keyword :: words =>
    if UrlRule.keywords.contains keyword then
      match registry.build (keyword :: words) with
      | (.error e, rest) => (.error e, rest.cons keyword)
      | (.ok policy, rest) =>
        match rule.placePolicy policy with
        | .error e => (.error e, rest.cons keyword)
        | .ok rule =>
          have : rest.val.length ≤ words.length := rest.length_le
          let (result, later) := registry.urlParts rule rest.val
          (result, (rest.trans later).cons keyword)
    else (.ok rule, .whole (keyword :: words))
termination_by words => (words.length, 1)

def buildDomain (registry : Registry) : WordReader Policy
  | "delete" :: words =>
    let (result, rest) := readDeletion .domain words
    (result, rest.cons "delete")
  | words => WordReader.resume (registry.domainOptions {} words) DomainOptions.readTarget
termination_by words => (words.length, 2)

def domainOptions (registry : Registry) (options : DomainOptions) : WordReader DomainOptions
  | [] => (.ok options, .whole [])
  | keyword :: words =>
    if DomainRule.keywords.contains keyword then
      match registry.build (keyword :: words) with
      | (.error e, rest) => (.error e, rest.cons keyword)
      | (.ok policy, rest) =>
        match options.place policy with
        | .error e => (.error e, rest.cons keyword)
        | .ok options =>
          have : rest.val.length ≤ words.length := rest.length_le
          let (result, later) := registry.domainOptions options rest.val
          (result, (rest.trans later).cons keyword)
    else (.ok options, .whole (keyword :: words))
termination_by words => (words.length, 1)

end

theorem build_nil (registry : Registry) : registry.build [] = (.error .emptyCommand, .whole []) := by
  rw [build]

theorem buildUrl_remove (registry : Registry) (words : List String) : registry.buildUrl ("remove" :: words) =
    ((readRemoval words).1, (readRemoval words).2.cons "remove") := by
  rw [buildUrl]

theorem urlParts_nil (registry : Registry) (rule : UrlRule) : registry.urlParts rule [] = (.ok rule, .whole []) := by
  rw [urlParts]

theorem buildDomain_delete (registry : Registry) (words : List String) : registry.buildDomain ("delete" :: words) =
    ((readDeletion .domain words).1, (readDeletion .domain words).2.cons "delete") := by
  rw [buildDomain]

theorem domainOptions_nil (registry : Registry) (options : DomainOptions) :
    registry.domainOptions options [] = (.ok options, .whole []) := by
  rw [domainOptions]

/-- The policy of a list of words, all of which have to be read. -/
def policyOf (registry : Registry) (words : List String) : Except CommandError Policy := do
  let (result, rest) := registry.build words
  let policy ← result
  (WordReader.finish policy.keyword).run rest.val
  return policy

def read (registry : Registry) (command : String) : Except CommandError Policy :=
  registry.policyOf (Text.words command)

/-- The rule of a url command, of which the first word may be left out. -/
def readUrl (registry : Registry) (command : String) : Except CommandError UrlRule := do
  let words := Text.words command
  let words := if words.head? = some "url" then words else "url" :: words
  let (result, rest) := registry.build words
  let policy ← result
  (WordReader.finish "url").run rest.val
  match policy with
  | .url rule => return rule
  | other => .error (.notApplicable other.command)

def buildAt (registry : Registry) (c : Cursor) : Except CommandError Policy × Cursor :=
  let (result, rest) := registry.build c.remaining
  (result, c.leave ⟨rest.val, rest.property.trans (List.tail_suffix c.remaining)⟩)

end Registry

end TrafficPolicy
