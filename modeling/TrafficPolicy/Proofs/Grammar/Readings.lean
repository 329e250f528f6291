import TrafficPolicy.Proofs.Grammar.Outcomes
import TrafficPolicy.Proofs.Grammar.Standard

/-!
# How a command is read

An account of a reading says step by step which builder each keyword has, what is made of the words after it, and
which words each turn of a rule takes in which another part is added to it. What the builder of some keyword does may
be left open. There is an account for all words, it ends in what the registry builds from them, and every turn in it
takes a word.
-/

namespace TrafficPolicy

inductive PartialRule where
  | url (rule : UrlRule)
  | domain (options : DomainOptions)

namespace PartialRule

/-- The words that begin a part. Any other word is the target. -/
def keywords : PartialRule → List String
  | .url _ => UrlRule.keywords
  | .domain _ => DomainRule.keywords

def place : PartialRule → Policy → Except CommandError PartialRule
  | .url rule, policy => (rule.placePolicy policy).map .url
  | .domain options, policy => (options.place policy).map .domain

def readTarget : PartialRule → WordReader Policy
  | .url rule => rule.readTarget
  | .domain options => options.readTarget

end PartialRule

inductive Task where
  /-- A keyword and what belongs to it. -/
  | command
  /-- The parts of a rule that are still to come, and its target. -/
  | rule (rule : PartialRule)
  /-- Something in which no keyword is looked up. -/
  | direct (reader : WordReader Policy)

/-- The words that may all be left: a command takes at least its keyword. -/
def Task.leavable : Task → List String → List String
  | .command, words => words.tail
  | _, words => words

def Task.ofUrl : List String → Task × List String
  | "remove" :: words => (.direct readRemoval, words)
  | "delete" :: words => (.direct (readDeletion .url), words)
  | words => (.rule (.url {}), words)

def Task.ofDomain : List String → Task × List String
  | "delete" :: words => (.direct (readDeletion .domain), words)
  | words => (.rule (.domain {}), words)

def Builder.task : Builder → List String → Task × List String
  | .leaf reader, words => (.direct reader.read, words)
  | .following, words => (.command, words)
  | .url, words => Task.ofUrl words
  | .domain, words => Task.ofDomain words

/-- What is known of the builder of a keyword. -/
inductive Entry where
  | known (builder : Builder)
  /-- All that is known are the outcomes it may have. -/
  | foreign (may : List String → Outcome Policy → Prop)

/-- The words in front of a turn and after it. -/
structure Turn where
  before : List String
  after : List String

/-- An account of a reading with its outcome and the turns in which parts are added to rules. -/
inductive Account (table : String → Option Entry) :
    Task → List String → Outcome Policy → List Turn → Prop
  | ended : Account table .command [] (.error .emptyCommand, []) []
  | unknown {keyword : String} {words : List String} : table keyword = none →
      Account table .command (keyword :: words) (.error (.unknownKeyword keyword), words) []
  | foreign {keyword : String} {words : List String} {may : List String → Outcome Policy → Prop}
      {outcome : Outcome Policy} : table keyword = some (.foreign may) → may words outcome →
      Account table .command (keyword :: words) outcome []
  | known {keyword : String} {words : List String} {builder : Builder}
      {outcome : Outcome Policy} {turns : List Turn} :
      table keyword = some (.known builder) →
      Account table (builder.task words).1 (builder.task words).2 outcome turns →
      Account table .command (keyword :: words) outcome turns
  | direct (reader : WordReader Policy) (words : List String) :
      Account table (.direct reader) words (reader.outcome words) []
  | target {rule : PartialRule} {words : List String} : (∀ word ∈ words.head?, word ∉ rule.keywords) →
      Account table (.rule rule) words (rule.readTarget.outcome words) []
  | part {rule next : PartialRule} {word : String} {words rest : List String} {policy : Policy}
      {outcome : Outcome Policy} {inner turns : List Turn} : word ∈ rule.keywords →
      Account table .command (word :: words) (.ok policy, rest) inner → rule.place policy = .ok next →
      Account table (.rule next) rest outcome turns →
      Account table (.rule rule) (word :: words) outcome (inner ++ ⟨word :: words, rest⟩ :: turns)
  | refused {rule : PartialRule} {word : String} {words rest : List String} {built : Except CommandError Policy}
      {e : CommandError} {inner : List Turn} : word ∈ rule.keywords →
      Account table .command (word :: words) (built, rest) inner → built >>= rule.place = .error e →
      Account table (.rule rule) (word :: words) (.error e, rest) (inner ++ [⟨word :: words, rest⟩])

namespace Registry

variable {registry : Registry} {keyword word : String} {words : List String} {builder : Builder} {rule : PartialRule}

/-! ## What the registry does -/

/-- The builders of a registry, all of which are known. -/
def table (registry : Registry) (keyword : String) : Option Entry :=
  (registry.builder? keyword).map .known

def perform (registry : Registry) : Task → List String → Outcome Policy
  | .command, words => registry.outcome words
  | .rule (.url rule), words =>
    ((registry.urlParts rule).outcome words).proceed fun rule => rule.readTarget.outcome
  | .rule (.domain options), words =>
    ((registry.domainOptions options).outcome words).proceed fun options => options.readTarget.outcome
  | .direct reader, words => reader.outcome words

theorem suffix_of_outcome {built : Except CommandError Policy} {rest : List String}
    (h : registry.outcome words = (built, rest)) : rest <:+ words.tail := by
  obtain ⟨-, rfl⟩ := Prod.mk.inj h
  exact (registry.build words).2.property

theorem outcome_nil (registry : Registry) : registry.outcome [] = (.error .emptyCommand, []) := by
  rw [outcome, build_nil]
  rfl

theorem outcome_unknown (h : registry.builder? keyword = none) (words : List String) :
    registry.outcome (keyword :: words) = (.error (.unknownKeyword keyword), words) := by
  simp only [outcome, build, h]
  rfl

theorem outcome_buildUrl (registry : Registry) (words : List String) :
    WordReader.outcome registry.buildUrl words = registry.perform (Task.ofUrl words).1 (Task.ofUrl words).2 := by
  fun_cases Task.ofUrl words with
  | case1 words => rw [WordReader.outcome, buildUrl_remove]; rfl
  | case2 words => rw [WordReader.outcome, buildUrl]; rfl
  | case3 words hremove hdelete =>
    rw [WordReader.outcome, buildUrl]
    · exact WordReader.outcome_resume _ _ words
    · exact hremove
    · exact hdelete

theorem outcome_buildDomain (registry : Registry) (words : List String) :
    WordReader.outcome registry.buildDomain words =
      registry.perform (Task.ofDomain words).1 (Task.ofDomain words).2 := by
  fun_cases Task.ofDomain words with
  | case1 words => rw [WordReader.outcome, buildDomain_delete]; rfl
  | case2 words hdelete =>
    rw [WordReader.outcome, buildDomain]
    · exact WordReader.outcome_resume _ _ words
    · exact hdelete

theorem outcome_known (h : registry.builder? keyword = some builder) (words : List String) :
    registry.outcome (keyword :: words) = registry.perform (builder.task words).1 (builder.task words).2 := by
  simp only [outcome, build, h]
  cases builder with
  | leaf reader => rfl
  | following => rfl
  | url => exact outcome_buildUrl registry words
  | domain => exact outcome_buildDomain registry words

theorem perform_target (h : ∀ word ∈ words.head?, word ∉ rule.keywords) :
    registry.perform (.rule rule) words = rule.readTarget.outcome words := by
  cases rule with
  | url rule =>
    rw [perform, (takesTurns_url registry).stops rule words h]
    rfl
  | domain options =>
    rw [perform, (takesTurns_domain registry).stops options words h]
    rfl

theorem perform_turn (h : word ∈ rule.keywords) (words : List String) :
    registry.perform (.rule rule) (word :: words) =
      (registry.outcome (word :: words)).proceed fun policy rest =>
        Outcome.proceed (rule.place policy, rest) fun next => registry.perform (.rule next) := by
  cases rule with
  | url rule =>
    rw [perform, (takesTurns_url registry).goes_on rule word words h, Outcome.proceed_assoc]
    congr 1
    funext policy rest
    rw [Outcome.proceed_assoc, PartialRule.place]
    cases rule.placePolicy policy <;> rfl
  | domain options =>
    rw [perform, (takesTurns_domain registry).goes_on options word words h, Outcome.proceed_assoc]
    congr 1
    funext policy rest
    rw [Outcome.proceed_assoc, PartialRule.place]
    cases options.place policy <;> rfl

/-! ## Accounts and what the registry does -/

variable {table : String → Option Entry} {task : Task} {outcome : Outcome Policy} {turns : List Turn}

theorem suffix_task (builder : Builder) (words : List String) : (builder.task words).2 <:+ words := by
  cases builder with
  | leaf reader => exact List.suffix_rfl
  | following => exact List.suffix_rfl
  | url =>
    show (Task.ofUrl words).2 <:+ words
    unfold Task.ofUrl
    split
    · exact List.suffix_cons _ _
    · exact List.suffix_cons _ _
    · exact List.suffix_rfl
  | domain =>
    show (Task.ofDomain words).2 <:+ words
    unfold Task.ofDomain
    split
    · exact List.suffix_cons _ _
    · exact List.suffix_rfl

/-- All that is known of the builders of some words is what the registry has for them. -/
def AgreesOn (registry : Registry) (table : String → Option Entry) (words : List String) : Prop :=
  ∀ word ∈ words, table word = registry.table word

theorem AgreesOn.suffix {rest : List String} (h : registry.AgreesOn table words) (hrest : rest <:+ words) :
    registry.AgreesOn table rest :=
  fun word hword => h word (hrest.subset hword)

theorem AgreesOn.known_iff (h : registry.AgreesOn table (keyword :: words)) :
    table keyword = some (.known builder) ↔ registry.builder? keyword = some builder := by
  rw [h keyword List.mem_cons_self, Registry.table]
  cases registry.builder? keyword <;> simp

theorem AgreesOn.eq_none_iff (h : registry.AgreesOn table (keyword :: words)) :
    table keyword = none ↔ registry.builder? keyword = none := by
  rw [h keyword List.mem_cons_self, Registry.table, Option.map_eq_none_iff]

/-- An account ends in what the registry makes of the words. -/
theorem outcome_eq_of_account (h : Account table task words outcome turns) (hagree : registry.AgreesOn table words) :
    registry.perform task words = outcome := by
  induction h with
  | ended => exact outcome_nil registry
  | unknown hkeyword => exact outcome_unknown (hagree.eq_none_iff.mp hkeyword) _
  | foreign hkeyword _ =>
    rw [hagree _ List.mem_cons_self, Registry.table, Option.map_eq_some_iff] at hkeyword
    obtain ⟨_, -, hforeign⟩ := hkeyword
    cases hforeign
  | @known keyword words builder _ _ hkeyword _ ih =>
    rw [perform, outcome_known (hagree.known_iff.mp hkeyword)]
    exact ih (hagree.suffix ((suffix_task builder words).trans (List.suffix_cons _ _)))
  | direct reader words => rfl
  | target hwords => exact perform_target hwords
  | @part rule next word words rest policy _ _ _ hword _ hplace _ ih ihnext =>
    have hbuild : registry.outcome (word :: words) = (.ok policy, rest) := ih hagree
    have hrest : rest <:+ word :: words := (suffix_of_outcome hbuild).trans (List.suffix_cons _ _)
    rw [perform_turn hword, hbuild]
    simp only [Outcome.proceed, hplace]
    exact ihnext (hagree.suffix hrest)
  | @refused rule word words rest built e _ hword _ hplace ih =>
    have hbuild : registry.outcome (word :: words) = (built, rest) := ih hagree
    rw [perform_turn hword, hbuild]
    cases built with
    | error e' =>
      cases hplace
      rfl
    | ok policy =>
      have hrefused : rule.place policy = .error e := hplace
      simp only [Outcome.proceed, hrefused]

private theorem exists_account_command (hagree : registry.AgreesOn table words)
    (ih : ∀ task rest, rest.length < words.length → rest <:+ words →
      ∃ turns, Account table task rest (registry.perform task rest) turns) :
    ∃ turns, Account table .command words (registry.outcome words) turns := by
  cases words with
  | nil =>
    rw [outcome_nil]
    exact ⟨_, .ended⟩
  | cons keyword words =>
    cases hkeyword : registry.builder? keyword with
    | none =>
      rw [outcome_unknown hkeyword]
      exact ⟨_, .unknown (hagree.eq_none_iff.mpr hkeyword)⟩
    | some builder =>
      have hsuffix := suffix_task builder words
      rw [outcome_known hkeyword]
      obtain ⟨turns, haccount⟩ := ih (builder.task words).1 (builder.task words).2
        (Nat.lt_succ_of_le hsuffix.length_le) (hsuffix.trans (List.suffix_cons _ _))
      exact ⟨turns, .known (hagree.known_iff.mpr hkeyword) haccount⟩

/-- There is an account of everything that the registry does. -/
theorem exists_account (task : Task) (hagree : registry.AgreesOn table words) :
    ∃ turns, Account table task words (registry.perform task words) turns := by
  induction hn : words.length using Nat.strongRecOn generalizing words task with
  | _ n ih =>
    subst hn
    have hshorter : ∀ task rest, rest.length < words.length → rest <:+ words →
        ∃ turns, Account table task rest (registry.perform task rest) turns :=
      fun task rest hlt hrest => ih rest.length hlt task (hagree.suffix hrest) rfl
    -- A turn of a rule begins with a command on the same words.
    have hcommand := exists_account_command hagree hshorter
    cases task with
    | command => exact hcommand
    | direct reader => exact ⟨[], .direct reader words⟩
    | rule rule =>
      by_cases hwords : ∀ word ∈ words.head?, word ∉ rule.keywords
      · rw [perform_target hwords]
        exact ⟨[], .target hwords⟩
      · cases words with
        | nil => exact absurd (fun _ h => nomatch h) hwords
        | cons word words =>
          have hword : word ∈ rule.keywords := by simpa using hwords
          obtain ⟨inner, hinner⟩ := hcommand
          rw [perform_turn hword]
          rcases hread : registry.outcome (word :: words) with ⟨built, rest⟩
          have hrest : rest <:+ words := suffix_of_outcome hread
          rw [hread] at hinner
          cases built with
          | error e => exact ⟨_, .refused hword hinner rfl⟩
          | ok policy =>
            simp only [Outcome.proceed]
            cases hplace : rule.place policy with
            | error e => exact ⟨_, .refused hword hinner hplace⟩
            | ok next =>
              obtain ⟨turns, haccount⟩ := hshorter (.rule next) rest (Nat.lt_succ_of_le hrest.length_le)
                (hrest.trans (List.suffix_cons _ _))
              exact ⟨_, .part hword hinner hplace haccount⟩

/-! ## Every turn takes a word -/

theorem length_leavable_le (task : Task) (words : List String) : (task.leavable words).length ≤ words.length := by
  cases task with
  | command => exact (List.tail_suffix words).length_le
  | rule rule => exact Nat.le_refl _
  | direct reader => exact Nat.le_refl _

/-- Each turn takes a word, so that there are no more turns than words taken. -/
theorem turns_of_account (h : Account registry.table task words outcome turns) :
    turns.length + outcome.2.length ≤ (task.leavable words).length ∧
      ∀ turn ∈ turns, turn.after <:+ turn.before ∧ turn.after.length < turn.before.length := by
  induction h with
  | ended => exact ⟨Nat.le_refl _, nofun⟩
  | unknown _ => exact ⟨Nat.le_of_eq (Nat.zero_add _), nofun⟩
  | foreign hkeyword _ =>
    rw [Registry.table, Option.map_eq_some_iff] at hkeyword
    obtain ⟨_, -, hforeign⟩ := hkeyword
    cases hforeign
  | @known keyword words builder outcome turns _ _ ih =>
    have hle := length_leavable_le (builder.task words).1 (builder.task words).2
    have hsuffix := (suffix_task builder words).length_le
    exact ⟨Nat.le_trans (Nat.le_trans ih.1 hle) hsuffix, ih.2⟩
  | direct reader words =>
    have hrest := (reader words).2.length_le
    exact ⟨by simpa [WordReader.outcome, Task.leavable] using hrest, nofun⟩
  | @target rule words _ =>
    have hrest := (rule.readTarget words).2.length_le
    exact ⟨by simpa [WordReader.outcome, Task.leavable] using hrest, nofun⟩
  | @part rule next word words rest policy outcome inner turns _ hcommand _ _ ih ihnext =>
    have hrest : rest <:+ words := suffix_of_outcome (outcome_eq_of_account hcommand fun _ _ => rfl)
    have hinner : inner.length + rest.length ≤ words.length := ih.1
    have hturns : turns.length + outcome.2.length ≤ rest.length := ihnext.1
    refine ⟨?_, List.forall_mem_append.mpr ⟨ih.2, List.forall_mem_cons.mpr ⟨?_, ihnext.2⟩⟩⟩
    · simp only [Task.leavable, List.length_append, List.length_cons]
      omega
    · exact ⟨hrest.trans (List.suffix_cons _ _), Nat.lt_succ_of_le hrest.length_le⟩
  | @refused rule word words rest built e inner _ hcommand _ ih =>
    have hrest : rest <:+ words := suffix_of_outcome (outcome_eq_of_account hcommand fun _ _ => rfl)
    have hinner : inner.length + rest.length ≤ words.length := ih.1
    refine ⟨?_, List.forall_mem_append.mpr ⟨ih.2, List.forall_mem_singleton.mpr ?_⟩⟩
    · simp only [Task.leavable, List.length_append, List.length_cons, List.length_nil]
      omega
    · exact ⟨hrest.trans (List.suffix_cons _ _), Nat.lt_succ_of_le hrest.length_le⟩

/-- Reading a command from a cursor comes to an end with whatever is registered: there is an account of it, and all
accounts have the outcome that is computed. The words stay as they are, whether a policy is read or not, and the cursor
moves forward, by a word at least if there is one. Every turn of a rule takes a word, so that there are no more turns
than words that the cursor passes. -/
theorem buildAt_ends (registry : Registry) (c : Cursor) :
    let result := (registry.buildAt c).1
    let later := (registry.buildAt c).2
    (∃ turns, Account registry.table .command c.remaining (result, later.remaining) turns) ∧
      (∀ outcome turns, Account registry.table .command c.remaining outcome turns →
        outcome = (result, later.remaining) ∧ c.position + turns.length ≤ later.position ∧
          ∀ turn ∈ turns, turn.after <:+ turn.before ∧ turn.after.length < turn.before.length) ∧
      later.items = c.items ∧ c.position ≤ later.position ∧ later.position ≤ c.items.length ∧
      (c.position < c.items.length → c.position < later.position) := by
  intro result later
  have hremaining : later.remaining = (registry.build c.remaining).2.val := Cursor.remaining_leave _ _
  have houtcome : registry.outcome c.remaining = (result, later.remaining) := by
    rw [hremaining]
    rfl
  have hlength : c.remaining.length = c.items.length - c.position := List.length_drop
  have hrest : later.remaining.length ≤ c.items.length - c.position - 1 := by
    have h := (registry.build c.remaining).2.length_le
    rwa [List.length_tail, hlength, ← hremaining] at h
  have hposition : later.position = c.items.length - later.remaining.length := by
    rw [hremaining]
    rfl
  have hstart := c.position_le
  refine ⟨?_, ?_, rfl, by omega, by omega, fun _ => by omega⟩
  · rw [← houtcome]
    exact exists_account .command fun _ _ => rfl
  · intro outcome turns haccount
    have hsame : outcome = (result, later.remaining) :=
      (outcome_eq_of_account haccount fun _ _ => rfl).symm.trans houtcome
    obtain ⟨hturns, htakes⟩ := turns_of_account haccount
    have hcount : turns.length + later.remaining.length ≤ c.items.length - c.position - 1 := by
      rw [hsame] at hturns
      simpa [Task.leavable, hlength] using hturns
    exact ⟨hsame, by omega, htakes⟩

/-- The keyword `url` may be given another meaning. Where a part of a rule is read and the target is missing, the cursor
has passed the part. -/
theorem buildAt_ends_missing_target :
    let registry := standard.register "url" .following
    let c : Cursor := ⟨["block", "url", "domain", "block"], 1, by decide⟩
    Account registry.table .command c.remaining (.error (.missingArgument "domain" "a domain name or all"), [])
        [⟨["block"], []⟩] ∧
      (registry.buildAt c).1 = .error (.missingArgument "domain" "a domain name or all") ∧
      (registry.buildAt c).2.remaining = [] ∧ c.position + 1 ≤ (registry.buildAt c).2.position ∧
      c.position < (registry.buildAt c).2.position := by
  intro registry c
  have hurl : registry.table "url" = some (.known .following) := by
    rw [table, builder?_register_self, Option.map_some]
  have hdomain : registry.table "domain" = some (.known .domain) := by
    rw [table, builder?_register_of_ne _ _ (by decide), builder?_domain, Option.map_some]
  have hblock : registry.table "block" = some (.known (.leaf (.marker .block))) := by
    have hmarker : standard.builder? "block" = some (.leaf (.marker .block)) :=
      builder?_standard_iff.mpr (.marker .block)
    rw [table, builder?_register_of_ne _ _ (by decide), hmarker, Option.map_some]
  have hpart : Account registry.table .command ["block"] (.ok (.marker .block), []) [] :=
    .known hblock (.direct _ [])
  have hrule : Account registry.table (.rule (.domain {})) ["block"]
      (.error (.missingArgument "domain" "a domain name or all"), []) [⟨["block"], []⟩] :=
    .part (by decide) hpart rfl (.target (by simp))
  have haccount : Account registry.table .command c.remaining
      (.error (.missingArgument "domain" "a domain name or all"), []) [⟨["block"], []⟩] :=
    .known hurl (.known hdomain hrule)
  obtain ⟨-, hall, -, -, -, hmoves⟩ := buildAt_ends registry c
  obtain ⟨hsame, hcount, -⟩ := hall _ _ haccount
  exact ⟨haccount, (congrArg Prod.fst hsame).symm, (congrArg Prod.snd hsame).symm, hcount, hmoves (by decide)⟩

end Registry

end TrafficPolicy
