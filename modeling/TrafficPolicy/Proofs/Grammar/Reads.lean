import TrafficPolicy.Proofs.Grammar.Outcomes
import TrafficPolicy.Proofs.Grammar.Standard

/-!
# What a reader reads

A reader is described by when it reads a value and what it leaves then. What a command says follows from the
readers of its parts, in both directions.
-/

namespace TrafficPolicy

namespace WordReader

variable {α β : Type} {words rest : List String}

/-- From `words` a reader reads a value and leaves `rest`. -/
def Reads (reader : WordReader α) (words : List String) (value : α) (rest : List String) : Prop :=
  (reader words).1 = .ok value ∧ (reader words).2.val = rest

theorem reads_iff_outcome {reader : WordReader α} {a : α} :
    reader.Reads words a rest ↔ reader.outcome words = (.ok a, rest) := by
  simp [Reads, outcome]

@[simp] theorem reads_pure {a b : α} : Reads (pure a) words b rest ↔ a = b ∧ words = rest := by
  simp [Reads, pure, ofExcept, Rest.whole]

@[simp] theorem reads_ofExcept {result : Except CommandError α} {a : α} :
    Reads (ofExcept result) words a rest ↔ result = .ok a ∧ words = rest := by
  simp [Reads, ofExcept, Rest.whole]

@[simp] theorem reads_liftM {result : Except CommandError α} {a : α} :
    Reads (liftM result) words a rest ↔ result = .ok a ∧ words = rest :=
  reads_ofExcept

theorem resume_fst_eq_ok_iff {read : Except CommandError α × Rest words} {next : α → WordReader β} {b : β} :
    (resume read next).1 = .ok b ∧ (resume read next).2.val = rest ↔
      ∃ a, read.1 = .ok a ∧ (next a).Reads read.2.val b rest := by
  obtain ⟨_ | a, mid⟩ := read
  · simp [resume]
  · simp [resume, Reads, Rest.trans]

@[simp] theorem reads_bind {reader : WordReader α} {next : α → WordReader β} {b : β} :
    Reads (reader >>= next) words b rest ↔
      ∃ a mid, reader.Reads words a mid ∧ (next a).Reads mid b rest := by
  have h : Reads (reader >>= next) words b rest ↔ _ :=
    @resume_fst_eq_ok_iff α β words rest (reader words) next b
  rw [h]
  constructor
  · rintro ⟨a, ha, hb⟩
    exact ⟨a, _, ⟨ha, rfl⟩, hb⟩
  · rintro ⟨a, mid, ⟨ha, rfl⟩, hb⟩
    exact ⟨a, ha, hb⟩

@[simp] theorem reads_next? {word? : Option String} :
    next?.Reads words word? rest ↔ word? = words.head? ∧ rest = words.tail := by
  cases words <;> simp [Reads, next?, Rest.whole, Rest.afterOne, eq_comm]

@[simp] theorem reads_argument {keyword expected word : String} :
    (argument keyword expected).Reads words word rest ↔ words = word :: rest := by
  cases words <;> simp [Reads, argument, Rest.afterOne]

/-- A reader that takes the next word if it is the expected one. -/
theorem reads_accept {expected : String} {b : Bool} :
    (accept expected).Reads words b rest ↔
      (b = true ∧ words = expected :: rest) ∨ (b = false ∧ words = rest ∧ words.head? ≠ some expected) := by
  cases words with
  | nil => cases b <;> simp [Reads, accept, Rest.whole]
  | cons word words =>
    by_cases h : word = expected <;> cases b <;> simp [Reads, accept, Rest.whole, Rest.afterOne, h]

@[simp] theorem reads_finish {keyword : String} {u : Unit} :
    (finish keyword).Reads words u rest ↔ words = [] ∧ rest = [] := by
  cases words <;> simp [Reads, finish, Rest.whole, eq_comm]

end WordReader

namespace Registry

variable {registry : Registry} {keyword : String} {words rest : List String} {policy : Policy}

/-- From `words` the registry builds a policy and leaves `rest`. -/
def Builds (registry : Registry) (words : List String) (policy : Policy) (rest : List String) : Prop :=
  (registry.build words).1 = .ok policy ∧ (registry.build words).2.val = rest

theorem builds_iff_outcome : registry.Builds words policy rest ↔ registry.outcome words = (.ok policy, rest) := by
  simp [Builds, outcome]

theorem not_builds_nil : ¬registry.Builds [] policy rest := by
  simp [Builds, build_nil]

theorem not_builds_of_unknown (h : registry.builder? keyword = none) :
    ¬registry.Builds (keyword :: words) policy rest := by
  simp [Builds, build, h]

theorem builds_leaf {leaf : Leaf} (h : registry.builder? keyword = some (.leaf leaf)) :
    registry.Builds (keyword :: words) policy rest ↔ leaf.read.Reads words policy rest := by
  simp only [Builds, build, h]
  rfl

theorem builds_url (h : registry.builder? keyword = some .url) :
    registry.Builds (keyword :: words) policy rest ↔
      WordReader.Reads registry.buildUrl words policy rest := by
  simp only [Builds, build, h]
  rfl

theorem builds_domain (h : registry.builder? keyword = some .domain) :
    registry.Builds (keyword :: words) policy rest ↔
      WordReader.Reads registry.buildDomain words policy rest := by
  simp only [Builds, build, h]
  rfl

theorem reads_urlRemoval :
    WordReader.Reads registry.buildUrl ("remove" :: words) policy rest ↔
      readRemoval.Reads words policy rest := by
  simp only [WordReader.Reads, buildUrl_remove]
  rfl

theorem reads_urlDeletion :
    WordReader.Reads registry.buildUrl ("delete" :: words) policy rest ↔
      (readDeletion .url).Reads words policy rest := by
  simp only [WordReader.Reads, buildUrl]
  rfl

theorem reads_urlRule (hr : words.head? ≠ some "remove") (hd : words.head? ≠ some "delete") :
    WordReader.Reads registry.buildUrl words policy rest ↔
      ∃ rule mid, WordReader.Reads (registry.urlParts {}) words rule mid ∧
        rule.readTarget.Reads mid policy rest := by
  have hb : registry.buildUrl words = WordReader.resume (registry.urlParts {} words) UrlRule.readTarget := by
    rw [buildUrl]
    · rintro ws rfl
      exact hr rfl
    · rintro ws rfl
      exact hd rfl
  simp only [WordReader.Reads, hb]
  rw [WordReader.resume_fst_eq_ok_iff]
  constructor
  · rintro ⟨rule, hrule, htarget⟩
    exact ⟨rule, _, ⟨hrule, rfl⟩, htarget⟩
  · rintro ⟨rule, mid, ⟨hrule, rfl⟩, htarget⟩
    exact ⟨rule, hrule, htarget⟩

/-- What follows `url` says what to remove, what to delete or what a rule says. -/
theorem reads_buildUrl_cases (h : WordReader.Reads registry.buildUrl words policy rest) :
    (∃ arguments, words = "remove" :: arguments ∧ readRemoval.Reads arguments policy rest) ∨
      (∃ arguments, words = "delete" :: arguments ∧ (readDeletion .url).Reads arguments policy rest) ∨
      ∃ rule mid, WordReader.Reads (registry.urlParts {}) words rule mid ∧ rule.readTarget.Reads mid policy rest := by
  cases words with
  | nil => exact .inr (.inr ((reads_urlRule (by simp) (by simp)).mp h))
  | cons word words =>
    by_cases hremove : word = "remove"
    · subst hremove
      exact .inl ⟨words, rfl, reads_urlRemoval.mp h⟩
    by_cases hdelete : word = "delete"
    · subst hdelete
      exact .inr (.inl ⟨words, rfl, reads_urlDeletion.mp h⟩)
    exact .inr (.inr ((reads_urlRule (by simpa using hremove) (by simpa using hdelete)).mp h))

namespace TakesTurns

variable {σ : Type} {reader : σ → WordReader σ} {place : σ → Policy → Except CommandError σ} {keywords : List String}
  {state result : σ}

theorem reads_nil (h : registry.TakesTurns reader place keywords) :
    (reader state).Reads [] result rest ↔ state = result ∧ rest = [] := by
  rw [WordReader.reads_iff_outcome, h.stops state [] nofun]
  simp [eq_comm]

theorem reads_target (h : registry.TakesTurns reader place keywords) (hkeyword : keyword ∉ keywords) :
    (reader state).Reads (keyword :: words) result rest ↔ state = result ∧ rest = keyword :: words := by
  rw [WordReader.reads_iff_outcome, h.stops state (keyword :: words) (by simpa using hkeyword)]
  simp [eq_comm]

theorem reads_part (h : registry.TakesTurns reader place keywords) (hkeyword : keyword ∈ keywords) :
    (reader state).Reads (keyword :: words) result rest ↔
      ∃ policy mid next, registry.Builds (keyword :: words) policy mid ∧ place state policy = .ok next ∧
        (reader next).Reads mid result rest := by
  simp only [WordReader.reads_iff_outcome, builds_iff_outcome, h.goes_on state keyword words hkeyword]
  obtain ⟨_ | policy, mid⟩ := registry.outcome (keyword :: words)
  · simp [Outcome.proceed]
  · cases hplace : place state policy with
    | error e => simp [Outcome.proceed, hplace]
    | ok next =>
      simp only [Outcome.proceed, hplace]
      constructor
      · exact fun hresult => ⟨policy, mid, next, rfl, hplace, hresult⟩
      · rintro ⟨_, _, _, hbuilds, hnext, hresult⟩
        cases hbuilds
        cases hplace.symm.trans hnext
        exact hresult

end TakesTurns

theorem reads_urlParts_nil {rule result : UrlRule} :
    WordReader.Reads (registry.urlParts rule) [] result rest ↔ rule = result ∧ rest = [] :=
  (takesTurns_url registry).reads_nil

theorem reads_urlParts_target {rule result : UrlRule} (h : keyword ∉ UrlRule.keywords) :
    WordReader.Reads (registry.urlParts rule) (keyword :: words) result rest ↔
      rule = result ∧ rest = keyword :: words :=
  (takesTurns_url registry).reads_target h

theorem reads_urlParts_part {rule result : UrlRule} (h : keyword ∈ UrlRule.keywords) :
    WordReader.Reads (registry.urlParts rule) (keyword :: words) result rest ↔
      ∃ policy mid next, registry.Builds (keyword :: words) policy mid ∧
        rule.placePolicy policy = .ok next ∧ WordReader.Reads (registry.urlParts next) mid result rest :=
  (takesTurns_url registry).reads_part h

theorem reads_domainDeletion :
    WordReader.Reads registry.buildDomain ("delete" :: words) policy rest ↔
      (readDeletion .domain).Reads words policy rest := by
  simp only [WordReader.Reads, buildDomain_delete]
  rfl

theorem reads_domainRule (hd : words.head? ≠ some "delete") :
    WordReader.Reads registry.buildDomain words policy rest ↔
      ∃ options mid, WordReader.Reads (registry.domainOptions {}) words options mid ∧
        options.readTarget.Reads mid policy rest := by
  have hb : registry.buildDomain words =
      WordReader.resume (registry.domainOptions {} words) DomainOptions.readTarget := by
    rw [buildDomain]
    rintro ws rfl
    exact hd rfl
  simp only [WordReader.Reads, hb]
  rw [WordReader.resume_fst_eq_ok_iff]
  constructor
  · rintro ⟨options, hoptions, htarget⟩
    exact ⟨options, _, ⟨hoptions, rfl⟩, htarget⟩
  · rintro ⟨options, mid, ⟨hoptions, rfl⟩, htarget⟩
    exact ⟨options, hoptions, htarget⟩

/-- What follows `domain` says what to delete or what a rule says. -/
theorem reads_buildDomain_cases (h : WordReader.Reads registry.buildDomain words policy rest) :
    (∃ arguments, words = "delete" :: arguments ∧ (readDeletion .domain).Reads arguments policy rest) ∨
      ∃ options mid, WordReader.Reads (registry.domainOptions {}) words options mid ∧
        options.readTarget.Reads mid policy rest := by
  cases words with
  | nil => exact .inr ((reads_domainRule (by simp)).mp h)
  | cons word words =>
    by_cases hdelete : word = "delete"
    · subst hdelete
      exact .inl ⟨words, rfl, reads_domainDeletion.mp h⟩
    exact .inr ((reads_domainRule (by simpa using hdelete)).mp h)

theorem reads_domainOptions_nil {options result : DomainOptions} :
    WordReader.Reads (registry.domainOptions options) [] result rest ↔ options = result ∧ rest = [] :=
  (takesTurns_domain registry).reads_nil

theorem reads_domainOptions_target {options result : DomainOptions} (h : keyword ∉ DomainRule.keywords) :
    WordReader.Reads (registry.domainOptions options) (keyword :: words) result rest ↔
      options = result ∧ rest = keyword :: words :=
  (takesTurns_domain registry).reads_target h

theorem reads_domainOptions_option {options result : DomainOptions} (h : keyword ∈ DomainRule.keywords) :
    WordReader.Reads (registry.domainOptions options) (keyword :: words) result rest ↔
      ∃ policy mid next, registry.Builds (keyword :: words) policy mid ∧
        options.place policy = .ok next ∧
          WordReader.Reads (registry.domainOptions next) mid result rest :=
  (takesTurns_domain registry).reads_part h

theorem policyOf_eq_ok_iff : registry.policyOf words = .ok policy ↔ registry.Builds words policy [] := by
  unfold policyOf Builds
  obtain ⟨_ | built, mid⟩ := registry.build words
  · simp [bind, Except.bind]
  · obtain ⟨_ | ⟨word, mid⟩, hmid⟩ := mid
    · simp [bind, Except.bind, pure, Except.pure, WordReader.run, WordReader.finish]
    · simp [bind, Except.bind, WordReader.run, WordReader.finish]

/-- A command says a policy exactly if the policy is built from its words and none is left. -/
theorem read_eq_ok_iff {command : String} :
    registry.read command = .ok policy ↔ registry.Builds (Text.words command) policy [] :=
  policyOf_eq_ok_iff

end Registry

end TrafficPolicy
