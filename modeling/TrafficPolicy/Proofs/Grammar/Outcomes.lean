import TrafficPolicy.Grammar.Command

/-!
# What reading comes to

Reading some words comes to a value or an error, and some words are left in both cases. The parts of a url rule and the
options of a domain rule are read in turns, and both go on in the same way.
-/

namespace TrafficPolicy

/-- What has been read, if it has not failed, and the words that are left. -/
abbrev Outcome (α : Type) := Except CommandError α × List String

def Outcome.proceed {α β : Type} (outcome : Outcome α) (next : α → List String → Outcome β) : Outcome β :=
  match outcome with
  | (.error e, rest) => (.error e, rest)
  | (.ok value, rest) => next value rest

theorem Outcome.proceed_assoc {α β γ : Type} (outcome : Outcome α) (f : α → List String → Outcome β)
    (g : β → List String → Outcome γ) :
    (outcome.proceed f).proceed g = outcome.proceed fun value rest => (f value rest).proceed g := by
  obtain ⟨_ | value, rest⟩ := outcome <;> rfl

namespace WordReader

variable {α β : Type}

def outcome (reader : WordReader α) (words : List String) : Outcome α :=
  ((reader words).1, (reader words).2.val)

theorem outcome_resume (reader : WordReader α) (next : α → WordReader β) (words : List String) :
    outcome (fun words => resume (reader words) next) words =
      (reader.outcome words).proceed fun value => (next value).outcome := by
  simp only [outcome]
  obtain ⟨_ | value, rest⟩ := reader words <;> rfl

end WordReader

namespace Registry

variable {registry : Registry} {σ : Type} {words : List String}

def outcome (registry : Registry) (words : List String) : Outcome Policy :=
  ((registry.build words).1, (registry.build words).2.val)

/-- How a reader of parts goes on: while the next word is a keyword, a policy is built and added. -/
structure TakesTurns (registry : Registry) (reader : σ → WordReader σ)
    (place : σ → Policy → Except CommandError σ) (keywords : List String) : Prop where
  stops : ∀ state words, (∀ word ∈ words.head?, word ∉ keywords) → (reader state).outcome words = (.ok state, words)
  goes_on : ∀ state word words, word ∈ keywords → (reader state).outcome (word :: words) =
    (registry.outcome (word :: words)).proceed fun policy rest =>
      Outcome.proceed (place state policy, rest) fun next => (reader next).outcome

theorem takesTurns_url (registry : Registry) :
    registry.TakesTurns registry.urlParts UrlRule.placePolicy UrlRule.keywords where
  stops rule words h := by
    unfold WordReader.outcome
    cases words with
    | nil => rw [urlParts_nil]; rfl
    | cons word words =>
      have hword : UrlRule.keywords.contains word = false := by simpa using h word rfl
      rw [urlParts, hword]
      rfl
  goes_on rule word words hword := by
    have hk : UrlRule.keywords.contains word = true := by simpa using hword
    unfold WordReader.outcome
    simp only [urlParts, hk, if_true, outcome]
    obtain ⟨_ | policy, mid⟩ := registry.build (word :: words)
    · rfl
    · rcases hp : rule.placePolicy policy with _ | next <;> simp only [Outcome.proceed, hp] <;> rfl

theorem takesTurns_domain (registry : Registry) :
    registry.TakesTurns registry.domainOptions DomainOptions.place DomainRule.keywords where
  stops options words h := by
    unfold WordReader.outcome
    cases words with
    | nil => rw [domainOptions_nil]; rfl
    | cons word words =>
      have hword : DomainRule.keywords.contains word = false := by simpa using h word rfl
      rw [domainOptions, hword]
      rfl
  goes_on options word words hword := by
    have hk : DomainRule.keywords.contains word = true := by simpa using hword
    unfold WordReader.outcome
    simp only [domainOptions, hk, if_true, outcome]
    obtain ⟨_ | policy, mid⟩ := registry.build (word :: words)
    · rfl
    · rcases hp : options.place policy with _ | next <;> simp only [Outcome.proceed, hp] <;> rfl

end Registry

end TrafficPolicy
