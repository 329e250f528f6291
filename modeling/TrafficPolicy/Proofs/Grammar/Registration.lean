import TrafficPolicy.Proofs.Grammar.Readings
import TrafficPolicy.Proofs.Grammar.Refusals

/-!
# Registering a keyword

The builders of a registry look up no keywords but those that they find among the words. What is registered for a
keyword therefore makes no difference to a command in which it does not occur, also if all that is known of its builder
is what it may come to.
-/

namespace TrafficPolicy

namespace Registry

variable {registry later : Registry} {keyword command : String} {words : List String}

/-- Registries with the same builders for all words that occur build the same. -/
theorem build_congr (h : ∀ word ∈ words, later.builder? word = registry.builder? word) :
    later.build words = registry.build words := by
  have hagree : later.AgreesOn registry.table words := fun word hword => by rw [table, table, h word hword]
  have hself : registry.AgreesOn registry.table words := fun _ _ => rfl
  obtain ⟨turns, haccount⟩ := exists_account .command hself
  obtain ⟨hresult, hrest⟩ := Prod.mk.inj (outcome_eq_of_account haccount hagree)
  exact Prod.ext hresult (Subtype.ext hrest)

theorem build_register (h : keyword ∉ words) (builder : Builder) :
    (registry.register keyword builder).build words = registry.build words :=
  build_congr fun _ hword => builder?_register_of_ne registry builder fun heq => h (heq ▸ hword)

theorem read_eq_of_build (h : later.build (Text.words command) = registry.build (Text.words command)) :
    later.read command = registry.read command := by
  unfold read policyOf
  rw [h]

theorem readUrl_eq_of_build (h : later.build (urlWords command) = registry.build (urlWords command)) :
    later.readUrl command = registry.readUrl command := by
  unfold readUrl
  change later.build (if _ then _ else _) = registry.build (if _ then _ else _) at h
  simp only [h]

theorem notMem_urlWords (hcommand : keyword ∉ Text.words command) (hurl : keyword ≠ "url") :
    keyword ∉ urlWords command := by
  unfold urlWords
  split
  · exact hcommand
  · simp [hurl, hcommand]

/-- A command in which a keyword does not occur says the same before and after the keyword is registered, and so does a
url command, unless the keyword is the one that may be left out. Also with a builder for the keyword of which nothing is
known there are accounts of the words, and all of them have the outcome that is built without it. -/
theorem read_register (registry : Registry) (keyword : String) (command : String) (h : keyword ∉ Text.words command) :
    (∀ builder, (registry.register keyword builder).read command = registry.read command ∧
      (keyword ≠ "url" → (registry.register keyword builder).readUrl command = registry.readUrl command)) ∧
    ∀ table : String → Option Entry, (∀ other, other ≠ keyword → table other = registry.table other) →
      ∀ words, words = Text.words command ∨ (keyword ≠ "url" ∧ words = urlWords command) →
        ∀ outcome, (∃ turns, Account table .command words outcome turns) ↔
          outcome = registry.outcome words := by
  refine ⟨fun builder => ⟨?_, fun hurl => ?_⟩, fun table htable words hwords outcome => ?_⟩
  · exact read_eq_of_build (build_register h builder)
  · exact readUrl_eq_of_build (build_register (notMem_urlWords h hurl) builder)
  · have hunused : keyword ∉ words := by
      rcases hwords with rfl | ⟨hurl, rfl⟩
      · exact h
      · exact notMem_urlWords h hurl
    have hagree : registry.AgreesOn table words := fun word hword => htable word fun heq => hunused (heq ▸ hword)
    constructor
    · rintro ⟨turns, haccount⟩
      exact (outcome_eq_of_account haccount hagree).symm
    · rintro rfl
      exact exists_account .command hagree

/-- A keyword inside a quoted text is no word of the command. -/
theorem read_register_quoted :
    let command := "url rewrite \"speed up\" g.cn"
    let table := fun word => if word = "speed" then some (.foreign fun _ _ => False) else standard.table word
    Text.words command = ["url", "rewrite", "speed up", "g.cn"] ∧
      (standard.register "speed" .following).read command = standard.read command ∧
      (standard.register "speed" .following).readUrl command = standard.readUrl command ∧
      ∃ turns, Account table .command (Text.words command) (standard.outcome (Text.words command)) turns := by
  intro command table
  have hwords : Text.words command = ["url", "rewrite", "speed up", "g.cn"] := by decide
  have hunused : "speed" ∉ Text.words command := by
    rw [hwords]
    decide
  obtain ⟨hregister, hforeign⟩ := read_register standard "speed" command hunused
  obtain ⟨hread, hreadUrl⟩ := hregister .following
  have htable : ∀ other, other ≠ "speed" → table other = standard.table other := fun other h => if_neg h
  exact ⟨hwords, hread, hreadUrl (by decide), (hforeign table htable _ (.inl rfl) _).mpr rfl⟩

end Registry

end TrafficPolicy
