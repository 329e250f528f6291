import TrafficPolicy.Proofs.Grammar.Failures

/-!
# What a command is refused for

The readers of the parts of a command do not take every policy, but the standard registry gives them none that they do
not take. A keyword is unknown only if it is the first word of the command or if it should name a slot.
-/

namespace TrafficPolicy

variable {σ : Type} {P : CommandError → Prop}

/-! ## Parts -/

theorem UrlRule.fails_placePolicy (rule : UrlRule) {policy : Policy} (h : policy.urlPart?.isSome) :
    FailsWith CommandError.Ordinary (rule.placePolicy policy) := by
  obtain ⟨part, hpart⟩ := Option.isSome_iff_exists.mp h
  simp only [placePolicy, hpart]
  cases part with
  | mode mode =>
    unfold place
    dsimp only
    split
    · exact .error trivial
    · exact .ok _
  | occupant slot value =>
    unfold place
    dsimp only
    split
    · exact .error trivial
    · exact .ok _

namespace DomainOptions

/-- A policy that is an option of a domain rule; a delay may still have to be refused. -/
def accepts : Policy → Bool
  | .marker m => m = .shuffle || m = .circular || (DomainAction.ofMarker? m).isSome
  | .delay _ => true
  | .limit _ => true
  | _ => false

theorem fails_place (options : DomainOptions) {policy : Policy} (h : accepts policy) :
    FailsWith CommandError.Ordinary (options.place policy) := by
  unfold place
  split
  · exact .ok _
  · exact .ok _
  · rename_i m hshuffle hcircular
    have haction : (DomainAction.ofMarker? m).isSome := by
      simp only [accepts, Bool.or_eq_true, decide_eq_true_eq] at h
      rcases h with (rfl | rfl) | h
      · exact absurd rfl hshuffle
      · exact absurd rfl hcircular
      · exact h
    rw [if_neg (by simp [Option.isSome_iff_ne_none.mp haction])]
    split
    · exact .error trivial
    · exact .ok _
  · split
    · split
      · exact .error trivial
      · exact .ok _
    · exact .error trivial
  · exact .ok _
  · rename_i hmarker hdelay hlimit
    cases policy with
    | marker m => exact absurd rfl (hmarker m)
    | delay d => exact absurd rfl (hdelay d)
    | limit count => exact absurd rfl (hlimit count)
    | _ => cases h

end DomainOptions

namespace Leaf

def givesUrlPart : Leaf → Bool
  | .marker m => (Policy.marker m).urlPart?.isSome
  | .limit => false
  | _ => true

def givesDomainOption : Leaf → Bool
  | .marker m => DomainOptions.accepts (.marker m)
  | .delay _ => true
  | .limit => true
  | _ => false

variable {leaf : Leaf} {words rest : List String} {policy : Policy}

theorem isSome_urlPart? (h : leaf.givesUrlPart) (hreads : leaf.read.Reads words policy rest) :
    policy.urlPart?.isSome := by
  cases leaf with
  | marker m =>
    obtain ⟨rfl, -⟩ := WordReader.reads_pure.mp hreads
    exact h
  | flag switch f =>
    obtain ⟨rfl, -⟩ := WordReader.reads_pure.mp hreads
    cases switch <;> rfl
  | text kind =>
    obtain ⟨_, text, -, -, rfl⟩ := reads_text.mp hreads
    rfl
  | map =>
    rcases reads_map.mp hreads with ⟨_, _, -, -, rfl⟩ | ⟨_, -, -, -, rfl⟩ <;> rfl
  | chunked =>
    obtain ⟨_, -, rfl⟩ := reads_chunked.mp hreads
    rfl
  | speed =>
    obtain ⟨_, _, -, -, -, rfl⟩ := reads_speed.mp hreads
    rfl
  | fixedSpeed rate =>
    obtain ⟨rfl, -⟩ := WordReader.reads_pure.mp hreads
    rfl
  | status =>
    obtain ⟨_, _, -, -, -, -, rfl⟩ := reads_status.mp hreads
    rfl
  | limit => cases h
  | delay kind =>
    obtain ⟨_, _, _, _, _, -, -, -, -, rfl⟩ := reads_delay.mp hreads
    rfl

theorem accepts_option (h : leaf.givesDomainOption) (hreads : leaf.read.Reads words policy rest) :
    DomainOptions.accepts policy := by
  cases leaf with
  | marker m =>
    obtain ⟨rfl, -⟩ := WordReader.reads_pure.mp hreads
    exact h
  | limit =>
    obtain ⟨_, _, -, -, -, rfl⟩ := reads_limit.mp hreads
    rfl
  | delay kind =>
    obtain ⟨_, _, _, _, _, -, -, -, -, rfl⟩ := reads_delay.mp hreads
    rfl
  | _ => cases h

end Leaf

namespace Registry

/-- What a reader of parts makes of some words, its errors included. -/
structure TakesParts (registry : Registry) (reader : σ → WordReader σ)
    (place : σ → Policy → Except CommandError σ) (keywords : List String) : Prop where
  none_left : ∀ state, (reader state []).1 = .ok state
  stops : ∀ state word words, word ∉ keywords → (reader state (word :: words)).1 = .ok state
  goes_on : ∀ state word words, word ∈ keywords → (reader state (word :: words)).1 = do
    let policy ← (registry.build (word :: words)).1
    let next ← place state policy
    (reader next (registry.build (word :: words)).2.val).1

theorem TakesTurns.takesParts {registry : Registry} {reader : σ → WordReader σ}
    {place : σ → Policy → Except CommandError σ} {keywords : List String}
    (h : registry.TakesTurns reader place keywords) : registry.TakesParts reader place keywords where
  none_left state := congrArg Prod.fst (h.stops state [] nofun)
  stops state word words hword := congrArg Prod.fst (h.stops state (word :: words) (by simpa using hword))
  goes_on state word words hword := by
    refine (congrArg Prod.fst (h.goes_on state word words hword)).trans ?_
    simp only [outcome]
    obtain ⟨_ | policy, mid⟩ := registry.build (word :: words)
    · rfl
    · cases hplace : place state policy <;> simp only [Outcome.proceed, hplace, bind, Except.bind]
      rfl

theorem takesParts_url (registry : Registry) :
    registry.TakesParts registry.urlParts UrlRule.placePolicy UrlRule.keywords :=
  (takesTurns_url registry).takesParts

theorem takesParts_domain (registry : Registry) :
    registry.TakesParts registry.domainOptions DomainOptions.place DomainRule.keywords :=
  (takesTurns_domain registry).takesParts

/-- If no part is refused for anything else, the parts together are not. -/
theorem TakesParts.fails {registry : Registry} {reader : σ → WordReader σ}
    {place : σ → Policy → Except CommandError σ} {keywords : List String}
    (h : registry.TakesParts reader place keywords)
    (hbuild : ∀ word ∈ keywords, ∀ words, FailsWith P (registry.build (word :: words)).1)
    (hplace : ∀ word ∈ keywords, ∀ words policy rest state, registry.Builds (word :: words) policy rest →
      FailsWith P (place state policy)) (state : σ) (words : List String) : FailsWith P (reader state words).1 := by
  induction hn : words.length using Nat.strongRecOn generalizing words state with
  | _ n ih =>
    cases words with
    | nil => exact h.none_left state ▸ .ok state
    | cons word words =>
      by_cases hword : word ∈ keywords
      · rw [h.goes_on state word words hword]
        refine (hbuild word hword words).bind fun policy hpolicy => ?_
        refine (hplace word hword words policy _ state ⟨hpolicy, rfl⟩).bind fun next _ => ?_
        have hle : (registry.build (word :: words)).2.val.length ≤ words.length :=
          (registry.build (word :: words)).2.length_le
        rw [List.length_cons] at hn
        exact ih _ (by omega) next _ rfl
      · exact h.stops state word words hword ▸ .ok state

/-! ## The standard registry -/

variable {keyword word command : String} {words : List String}

/-- The leaf of a keyword, if it is one of some leaves. -/
private def hasLeaf (gives : Leaf → Bool) (keyword : String) : Bool :=
  match standard.builder? keyword with
  | some (.leaf leaf) => gives leaf
  | _ => false

private theorem exists_leaf {gives : Leaf → Bool} (h : hasLeaf gives keyword) :
    ∃ leaf, standard.builder? keyword = some (.leaf leaf) ∧ gives leaf := by
  unfold hasLeaf at h
  split at h
  · rename_i leaf hleaf
    exact ⟨leaf, hleaf, h⟩
  · cases h

theorem exists_leaf_url (h : keyword ∈ UrlRule.keywords) :
    ∃ leaf, standard.builder? keyword = some (.leaf leaf) ∧ leaf.givesUrlPart :=
  have hall : ∀ keyword ∈ UrlRule.keywords, hasLeaf Leaf.givesUrlPart keyword := by decide
  exists_leaf (hall keyword h)

theorem exists_leaf_domain (h : keyword ∈ DomainRule.keywords) :
    ∃ leaf, standard.builder? keyword = some (.leaf leaf) ∧ leaf.givesDomainOption :=
  have hall : ∀ keyword ∈ DomainRule.keywords, hasLeaf Leaf.givesDomainOption keyword := by decide
  exists_leaf (hall keyword h)

theorem fst_build_leaf {registry : Registry} {leaf : Leaf} (h : registry.builder? keyword = some (.leaf leaf))
    (words : List String) : (registry.build (keyword :: words)).1 = (leaf.read words).1 := by
  simp [build, h]

theorem fst_build_url (words : List String) : (standard.build ("url" :: words)).1 = (standard.buildUrl words).1 := by
  simp [build, builder?_url]

theorem fails_urlParts (rule : UrlRule) (words : List String) :
    FailsWith CommandError.Ordinary (standard.urlParts rule words).1 := by
  refine standard.takesParts_url.fails (fun word hword words => ?_)
    (fun word hword words policy rest rule hbuilds => ?_) rule words
  · obtain ⟨leaf, hleaf, -⟩ := exists_leaf_url hword
    rw [fst_build_leaf hleaf]
    exact leaf.fails_read words
  · obtain ⟨leaf, hleaf, hgives⟩ := exists_leaf_url hword
    exact rule.fails_placePolicy (Leaf.isSome_urlPart? hgives ((builds_leaf hleaf).mp hbuilds))

theorem fails_domainOptions (options : DomainOptions) (words : List String) :
    FailsWith CommandError.Ordinary (standard.domainOptions options words).1 := by
  refine standard.takesParts_domain.fails (fun word hword words => ?_)
    (fun word hword words policy rest options hbuilds => ?_) options words
  · obtain ⟨leaf, hleaf, -⟩ := exists_leaf_domain hword
    rw [fst_build_leaf hleaf]
    exact leaf.fails_read words
  · obtain ⟨leaf, hleaf, hgives⟩ := exists_leaf_domain hword
    exact options.fails_place (Leaf.accepts_option hgives ((builds_leaf hleaf).mp hbuilds))

/-- The first word is not registered, or the command is to empty a slot and there is none of that name. -/
def Unknown (words : List String) (keyword : String) : Prop :=
  (∃ rest, words = keyword :: rest ∧ standard.contains keyword = false) ∨
    ∃ rest, words = "url" :: "remove" :: keyword :: rest ∧ Slot.ofKeyword? keyword = none

def Refuses (words : List String) (error : CommandError) : Prop :=
  error.Ordinary ∨ ∃ keyword, error = .unknownKeyword keyword ∧ Unknown words keyword

theorem Refuses.unknown (h : Refuses words (.unknownKeyword keyword)) : Unknown words keyword := by
  rcases h with h | ⟨_, heq, hunknown⟩
  · exact h.elim
  · cases heq
    exact hunknown

theorem fails_buildUrl (words : List String) : FailsWith (Refuses ("url" :: words)) (standard.buildUrl words).1 := by
  unfold buildUrl
  split
  · rename_i words
    cases words with
    | nil => exact .error (.inl trivial)
    | cons keyword words =>
      change FailsWith _ (readRemoval (keyword :: words)).1
      cases hslot : Slot.ofKeyword? keyword with
      | none =>
        rw [readRemoval_of_none hslot]
        exact .error (.inr ⟨keyword, rfl, .inr ⟨words, rfl, hslot⟩⟩)
      | some slot => exact (fails_readRemoval_of_some hslot).mono fun _ => Or.inl
  · exact (fails_readDeletion .url _).mono fun _ => Or.inl
  · rw [WordReader.fst_resume]
    exact ((fails_urlParts {} _).bind fun rule _ => rule.fails_readTarget _).mono fun _ => Or.inl

theorem fails_buildDomain (words : List String) :
    FailsWith CommandError.Ordinary (standard.buildDomain words).1 := by
  unfold buildDomain
  split
  · exact fails_readDeletion .domain _
  · rw [WordReader.fst_resume]
    exact (fails_domainOptions {} _).bind fun options _ => options.fails_readTarget _

theorem fails_build (words : List String) : FailsWith (Refuses words) (standard.build words).1 := by
  cases words with
  | nil =>
    rw [build_nil]
    exact .error (.inl trivial)
  | cons keyword words =>
    cases hbuilder : standard.builder? keyword with
    | none =>
      have hbuild : (standard.build (keyword :: words)).1 = .error (.unknownKeyword keyword) := by
        simp [build, hbuilder]
      rw [hbuild]
      exact .error (.inr ⟨keyword, rfl, .inl ⟨words, rfl, by simp [contains, hbuilder]⟩⟩)
    | some builder =>
      cases builder?_standard_iff.mp hbuilder with
      | url =>
        rw [fst_build_url]
        exact fails_buildUrl words
      | domain =>
        have hbuild : (standard.build ("domain" :: words)).1 = (standard.buildDomain words).1 := by
          simp [build, builder?_domain]
        rw [hbuild]
        exact (fails_buildDomain words).mono fun _ => Or.inl
      | _ =>
        rw [fst_build_leaf hbuilder]
        exact (Leaf.fails_read _ words).mono fun _ => Or.inl

theorem build_unknown (h : Unknown words keyword) : (standard.build words).1 = .error (.unknownKeyword keyword) := by
  rcases h with ⟨rest, rfl, hcontains⟩ | ⟨rest, rfl, hnone⟩
  · have hnone : standard.builder? keyword = none := by simpa [contains] using hcontains
    simp [build, hnone]
  · rw [fst_build_url, buildUrl_remove, readRemoval_of_none hnone]

/-! ## Commands -/

theorem fails_read (command : String) : FailsWith (Refuses (Text.words command)) (standard.read command) := by
  change FailsWith _ ((standard.build (Text.words command)).1 >>= _)
  refine (fails_build _).bind fun policy _ => ?_
  exact FailsWith.bind ((WordReader.FailsWith.finish _ _).mono fun _ => Or.inl) fun _ _ => .ok _

/-- The words of a url command, of which the first may be left out. -/
def urlWords (command : String) : List String :=
  if (Text.words command).head? = some "url" then Text.words command else "url" :: Text.words command

theorem head_urlWords {rest : List String} (h : urlWords command = word :: rest) : "url" = word := by
  have hhead : (urlWords command).head? = some "url" := by
    unfold urlWords
    split
    · assumption
    · rfl
  rw [h] at hhead
  exact (Option.some.inj hhead).symm

theorem fails_readUrl (command : String) :
    FailsWith (fun error => Refuses (urlWords command) error ∨ ∃ text, error = .notApplicable text)
      (standard.readUrl command) := by
  change FailsWith _ ((standard.build (urlWords command)).1 >>= _)
  refine ((fails_build _).mono fun _ => Or.inl).bind fun policy _ => ?_
  refine FailsWith.bind ((WordReader.FailsWith.finish _ _).mono fun _ h => .inl (.inl h)) fun _ _ => ?_
  split
  · exact .ok _
  · exact .error (.inr ⟨_, rfl⟩)

/-- Commands are refused for what any reader may refuse. Beyond that, a keyword is unknown exactly if it is the first
word and not registered or if it should name a slot to be emptied and there is none of that name, and where a url rule
is expected, another policy may be refused. -/
theorem refusals (command : String) :
    (∀ error, standard.read command = .error error → error.Ordinary ∨ ∃ keyword, error = .unknownKeyword keyword) ∧
    (∀ keyword, standard.read command = .error (.unknownKeyword keyword) ↔
      (∃ rest, Text.words command = keyword :: rest ∧ standard.contains keyword = false) ∨
      ∃ rest, Text.words command = "url" :: "remove" :: keyword :: rest ∧ Slot.ofKeyword? keyword = none) ∧
    (∀ error, standard.readUrl command = .error error →
      error.Ordinary ∨ (∃ keyword, error = .unknownKeyword keyword) ∨ ∃ text, error = .notApplicable text) ∧
    ∀ keyword, standard.readUrl command = .error (.unknownKeyword keyword) ↔
      ∃ rest, urlWords command = "url" :: "remove" :: keyword :: rest ∧ Slot.ofKeyword? keyword = none := by
  refine ⟨fun error herror => ?_, fun keyword => ⟨fun h => ?_, fun h => ?_⟩, fun error herror => ?_,
    fun keyword => ⟨fun h => ?_, fun ⟨rest, hwords, hnone⟩ => ?_⟩⟩
  · exact (fails_read command error herror).imp_right fun ⟨keyword, heq, _⟩ => ⟨keyword, heq⟩
  · exact (fails_read command _ h).unknown
  · change ((standard.build (Text.words command)).1 >>= _) = _
    rw [build_unknown h]
    rfl
  · rcases fails_readUrl command error herror with (hordinary | ⟨keyword, heq, -⟩) | hother
    · exact .inl hordinary
    · exact .inr (.inl ⟨keyword, heq⟩)
    · exact .inr (.inr hother)
  · rcases fails_readUrl command _ h with hrefuses | ⟨_, heq⟩
    · rcases hrefuses.unknown with ⟨rest, hwords, hcontains⟩ | hslot
      · have hurl : standard.contains "url" = true := by rw [contains, builder?_url, Option.isSome_some]
        rw [← head_urlWords hwords, hurl] at hcontains
        cases hcontains
      · exact hslot
    · cases heq
  · change ((standard.build (urlWords command)).1 >>= _) = _
    rw [build_unknown (.inr ⟨rest, hwords, hnone⟩)]
    rfl

/-- The keyword for a limit is registered, but no url rule has a slot for it. -/
theorem refusals_limit : standard.contains "n" = true ∧
    standard.read "url remove n g.cn" = .error (.unknownKeyword "n") ∧
    standard.readUrl "remove n g.cn" = .error (.unknownKeyword "n") := by
  obtain ⟨-, hread, -, -⟩ := refusals "url remove n g.cn"
  obtain ⟨-, -, -, hreadUrl⟩ := refusals "remove n g.cn"
  exact ⟨by rw [contains, builder?_standard_iff.mpr .limit, Option.isSome_some],
    (hread "n").mpr (.inr ⟨["g.cn"], by decide, by decide⟩),
    (hreadUrl "n").mpr ⟨["g.cn"], by decide, by decide⟩⟩

end Registry

end TrafficPolicy
