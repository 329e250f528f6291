import TrafficPolicy.Proofs.Grammar.Written

/-!
# Parts in front of a target

The parts of a url rule and the options of a domain rule are read in the same way: as long as the next word is
a keyword, a policy is read and put into what has been read before. The first other word is the target.
-/

namespace TrafficPolicy

open Text WordReader

theorem Policy.written_ne_nil {policy : Policy} (h : policy.Elementary) : policy.written ≠ [] := by
  cases policy with
  | map mapping => cases mapping <;> exact List.cons_ne_nil _ _
  | chunked framing => cases framing <;> exact List.cons_ne_nil _ _
  | delay d => simp [written, DelayPolicy.words]
  | url _ | domain _ | remove _ | delete _ => cases h
  | _ => exact List.cons_ne_nil _ _

/-- A keyword, the commands of policies and quoted words are written as their words. -/
theorem Policy.joinWith_commands {keyword : String} {policies : List Policy} {texts : List String}
    (hkeyword : Bare keyword) (helementary : ∀ policy ∈ policies, policy.Elementary) :
    joinWith " " (keyword :: (policies.map command ++ texts.map quote)) =
      line (keyword :: (policies.flatMap written ++ texts)) := by
  have hcommands : policies.map command = (policies.map written).map line := by
    rw [List.map_map]
    exact List.map_congr_left fun policy hpolicy => command_eq_line (helementary policy hpolicy)
  have htexts : texts.map quote = (texts.map fun text => [text]).map line := by
    rw [List.map_map]
    exact List.map_congr_left fun text _ => (line_singleton text).symm
  have hlines : keyword :: (policies.map command ++ texts.map quote) =
      ([keyword] :: (policies.map written ++ texts.map fun text => [text])).map line := by
    rw [List.map_cons, List.map_append, hcommands, htexts, line_singleton, hkeyword.quote_eq]
  rw [hlines, joinWith_lines]
  · have hflatten : (texts.map fun text => [text]).flatten = texts := by
      rw [← List.flatMap_def, List.flatMap_singleton']
    rw [List.flatten_cons, List.flatten_append, hflatten, ← List.flatMap_def]
    rfl
  · intro words hwords
    simp only [List.mem_cons, List.mem_append, List.mem_map] at hwords
    rcases hwords with rfl | ⟨policy, hpolicy, rfl⟩ | ⟨text, -, rfl⟩
    · exact List.cons_ne_nil _ _
    · exact written_ne_nil (helementary policy hpolicy)
    · exact List.cons_ne_nil _ _

/-- A reader takes policies that begin with a keyword from the front of the words and puts each into its state.
It stops at the first word that is no keyword. -/
structure Registry.ReadsParts {σ : Type} (registry : Registry) (reader : σ → WordReader σ)
    (place : σ → Policy → Except CommandError σ) (keywords : List String) : Prop where
  none_left : ∀ {state result : σ} {rest : List String},
    (reader state).Reads [] result rest ↔ state = result ∧ rest = []
  stops : ∀ {state result : σ} {word : String} {words rest : List String}, word ∉ keywords →
    ((reader state).Reads (word :: words) result rest ↔ state = result ∧ rest = word :: words)
  goes_on : ∀ {state result : σ} {word : String} {words rest : List String}, word ∈ keywords →
    ((reader state).Reads (word :: words) result rest ↔
      ∃ policy mid next, registry.Builds (word :: words) policy mid ∧ place state policy = .ok next ∧
        (reader next).Reads mid result rest)

theorem Registry.readsParts_url (registry : Registry) :
    registry.ReadsParts registry.urlParts UrlRule.placePolicy UrlRule.keywords where
  none_left := reads_urlParts_nil
  stops := reads_urlParts_target
  goes_on := reads_urlParts_part

theorem Registry.readsParts_domain (registry : Registry) :
    registry.ReadsParts registry.domainOptions DomainOptions.place DomainRule.keywords where
  none_left := reads_domainOptions_nil
  stops := reads_domainOptions_target
  goes_on := reads_domainOptions_option

namespace Registry.ReadsParts

variable {σ : Type} {registry : Registry} {reader : σ → WordReader σ}
  {place : σ → Policy → Except CommandError σ} {keywords : List String}

theorem suffix_of_builds {words rest : List String} {policy : Policy} (h : registry.Builds words policy rest) :
    rest <:+ words.tail :=
  h.2 ▸ (registry.build words).2.property

/-- What every part keeps, all parts together keep. Reading stops at the end of the words or at a word that is
no keyword. -/
theorem keeps (hreader : registry.ReadsParts reader place keywords) {I : σ → Prop} {Q : String → Prop}
    (step : ∀ {state next : σ} {word : String} {words rest : List String} {policy : Policy}, I state →
      word ∈ keywords → (∀ w ∈ word :: words, Q w) → registry.Builds (word :: words) policy rest →
      place state policy = .ok next → I next)
    {words rest : List String} {state result : σ} (hq : ∀ w ∈ words, Q w) (hi : I state)
    (h : (reader state).Reads words result rest) :
    I result ∧ rest <:+ words ∧ ∀ word ∈ rest.head?, word ∉ keywords := by
  induction hn : words.length using Nat.strongRecOn generalizing words state with
  | _ n ih =>
    cases words with
    | nil =>
      obtain ⟨rfl, rfl⟩ := hreader.none_left.mp h
      exact ⟨hi, List.suffix_rfl, by simp⟩
    | cons word words =>
      by_cases hword : word ∈ keywords
      · obtain ⟨policy, mid, next, hbuild, hplace, hnext⟩ := (hreader.goes_on hword).mp h
        have hmid : mid <:+ words := suffix_of_builds hbuild
        have hlength : mid.length < n := by
          have := hmid.length_le
          rw [List.length_cons] at hn
          omega
        have hsuffix : mid <:+ word :: words := hmid.trans (List.suffix_cons word words)
        obtain ⟨hresult, hrest, hhead⟩ := ih mid.length hlength (fun w hw => hq w (hsuffix.subset hw))
          (step hi hword hq hbuild hplace) hnext rfl
        exact ⟨hresult, hrest.trans hsuffix, hhead⟩
      · obtain ⟨rfl, rfl⟩ := (hreader.stops hword).mp h
        refine ⟨hi, List.suffix_rfl, ?_⟩
        intro w hw
        obtain rfl := Option.some.inj hw
        exact hword

def BeginsIn (keywords : List String) (policy : Policy) : Prop :=
  ∃ word ∈ policy.written.head?, word ∈ keywords

theorem exists_head {policies : List Policy} {tail : List String} (hne : policies ≠ [])
    (hbegins : ∀ policy ∈ policies, BeginsIn keywords policy) :
    ∃ word ∈ keywords, (policies.flatMap Policy.written ++ tail).head? = some word := by
  obtain ⟨policy, policies, rfl⟩ := List.exists_cons_of_ne_nil hne
  obtain ⟨word, hword, hkeyword⟩ := hbegins policy List.mem_cons_self
  refine ⟨word, hkeyword, ?_⟩
  rw [List.flatMap_cons, List.append_assoc, List.head?_append, Option.mem_def.mp hword]
  rfl

/-- What policies are read as that are written one after the other, whatever words follow. -/
theorem reads_written (hreader : Registry.standard.ReadsParts reader place keywords) {policies : List Policy}
    {tail : List String}
    (helementary : ∀ policy ∈ policies, policy.Elementary)
    (hbegins : ∀ policy ∈ policies, BeginsIn keywords policy)
    (hdisjoint : Policy.chunked .on ∈ policies → ∀ word ∈ keywords, word ∉ Framing.options)
    (hopen : policies.getLast? = some (.chunked .on) → ∀ word ∈ tail.head?, word ∉ Framing.options)
    {state result : σ} {rest : List String} :
    (reader state).Reads (policies.flatMap Policy.written ++ tail) result rest ↔
      ∃ again next, List.Forall₂ Policy.Rereads policies again ∧ again.foldlM place state = .ok next ∧
        (reader next).Reads tail result rest := by
  induction policies generalizing state with
  | nil =>
    constructor
    · exact fun h => ⟨[], state, .nil, rfl, h⟩
    · rintro ⟨_, _, ⟨⟩, hplace, h⟩
      cases hplace
      exact h
  | cons policy policies ih =>
    have ih := @ih (fun p hp => helementary p (List.mem_cons_of_mem _ hp))
      (fun p hp => hbegins p (List.mem_cons_of_mem _ hp)) (fun hp => hdisjoint (List.mem_cons_of_mem _ hp))
      (fun hlast => hopen (by rw [List.getLast?_cons, hlast]; rfl))
    obtain ⟨word, hword, hkeyword⟩ := hbegins policy List.mem_cons_self
    obtain ⟨arguments, hwritten⟩ : ∃ arguments, policy.written = word :: arguments :=
      ⟨_, List.eq_cons_of_mem_head? hword⟩
    have hfollow : policy = .chunked .on →
        ∀ w ∈ (policies.flatMap Policy.written ++ tail).head?, w ∉ Framing.options := by
      rintro rfl w hw
      by_cases hne : policies = []
      · subst hne
        exact hopen rfl w hw
      · obtain ⟨first, hmem, hfirst⟩ := exists_head hne fun p hp => hbegins p (List.mem_cons_of_mem _ hp)
        obtain rfl := Option.some.inj (hfirst.symm.trans hw)
        exact hdisjoint List.mem_cons_self first hmem
    have hbuilds : ∀ {read : Policy} {mid : List String}, Registry.standard.Builds
        (policy.written ++ (policies.flatMap Policy.written ++ tail)) read mid ↔
          mid = policies.flatMap Policy.written ++ tail ∧ policy.Rereads read :=
      Policy.builds_written (helementary policy List.mem_cons_self) hfollow
    rw [List.flatMap_cons, List.append_assoc, hwritten, List.cons_append, hreader.goes_on hkeyword]
    rw [hwritten, List.cons_append] at hbuilds
    constructor
    · rintro ⟨read, mid, next, hbuild, hplace, h⟩
      obtain ⟨rfl, hread⟩ := hbuilds.mp hbuild
      obtain ⟨again, last, hagain, hfold, h⟩ := ih.mp h
      refine ⟨read :: again, last, .cons hread hagain, ?_, h⟩
      rw [List.foldlM_cons, hplace]
      exact hfold
    · rintro ⟨_, last, hagain, hfold, h⟩
      cases hagain with
      | @cons _ read _ again hread hagain =>
        rw [List.foldlM_cons] at hfold
        cases hplace : place state read with
        | error e =>
          rw [hplace] at hfold
          cases hfold
        | ok next =>
          rw [hplace] at hfold
          exact ⟨read, _, next, hbuilds.mpr ⟨rfl, hread⟩, hplace, ih.mpr ⟨again, last, hagain, hfold, h⟩⟩

end Registry.ReadsParts

end TrafficPolicy
