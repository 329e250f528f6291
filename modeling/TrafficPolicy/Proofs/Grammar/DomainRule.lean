import TrafficPolicy.Proofs.Address.RoundTrip
import TrafficPolicy.Proofs.Grammar.UrlRule

/-!
# Domain rules as they are written

Every rule that is read can be written, and what is written is read as the rule again, floats apart. The only
exception is a target that follows `domain` at once and is taken for the subcommand of the same name.
-/

namespace TrafficPolicy

open Text WordReader

/-! ## Lists of addresses -/

namespace Address

private theorem toNat_of_isDigitOf {c : Char} (h : isDigitOf 16 c) : 48 ≤ c.toNat ∧ c.toNat ≤ 102 := by
  have hvalues : ∀ n : Fin 128, (hexValue? (UInt8.ofNat n)).isSome → 48 ≤ n.val ∧ n.val ≤ 102 := by
    decide
  unfold isDigitOf digitValue? at h
  split at h
  · rename_i n hvalue
    obtain ⟨hlow, hvalue⟩ := Option.ite_none_right_eq_some.mp hvalue
    exact hvalues ⟨c.toNat, hlow⟩ (by rw [hvalue]; rfl)
  · cases h

private theorem unbroken_of_isAddressChar {c : Char} (h : IsAddressChar c) :
    isBlank c = false ∧ c ≠ '"' ∧ c ≠ ',' := by
  rcases h with h | rfl | rfl
  · have hbounds := toNat_of_isDigitOf h
    refine ⟨?_, ?_, ?_⟩
    · exact isBlank_of_visible (by omega) (by omega)
    · rintro rfl
      exact absurd hbounds (by decide)
    · rintro rfl
      exact absurd hbounds (by decide)
  · decide
  · decide

theorem bare_text (address : Address) : Bare address.text where
  nonempty := by
    intro hnil
    have hread := read?_text address
    have hempty : address.text = "" := String.toList_eq_nil_iff.mp hnil
    rw [hempty] at hread
    cases hread
  unbroken := fun c hc =>
    have h := unbroken_of_isAddressChar (text_chars hc)
    ⟨h.1, h.2.1⟩

theorem bare_listText {addresses : List Address} (hne : addresses ≠ []) : Bare (listText addresses) :=
  .joined ',' (by simpa using hne) (List.forall_mem_map.mpr fun address _ => bare_text address) (by decide)

theorem readAddresses_listText {addresses : List Address} (hne : addresses ≠ []) :
    DomainRule.readAddresses (listText addresses) = .ok addresses := by
  have hsplit : splitOn ',' (listText addresses).toList = addresses.map fun address => address.text.toList :=
    splitOn_joinWith hne fun _ _ hcomma => (unbroken_of_isAddressChar (text_chars hcomma)).2.2 rfl
  rw [DomainRule.readAddresses, hsplit, mapM_eq_ok_iff, List.forall₂_map_left_iff, List.forall₂_same]
  intro address _
  have htrim : trim address.text.toList = address.text.toList :=
    trim_eq_self fun c hc => ((bare_text address).unbroken c hc).1
  simp [DomainRule.readAddress, htrim, read?_text]

end Address

/-! ## What is read is sound -/

theorem DomainTarget.text_of_read {text : String} {target : DomainTarget} (h : read text = .ok target) :
    target.text = text := by
  unfold read at h
  split at h
  · rename_i hall
    cases h
    exact hall.symm
  · cases hread : DomainPattern.read text with
    | error e =>
      rw [hread] at h
      cases h
    | ok pattern =>
      rw [hread] at h
      cases h
      exact DomainPattern.text_of_read hread

namespace DomainOptions

variable {options next : DomainOptions} {words rest : List String} {policy : Policy}

structure Sound (options : DomainOptions) : Prop where
  delay : ∀ d ∈ options.delay, d.kind = .delay ∧ d.body = false
  limit : ∀ n ∈ options.limit, Number.fitsWord n

theorem Sound.place (h : options.Sound) (hpolicy : policy.Elementary) (hplace : options.place policy = .ok next) :
    next.Sound := by
  unfold DomainOptions.place at hplace
  split at hplace
  · cases hplace
    exact { h with }
  · cases hplace
    exact { h with }
  · split at hplace
    · cases hplace
    · split at hplace <;> cases hplace
      exact { h with }
  · rename_i d
    split at hplace
    · rename_i hplain
      split at hplace <;> cases hplace
      refine { h with delay := ?_ }
      intro _ hd
      cases hd
      simpa using hplain
    · cases hplace
  · cases hplace
    refine { h with limit := ?_ }
    intro _ hn
    cases hn
    exact hpolicy
  · cases hplace

theorem sound_of_reads_domainOptions (hplain : ∀ word ∈ words, Plain word)
    (h : WordReader.Reads (Registry.standard.domainOptions {}) words options rest) :
    options.Sound ∧ rest <:+ words ∧ ∀ word ∈ rest.head?, word ∉ DomainRule.keywords := by
  refine (Registry.readsParts_domain .standard).keeps (Q := Plain) ?_ hplain ⟨by simp, by simp⟩ h
  intro state next word words rest policy hstate hword hplain hbuild hplace
  refine hstate.place ?_ hplace
  rcases Registry.builds_standard hplain hbuild with he | ⟨arguments, heq, -⟩ | ⟨arguments, heq, -⟩
  · exact he
  · obtain rfl := (List.cons.inj heq).1
    exact absurd hword (by decide)
  · obtain rfl := (List.cons.inj heq).1
    exact absurd hword (by decide)

theorem reads_readTarget :
    options.readTarget.Reads words policy rest ↔
      rest = [] ∧ ∃ text target, DomainTarget.read text = .ok target ∧
        ((words = [text] ∧ policy = .domain (options.rule target [])) ∨
          ∃ list addresses, words = [text, list] ∧ DomainRule.readAddresses list = .ok addresses ∧
            policy = .domain (options.rule target addresses)) := by
  unfold readTarget
  simp only [reads_bind, reads_argument, reads_liftM, reads_next?]
  constructor
  · rintro ⟨text, mid, rfl, target, _, ⟨htarget, rfl⟩, list?, _, ⟨rfl, rfl⟩, h⟩
    cases mid with
    | nil =>
      simp only [List.head?_nil, List.tail_nil, reads_bind, reads_pure, reads_finish] at h
      obtain ⟨_, _, ⟨rfl, rfl⟩, u, _, ⟨-, rfl⟩, rfl, rfl⟩ := h
      exact ⟨rfl, text, target, htarget, .inl ⟨rfl, rfl⟩⟩
    | cons list mid =>
      simp only [List.head?_cons, List.tail_cons, reads_bind, reads_liftM, reads_pure, reads_finish] at h
      obtain ⟨addresses, _, ⟨haddresses, rfl⟩, u, _, ⟨rfl, rfl⟩, rfl, rfl⟩ := h
      exact ⟨rfl, text, target, htarget, .inr ⟨list, addresses, rfl, haddresses, rfl⟩⟩
  · rintro ⟨rfl, text, target, htarget, ⟨rfl, rfl⟩ | ⟨list, addresses, rfl, haddresses, rfl⟩⟩
    · refine ⟨text, [], rfl, target, [], ⟨htarget, rfl⟩, none, [], ⟨rfl, rfl⟩, ?_⟩
      simp only [reads_bind, reads_pure, reads_finish]
      exact ⟨[], [], ⟨rfl, rfl⟩, (), [], ⟨rfl, rfl⟩, rfl, rfl⟩
    · refine ⟨text, [list], rfl, target, [list], ⟨htarget, rfl⟩, some list, [], ⟨rfl, rfl⟩, ?_⟩
      simp only [reads_bind, reads_liftM, reads_pure, reads_finish]
      exact ⟨addresses, [], ⟨haddresses, rfl⟩, (), [], ⟨rfl, rfl⟩, rfl, rfl⟩

end DomainOptions

namespace DomainRule

variable {rule : DomainRule} {words rest : List String} {policy : Policy}

/-- What every rule has that has been read. -/
structure Sound (rule : DomainRule) : Prop where
  delay : ∀ d ∈ rule.delay, d.kind = .delay ∧ d.body = false
  limit : ∀ n ∈ rule.limit, Number.fitsWord n
  target : DomainTarget.read rule.target.text = .ok rule.target
  plain_target : Plain rule.target.text
  target_not_keyword : rule.target.text ∉ keywords

/-- What a domain command says: a deletion or a rule that is sound. -/
theorem cases_of_reads_buildDomain (hplain : ∀ word ∈ words, Plain word)
    (h : WordReader.Reads Registry.standard.buildDomain words policy rest) :
    (∃ deletion, policy = .delete deletion) ∨ ∃ rule : DomainRule, policy = .domain rule ∧ rule.Sound := by
  rcases Registry.reads_buildDomain_cases h with ⟨arguments, -, hdeletion⟩ | ⟨options, mid, hoptions, htarget⟩
  · obtain ⟨-, -, rfl⟩ := reads_deletion.mp hdeletion
    exact .inl ⟨_, rfl⟩
  obtain ⟨hsound, hmid, hhead⟩ := DomainOptions.sound_of_reads_domainOptions hplain hoptions
  obtain ⟨-, text, target, hread, hpolicy⟩ := DomainOptions.reads_readTarget.mp htarget
  have htext := DomainTarget.text_of_read hread
  obtain ⟨hfirst, addresses, rfl⟩ : mid.head? = some text ∧
      ∃ addresses, policy = .domain (options.rule target addresses) := by
    rcases hpolicy with ⟨rfl, rfl⟩ | ⟨list, addresses, rfl, -, rfl⟩
    · exact ⟨rfl, _, rfl⟩
    · exact ⟨rfl, _, rfl⟩
  refine .inr ⟨_, rfl, hsound.delay, hsound.limit, ?_, ?_, ?_⟩
  · exact htext ▸ hread
  · exact htext ▸ hplain text (hmid.subset (List.mem_of_mem_head? hfirst))
  · exact htext ▸ hhead text hfirst

/-! ## What is written is read as the rule -/

/-- The policies in front of the target. -/
def parts (rule : DomainRule) : List Policy :=
  (rule.action.marker?.map Policy.marker).toList ++ (rule.delay.map Policy.delay).toList ++
    (if rule.shuffle then [.marker .shuffle] else []) ++ (rule.limit.map Policy.limit).toList ++
    (if rule.circular then [.marker .circular] else [])

def addressTexts (rule : DomainRule) : List String :=
  if rule.addresses.isEmpty then [] else [Address.listText rule.addresses]

def arguments (rule : DomainRule) : List String :=
  rule.parts.flatMap Policy.written ++ rule.target.text :: rule.addressTexts

theorem mem_parts : policy ∈ rule.parts ↔
    (∃ m, rule.action.marker? = some m ∧ .marker m = policy) ∨ (∃ d, rule.delay = some d ∧ .delay d = policy) ∨
      (rule.shuffle = true ∧ policy = .marker .shuffle) ∨ (∃ n, rule.limit = some n ∧ .limit n = policy) ∨
      (rule.circular = true ∧ policy = .marker .circular) := by
  simp only [parts, List.mem_append, Option.mem_toList, Option.map_eq_some_iff,
    List.mem_ite_nil_right, List.mem_singleton, or_assoc]

theorem Sound.elementary (h : rule.Sound) : ∀ policy ∈ rule.parts, policy.Elementary := by
  intro policy hpolicy
  rcases mem_parts.mp hpolicy with ⟨m, -, rfl⟩ | ⟨d, -, rfl⟩ | ⟨-, rfl⟩ | ⟨n, hn, rfl⟩ | ⟨-, rfl⟩
  · trivial
  · trivial
  · trivial
  · exact h.limit n hn
  · trivial

theorem Sound.beginsIn (h : rule.Sound) :
    ∀ policy ∈ rule.parts, Registry.ReadsParts.BeginsIn keywords policy := by
  intro policy hpolicy
  rcases mem_parts.mp hpolicy with ⟨m, hm, rfl⟩ | ⟨d, hd, rfl⟩ | ⟨-, rfl⟩ | ⟨n, -, rfl⟩ | ⟨-, rfl⟩
  · refine ⟨m.keyword, rfl, ?_⟩
    cases haction : rule.action <;> rw [haction] at hm <;> cases hm <;> decide
  · refine ⟨d.kind.keyword, by simp [Policy.written, DelayPolicy.words], ?_⟩
    rw [(h.delay d hd).1]
    decide
  · exact ⟨_, rfl, by decide⟩
  · exact ⟨_, rfl, by decide⟩
  · exact ⟨_, rfl, by decide⟩

theorem Sound.plain_arguments (h : rule.Sound) : ∀ word ∈ rule.arguments, Plain word := by
  intro word hword
  rcases List.mem_append.mp hword with hparts | hword
  · obtain ⟨policy, hpolicy, hword⟩ := List.mem_flatMap.mp hparts
    exact Policy.plain_written (h.elementary policy hpolicy) word hword
  · rcases List.mem_cons.mp hword with rfl | hword
    · exact h.plain_target
    · unfold addressTexts at hword
      split at hword
      · cases hword
      · rename_i hne
        obtain rfl := List.mem_singleton.mp hword
        exact (Address.bare_listText (by simpa using hne)).plain

theorem Sound.command_eq (h : rule.Sound) : rule.command = line ("domain" :: rule.arguments) := by
  have hoption : ∀ {α : Type} (o : Option α) (f : α → Policy),
      (o.map f).toList.map Policy.command = (o.map fun a => (f a).command).toList := by
    rintro α (_ | a) f <;> rfl
  have hflag : ∀ (b : Bool) (m : Marker),
      (if b then [Policy.marker m] else []).map Policy.command = if b then [m.keyword] else [] := by
    rintro (_ | _) m <;> rfl
  have hparts : (rule.action.marker?.map Marker.keyword).toList ++ (rule.delay.map DelayPolicy.command).toList ++
      (if rule.shuffle then [Marker.shuffle.keyword] else []) ++ (rule.limit.map limitCommand).toList ++
      (if rule.circular then [Marker.circular.keyword] else []) = rule.parts.map Policy.command := by
    simp only [parts, List.map_append, hoption, hflag]
    rfl
  have haddresses : (if rule.addresses.isEmpty then [] else [Address.listText rule.addresses]) =
      rule.addressTexts.map quote := by
    unfold addressTexts
    split
    · rfl
    · rename_i hne
      rw [List.map_singleton, (Address.bare_listText (by simpa using hne)).quote_eq]
  rw [command, arguments, ← Policy.joinWith_commands (by decide) h.elementary, words, hparts, haddresses,
    List.map_cons, List.append_assoc, List.singleton_append]

theorem Sound.plain_words (h : rule.Sound) : ∀ word ∈ "domain" :: rule.arguments, Plain word :=
  List.forall_mem_cons.mpr ⟨by decide, h.plain_arguments⟩

/-- What the delay of a rule is read as. -/
def RereadsDelay (rule : DomainRule) (delay : Option DelayPolicy) : Prop :=
  Option.Rel (fun d d' => Policy.Rereads (.delay d) (.delay d')) rule.delay delay

/-- What the options of a rule are read as are the options of a rule with another delay. -/
private theorem forall₂_rereads_parts {read : List Policy} :
    List.Forall₂ Policy.Rereads rule.parts read ↔
      ∃ delay, rule.RereadsDelay delay ∧ read = parts { rule with delay } := by
  have hmarker : ∀ {o : Option Marker} {read}, List.Forall₂ Policy.Rereads (o.map Policy.marker).toList read ↔
      read = (o.map Policy.marker).toList := by
    rintro (_ | m) read <;> simp [List.forall₂_cons_left_iff, Policy.Rereads]
  have hlimit : ∀ {o : Option Nat} {read}, List.Forall₂ Policy.Rereads (o.map Policy.limit).toList read ↔
      read = (o.map Policy.limit).toList := by
    rintro (_ | m) read <;> simp [List.forall₂_cons_left_iff, Policy.Rereads]
  have hflag : ∀ {b : Bool} {m : Marker} {read},
      List.Forall₂ Policy.Rereads (if b then [Policy.marker m] else []) read ↔
        read = if b then [Policy.marker m] else [] := by
    rintro (_ | _) m read <;> simp [List.forall₂_cons_left_iff, Policy.Rereads]
  have hdelay : ∀ {read}, List.Forall₂ Policy.Rereads (rule.delay.map Policy.delay).toList read ↔
      ∃ delay, rule.RereadsDelay delay ∧ read = (delay.map Policy.delay).toList := by
    intro read
    unfold RereadsDelay
    cases rule.delay with
    | none =>
      constructor
      · rintro ⟨⟩
        exact ⟨none, .none, rfl⟩
      · rintro ⟨_, ⟨⟩, rfl⟩
        exact .nil
    | some d =>
      constructor
      · intro h
        obtain ⟨_, _, ⟨seconds, hread⟩, ⟨⟩, rfl⟩ := List.forall₂_cons_left_iff.mp h
        obtain ⟨hread, hmax, rfl⟩ := hread
        exact ⟨_, .some ⟨seconds, hread, hmax, rfl⟩, rfl⟩
      · rintro ⟨_, hrel, rfl⟩
        cases hrel with
        | some hread => exact .cons hread .nil
  simp only [parts, forall₂_append_left_iff, hmarker, hlimit, hflag, hdelay]
  constructor
  · rintro ⟨_, _, ⟨_, _, ⟨_, _, ⟨_, _, rfl, ⟨delay, hread, rfl⟩, rfl⟩, rfl, rfl⟩, rfl, rfl⟩, rfl, rfl⟩
    exact ⟨delay, hread, rfl⟩
  · rintro ⟨delay, hread, rfl⟩
    exact ⟨_, _, ⟨_, _, ⟨_, _, ⟨_, _, rfl, ⟨delay, hread, rfl⟩, rfl⟩, rfl, rfl⟩, rfl, rfl⟩, rfl, rfl⟩

/-- The options of a rule are put together as they were. -/
private theorem foldlM_place_parts (h : ∀ d ∈ rule.delay, d.kind = .delay ∧ d.body = false) :
    rule.parts.foldlM DomainOptions.place {} = .ok
      { action := rule.action.marker?, delay := rule.delay, shuffle := rule.shuffle,
        circular := rule.circular, limit := rule.limit } := by
  have haction : (rule.action.marker?.map Policy.marker).toList.foldlM DomainOptions.place {} =
      .ok { action := rule.action.marker? } := by
    cases rule.action <;> rfl
  have hdelay : ∀ action, (rule.delay.map Policy.delay).toList.foldlM DomainOptions.place { action } =
      .ok { action, delay := rule.delay } := by
    intro action
    cases hd : rule.delay with
    | none => rfl
    | some d => simp [DomainOptions.place, h d hd, bind, Except.bind, pure, Except.pure]
  have hshuffle : ∀ action delay,
      (if rule.shuffle then [Policy.marker .shuffle] else []).foldlM DomainOptions.place { action, delay } =
        .ok { action, delay, shuffle := rule.shuffle } := by
    intro action delay
    cases rule.shuffle <;> rfl
  have hlimit : ∀ action delay shuffle,
      (rule.limit.map Policy.limit).toList.foldlM DomainOptions.place { action, delay, shuffle } =
        .ok { action, delay, shuffle, limit := rule.limit } := by
    intro action delay shuffle
    cases rule.limit <;> rfl
  have hcircular : ∀ action delay shuffle limit,
      (if rule.circular then [Policy.marker .circular] else []).foldlM DomainOptions.place
        { action, delay, shuffle, limit } = .ok { action, delay, shuffle, circular := rule.circular, limit } := by
    intro action delay shuffle limit
    cases rule.circular <;> rfl
  simp only [parts, List.foldlM_append, haction, hdelay, hshuffle, hlimit, hcircular, bind, Except.bind]

theorem RereadsDelay.plain {delay : Option DelayPolicy} (hdelay : rule.RereadsDelay delay)
    (h : ∀ d ∈ rule.delay, d.kind = .delay ∧ d.body = false) : ∀ d ∈ delay, d.kind = .delay ∧ d.body = false := by
  unfold RereadsDelay at hdelay
  intro d' hd'
  obtain rfl := Option.mem_def.mp hd'
  generalize rule.delay = o at hdelay h
  cases hdelay with
  | @some d _ hread =>
    obtain ⟨seconds, -, -, heq⟩ := hread
    cases heq
    exact h d rfl

/-- The target is not taken for a subcommand. -/
def OpenStart (rule : DomainRule) : Prop := rule.parts = [] → rule.target.text ≠ "delete"

private theorem Sound.head?_arguments (h : rule.Sound) (hstart : rule.OpenStart) :
    rule.arguments.head? ≠ some "delete" := by
  unfold arguments
  by_cases hparts : rule.parts = []
  · simpa [hparts] using hstart hparts
  · obtain ⟨word, hkeyword, hword⟩ := Registry.ReadsParts.exists_head hparts h.beginsIn
    rw [hword]
    intro heq
    obtain rfl := Option.some.inj heq
    exact absurd hkeyword (by decide)

private theorem rule_options (rule : DomainRule) :
    DomainOptions.rule
      { action := rule.action.marker?, delay := rule.delay, shuffle := rule.shuffle,
        circular := rule.circular, limit := rule.limit } rule.target rule.addresses = rule := by
  simp only [DomainOptions.rule, DomainAction.ofMarker?_marker?]

/-- What the target and the addresses of a rule are read as. -/
private theorem Sound.reads_target (h : rule.Sound) {options : DomainOptions} :
    options.readTarget.Reads (rule.target.text :: rule.addressTexts) policy rest ↔
      rest = [] ∧ policy = .domain (options.rule rule.target rule.addresses) := by
  rw [DomainOptions.reads_readTarget]
  refine and_congr_right fun _ => ?_
  unfold addressTexts
  by_cases hempty : rule.addresses = []
  · simp only [hempty, List.isEmpty_nil, if_true]
    constructor
    · rintro ⟨text, target, htarget, ⟨heq, rfl⟩ | ⟨list, addresses, heq, -⟩⟩
      · obtain rfl := (List.cons.inj heq).1
        cases h.target.symm.trans htarget
        rfl
      · cases heq
    · rintro rfl
      exact ⟨_, _, h.target, .inl ⟨rfl, rfl⟩⟩
  · rw [if_neg (by simpa using hempty)]
    constructor
    · rintro ⟨text, target, htarget, ⟨heq, -⟩ | ⟨list, addresses, heq, haddresses, rfl⟩⟩
      · cases heq
      · cases heq
        cases h.target.symm.trans htarget
        cases (Address.readAddresses_listText hempty).symm.trans haddresses
        rfl
    · rintro rfl
      exact ⟨_, _, h.target, .inr ⟨_, _, rfl, Address.readAddresses_listText hempty, rfl⟩⟩

/-- What a rule is read as that is written so that its target is taken for a target. -/
theorem Sound.reads_arguments (h : rule.Sound) (hstart : rule.OpenStart) :
    WordReader.Reads Registry.standard.buildDomain rule.arguments policy rest ↔
      rest = [] ∧ ∃ delay, rule.RereadsDelay delay ∧ policy = .domain { rule with delay } := by
  have hchunked : Policy.chunked .on ∉ rule.parts := by
    intro hmem
    rcases mem_parts.mp hmem with ⟨_, -, heq⟩ | ⟨_, -, heq⟩ | ⟨-, heq⟩ | ⟨_, -, heq⟩ | ⟨-, heq⟩ <;> cases heq
  have hplaced : ∀ {delay}, rule.RereadsDelay delay →
      ∃ options, (parts { rule with delay }).foldlM DomainOptions.place {} = .ok options ∧
        options.rule rule.target rule.addresses = { rule with delay } := by
    intro delay hdelay
    exact ⟨_, foldlM_place_parts (hdelay.plain h.delay), rule_options { rule with delay }⟩
  rw [Registry.reads_domainRule (h.head?_arguments hstart), arguments]
  simp only [(Registry.readsParts_domain .standard).reads_written h.elementary h.beginsIn
    (fun hmem => absurd hmem hchunked) (fun hlast => absurd (List.mem_of_getLast? hlast) hchunked),
    Registry.reads_domainOptions_target h.target_not_keyword, forall₂_rereads_parts]
  constructor
  · rintro ⟨_, _, ⟨_, _, ⟨delay, hdelay, rfl⟩, hfold, rfl, rfl⟩, htarget⟩
    obtain ⟨options, hok, hrule⟩ := hplaced hdelay
    cases hok.symm.trans hfold
    obtain ⟨hrest, rfl⟩ := h.reads_target.mp htarget
    exact ⟨hrest, delay, hdelay, by rw [hrule]⟩
  · rintro ⟨hrest, delay, hdelay, rfl⟩
    obtain ⟨options, hok, hrule⟩ := hplaced hdelay
    refine ⟨_, _, ⟨_, _, ⟨delay, hdelay, rfl⟩, hok, rfl, rfl⟩, h.reads_target.mpr ⟨hrest, ?_⟩⟩
    rw [hrule]

/-! ## Rules that are read as they were written -/

/-- A target that is taken for a subcommand leaves no rule. -/
theorem not_domain_of_not_openStart (h : ¬rule.OpenStart)
    (hread : WordReader.Reads Registry.standard.buildDomain rule.arguments policy rest) :
    ∃ deletion, policy = .delete deletion := by
  simp only [OpenStart, not_forall, not_not] at h
  obtain ⟨hparts, htext⟩ := h
  have harguments : rule.arguments = "delete" :: rule.addressTexts := by
    simp [arguments, hparts, htext]
  rw [harguments, Registry.reads_domainDeletion] at hread
  obtain ⟨-, -, rfl⟩ := reads_deletion.mp hread
  exact ⟨_, rfl⟩

/-- A rule is read again from its command: the text of its delay stays as it is, and its target is taken for a
target. -/
structure Legible (rule : DomainRule) : Prop where
  settled : ∀ d ∈ rule.delay, Duration.Settled d.seconds
  openStart : rule.OpenStart

theorem Sound.read_command_iff (h : rule.Sound) :
    Registry.standard.read rule.command = .ok policy ↔
      WordReader.Reads Registry.standard.buildDomain rule.arguments policy [] := by
  have hb : Registry.standard.builder? "domain" = some .domain := Registry.builder?_standard_iff.mpr .domain
  rw [Registry.read_eq_ok_iff, h.command_eq, words_line h.plain_words, Registry.builds_domain hb]

theorem Sound.of_rereads (h : rule.Sound) {delay : Option DelayPolicy} (hdelay : rule.RereadsDelay delay) :
    Sound { rule with delay } :=
  { h with delay := hdelay.plain h.delay }

theorem Sound.command_eq_iff (h : rule.Sound) {delay : Option DelayPolicy} (hdelay : rule.RereadsDelay delay) :
    DomainRule.command { rule with delay } = rule.command ↔
      (parts { rule with delay }).flatMap Policy.written = rule.parts.flatMap Policy.written := by
  have hagain := h.of_rereads hdelay
  rw [h.command_eq, hagain.command_eq]
  constructor
  · intro heq
    have harguments := (List.cons.inj (line_injective hagain.plain_words h.plain_words heq)).2
    exact List.append_cancel_right harguments
  · intro heq
    unfold arguments
    rw [heq]
    rfl

/-- A rule is legible exactly if its command is read as a rule with the same target and the same command. -/
theorem Sound.legible_iff (h : rule.Sound) :
    rule.Legible ↔ ∃ again : DomainRule, Registry.standard.read rule.command = .ok (.domain again) ∧
      again.target = rule.target ∧ again.command = rule.command := by
  simp only [h.read_command_iff]
  constructor
  · rintro ⟨hsettled, hstart⟩
    obtain ⟨delay, hdelay, hcommand⟩ : ∃ delay, rule.RereadsDelay delay ∧
        delay.map DelayPolicy.command = rule.delay.map DelayPolicy.command := by
      unfold RereadsDelay
      cases hd : rule.delay with
      | none => exact ⟨none, .none, rfl⟩
      | some d =>
        obtain ⟨seconds, hread, hmax, htext⟩ := hsettled d hd
        refine ⟨some { d with seconds }, .some ⟨seconds, hread, hmax, rfl⟩, ?_⟩
        simp [DelayPolicy.command, DelayPolicy.words, htext]
    refine ⟨{ rule with delay }, (h.reads_arguments hstart).mpr ⟨rfl, delay, hdelay, rfl⟩, rfl, ?_⟩
    simp only [command, words, hcommand]
  · rintro ⟨again, hread, htarget, hcommand⟩
    have hstart : rule.OpenStart := by
      by_contra hstart
      obtain ⟨_, heq⟩ := not_domain_of_not_openStart hstart hread
      cases heq
    obtain ⟨-, delay, hdelay, heq⟩ := (h.reads_arguments hstart).mp hread
    cases heq
    refine ⟨fun d hd => ?_, hstart⟩
    have hwritten := (h.command_eq_iff hdelay).mp hcommand
    exact Policy.settled_delay_iff.mp (Policy.settled_of_flatMap
      (forall₂_rereads_parts.mpr ⟨delay, hdelay, rfl⟩) hwritten _ (mem_parts.mpr (.inr (.inl ⟨d, hd, rfl⟩))))

/-- What the command of a rule can be read as: a rule with the same target, or a deletion. -/
theorem Sound.again_of_read (h : rule.Sound) (hread : Registry.standard.read rule.command = .ok policy) :
    (∃ deletion, policy = .delete deletion) ∨
      ∃ again : DomainRule, policy = .domain again ∧ again.target = rule.target := by
  have hread := h.read_command_iff.mp hread
  by_cases hstart : rule.OpenStart
  · obtain ⟨-, delay, -, rfl⟩ := (h.reads_arguments hstart).mp hread
    exact .inr ⟨_, rfl, rfl⟩
  · exact .inl (not_domain_of_not_openStart hstart hread)

end DomainRule

end TrafficPolicy
