import TrafficPolicy.Proofs.Grammar.Leaf
import TrafficPolicy.Proofs.Quantity.Written
import TrafficPolicy.Proofs.Text.Contents

/-!
# Policies without parts as they are written

The words that such a policy is written in are read as the policy again, whatever follows them. There are two
exceptions. A float is written with few digits, so that only its text is read again. And a word after `chunked`
may be taken for an option of it.
-/

namespace TrafficPolicy

open Text WordReader

/-! ## What is written -/

def Mapping.written : Mapping → List String
  | .url target => ["map", target]
  | .replace raw _ _ => ["map", "replace", raw]

def Framing.written : Framing → List String
  | .keep => ["chunked", "default"]
  | .on => ["chunked"]
  | .off => ["chunked", "off"]
  | .blocks count => ["chunked", "block", toString count]
  | .sizes list => ["chunked", "size", PieceSizes.text list]

def Mapping.Elementary : Mapping → Prop
  | .url target => Plain target ∧ target ≠ "replace"
  | .replace raw expression replacement =>
    Plain raw ∧ Mapping.readReplace raw = .ok (.replace raw expression replacement)

def Framing.Elementary : Framing → Prop
  | .blocks count => 0 < count ∧ Number.fitsWord count
  | .sizes list => list ≠ [] ∧ ∀ size ∈ list, Number.fitsWord size
  | _ => True

namespace Policy

def written : Policy → List String
  | .marker m => [m.keyword]
  | .flag _ f => [f.keyword]
  | .text kind value => [kind.keyword, value.value]
  | .map mapping => mapping.written
  | .chunked framing => framing.written
  | .speed rate => ["speed", Rate.text rate]
  | .status code => ["status", toString code]
  | .limit count => ["n", toString count]
  | .delay d => d.words
  | _ => []

/-- A policy without parts that can be read. -/
def Elementary : Policy → Prop
  | .marker _ | .text _ _ | .speed _ | .delay _ => True
  | .flag switch f => f ∈ switch.flags
  | .map mapping => mapping.Elementary
  | .chunked framing => framing.Elementary
  | .status code => 100 ≤ code ∧ code ≤ 999
  | .limit count => Number.fitsWord count
  | .url _ | .domain _ | .remove _ | .delete _ => False

/-- What the words of a policy are read as. Only a float may have changed. -/
def Rereads : Policy → Policy → Prop
  | .delay d, again => ∃ seconds, Duration.read (Duration.text d.seconds) = .ok seconds ∧
      ¬seconds > Duration.maxSeconds ∧ again = .delay { d with seconds }
  | .speed rate, again => ∃ next, Rate.read (Rate.text rate) = .ok next ∧ ¬next < Leaf.minRate ∧
      again = .speed next
  | policy, again => again = policy

/-! ## What is read can be written -/

variable {policy again : Policy} {words rest : List String} {keyword : String}

private theorem elementary_of_framing {framing : Framing}
    (h : Leaf.readFraming.Reads words framing rest) : framing.Elementary := by
  rcases Leaf.reads_framing.mp h with ⟨-, rfl⟩ | ⟨-, rfl⟩ | ⟨-, rfl⟩ | ⟨raw, count, -, hcount, hpos, rfl⟩ |
    ⟨raw, sizes, -, hsizes, rfl⟩ | ⟨-, -, rfl⟩
  · trivial
  · trivial
  · trivial
  · have hfits := Number.fitsWord_of_readInteger? hcount
    refine ⟨by omega, ?_⟩
    rwa [Int.toNat_of_nonneg (by omega)]
  · exact PieceSizes.fitsWord_of_read hsizes
  · trivial

theorem elementary_of_reads {leaf : Leaf} (hflag : ∀ switch f, leaf = .flag switch f → f ∈ switch.flags)
    (hplain : ∀ word ∈ words, Plain word) (h : leaf.read.Reads words policy rest) : policy.Elementary := by
  cases leaf with
  | marker m =>
    obtain ⟨rfl, -⟩ := reads_pure.mp h
    trivial
  | flag switch f =>
    obtain ⟨rfl, -⟩ := reads_pure.mp h
    exact hflag switch f rfl
  | text kind =>
    obtain ⟨value, text, -, -, rfl⟩ := Leaf.reads_text.mp h
    trivial
  | map =>
    rcases Leaf.reads_map.mp h with ⟨raw, mapping, rfl, hread, rfl⟩ | ⟨target, rfl, hne, hquote, rfl⟩
    · have hraw : Plain raw := hplain raw (by simp)
      have hread' := hread
      unfold Mapping.readReplace at hread
      split at hread
      · cases hread
      · split at hread
        · cases hread
        · cases hread
          exact ⟨hraw, hread'⟩
    · exact ⟨hquote, hne⟩
  | chunked =>
    obtain ⟨framing, hframing, rfl⟩ := Leaf.reads_chunked.mp h
    exact elementary_of_framing hframing
  | speed =>
    obtain ⟨raw, rate, -, -, -, rfl⟩ := Leaf.reads_speed.mp h
    trivial
  | fixedSpeed rate =>
    obtain ⟨rfl, -⟩ := reads_pure.mp h
    trivial
  | status =>
    obtain ⟨raw, code, -, -, hlow, hhigh, rfl⟩ := Leaf.reads_status.mp h
    exact ⟨by omega, by omega⟩
  | limit =>
    obtain ⟨raw, count, -, hcount, hlow, rfl⟩ := Leaf.reads_limit.mp h
    have hfits := Number.fitsWord_of_readInteger? hcount
    rw [← Int.toNat_of_nonneg hlow] at hfits
    exact hfits
  | delay kind =>
    obtain ⟨body, rand, afterBody, raw, seconds, -, -, -, -, rfl⟩ := Leaf.reads_delay.mp h
    trivial

/-! ## The command of a policy is its words -/

theorem bare_marker (m : Marker) : Bare m.keyword := by
  cases m <;> decide

theorem bare_flag {switch : Switch} {f : Flag} (h : f ∈ switch.flags) : Bare f.keyword := by
  have hall : ∀ switch : Switch, ∀ f ∈ switch.flags, Bare f.keyword := by
    intro switch
    cases switch <;> decide
  exact hall switch f h

theorem bare_textKind (kind : TextKind) : Bare kind.keyword := by
  cases kind <;> decide

theorem bare_delayWords {d : DelayPolicy} : ∀ word ∈ d.words, Bare word := by
  intro word hword
  simp only [DelayPolicy.words, List.mem_append, List.mem_singleton] at hword
  rcases hword with ((rfl | h) | h) | rfl
  · cases d.kind <;> decide
  · split at h
    · obtain rfl := List.mem_singleton.mp h
      decide
    · cases h
  · split at h
    · obtain rfl := List.mem_singleton.mp h
      decide
    · cases h
  · exact Duration.bare_text _

theorem command_eq_line (h : policy.Elementary) : policy.command = line policy.written := by
  have hmap : Bare "map" := by decide
  have hchunked : Bare "chunked" := by decide
  have hpair : ∀ {keyword word : String}, Bare keyword → line [keyword, word] = keyword ++ " " ++ quote word := by
    intro keyword word hkeyword
    rw [hkeyword.line_cons (List.cons_ne_nil _ _), line_singleton]
  cases policy with
  | marker m => rw [written, line_singleton, (bare_marker m).quote_eq, command]
  | flag switch f => rw [written, line_singleton, (bare_flag h).quote_eq, command]
  | text kind value => rw [written, hpair (bare_textKind kind), command, TextValue.command]
  | map mapping =>
    cases mapping with
    | url target => exact (hpair hmap).symm
    | replace raw _ _ =>
      rw [written, Mapping.written, hmap.line_cons (List.cons_ne_nil _ _), hpair (by decide)]
      simp only [command, Mapping.command, ← String.append_assoc]
      rfl
  | chunked framing =>
    cases framing with
    | keep => decide
    | on => decide
    | off => decide
    | blocks count =>
      rw [written, Framing.written, hchunked.line_cons (List.cons_ne_nil _ _), hpair (by decide),
        (Number.bare_nat count).quote_eq, ← String.append_assoc, ← String.append_assoc]
      rfl
    | sizes list =>
      rw [written, Framing.written, hchunked.line_cons (List.cons_ne_nil _ _), hpair (by decide),
        (PieceSizes.bare_text h.1).quote_eq, ← String.append_assoc, ← String.append_assoc]
      rfl
  | speed rate =>
    rw [written, hpair (by decide), (Rate.bare_text rate).quote_eq]
    rfl
  | status code =>
    rw [written, hpair (by decide), (Number.bare_nat code).quote_eq]
    rfl
  | limit count =>
    rw [written, hpair (by decide), (Number.bare_nat count).quote_eq]
    rfl
  | delay d => exact (Bare.line_eq bare_delayWords).symm
  | _ => cases h

theorem plain_text {kind : TextKind} (value : TextValue kind) : Plain value.value :=
  value.quote_notMem

theorem plain_written (h : policy.Elementary) : ∀ word ∈ policy.written, Plain word := by
  have hpair : ∀ {keyword value : String}, Bare keyword → Plain value → ∀ word ∈ [keyword, value], Plain word := by
    intro keyword value hkeyword hvalue word hword
    rcases List.mem_cons.mp hword with rfl | hword
    · exact hkeyword.plain
    · obtain rfl := List.mem_singleton.mp hword
      exact hvalue
  cases policy with
  | marker m => simpa [written] using (bare_marker m).plain
  | flag switch f => simpa [written] using (bare_flag h).plain
  | text kind value => exact hpair (bare_textKind kind) (plain_text value)
  | map mapping =>
    cases mapping with
    | url target => exact hpair (by decide) h.1
    | replace raw _ _ => exact List.forall_mem_cons.mpr ⟨by decide, hpair (by decide) h.1⟩
  | chunked framing =>
    cases framing with
    | keep => decide
    | on => decide
    | off => decide
    | blocks count =>
      exact List.forall_mem_cons.mpr ⟨by decide, hpair (by decide) (Number.bare_nat count).plain⟩
    | sizes list =>
      exact List.forall_mem_cons.mpr ⟨by decide, hpair (by decide) (PieceSizes.bare_text h.1).plain⟩
  | speed rate => exact hpair (by decide) (Rate.bare_text rate).plain
  | status code => exact hpair (by decide) (Number.bare_nat code).plain
  | limit count => exact hpair (by decide) (Number.bare_nat count).plain
  | delay d => exact fun word hword => (bare_delayWords word hword).plain
  | _ => cases h

/-! ## The words of a policy are read as the policy -/

theorem builder?_marker (m : Marker) :
    Registry.standard.builder? m.keyword = some (.leaf (.marker m)) :=
  Registry.builder?_standard_iff.mpr (.marker m)

theorem builder?_flag {switch : Switch} {f : Flag} (h : f ∈ switch.flags) :
    Registry.standard.builder? f.keyword = some (.leaf (.flag switch f)) :=
  Registry.builder?_standard_iff.mpr (.flag h)

theorem builder?_text (kind : TextKind) :
    Registry.standard.builder? kind.keyword = some (.leaf (.text kind)) :=
  Registry.builder?_standard_iff.mpr (.text kind)

theorem builder?_delay (kind : DelayKind) :
    Registry.standard.builder? kind.keyword = some (.leaf (.delay kind)) :=
  Registry.builder?_standard_iff.mpr (.delay kind)

private theorem builds_map {mapping : Mapping} (h : mapping.Elementary) :
    Registry.standard.Builds (mapping.written ++ words) again rest ↔ rest = words ∧ again = .map mapping := by
  have hb : Registry.standard.builder? "map" = some (.leaf .map) := Registry.builder?_standard_iff.mpr .map
  cases mapping with
  | url target =>
    rw [Mapping.written, List.cons_append, Registry.builds_leaf hb, Leaf.read, Leaf.reads_map]
    constructor
    · rintro (⟨raw, mapping, heq, -, -⟩ | ⟨other, heq, -, -, rfl⟩)
      · exact absurd (List.cons.inj heq).1 h.2
      · obtain ⟨rfl, rfl⟩ := List.cons.inj heq
        exact ⟨rfl, rfl⟩
    · rintro ⟨rfl, rfl⟩
      exact .inr ⟨target, rfl, h.2, h.1, rfl⟩
  | replace raw expression replacement =>
    rw [Mapping.written, List.cons_append, Registry.builds_leaf hb, Leaf.read, Leaf.reads_map]
    constructor
    · rintro (⟨other, mapping, heq, hread, rfl⟩ | ⟨other, heq, hne, -, -⟩)
      · cases heq
        cases h.2.symm.trans hread
        exact ⟨rfl, rfl⟩
      · cases heq
        exact absurd rfl hne
    · rintro ⟨rfl, rfl⟩
      exact .inl ⟨raw, _, rfl, h.2, rfl⟩

private theorem reads_framingOn {framing : Framing} (hopen : ∀ word ∈ words.head?, word ∉ Framing.options) :
    Leaf.readFraming.Reads words framing rest ↔ rest = words ∧ framing = .on := by
  rw [Leaf.reads_framing]
  constructor
  · rintro (⟨rfl, -⟩ | ⟨rfl, -⟩ | ⟨rfl, -⟩ | ⟨raw, count, rfl, -⟩ | ⟨raw, sizes, rfl, -⟩ | ⟨rfl, -, rfl⟩)
    · exact absurd (by decide) (hopen _ rfl)
    · exact absurd (by decide) (hopen _ rfl)
    · exact absurd (by decide) (hopen _ rfl)
    · exact absurd (by decide) (hopen _ rfl)
    · exact absurd (by decide) (hopen _ rfl)
    · exact ⟨rfl, rfl⟩
  · rintro ⟨rfl, rfl⟩
    exact .inr (.inr (.inr (.inr (.inr ⟨rfl, hopen, rfl⟩))))

private theorem builds_chunked {framing : Framing} (h : framing.Elementary)
    (hopen : framing = .on → ∀ word ∈ words.head?, word ∉ Framing.options) :
    Registry.standard.Builds (framing.written ++ words) again rest ↔
      rest = words ∧ again = .chunked framing := by
  have hb : Registry.standard.builder? "chunked" = some (.leaf .chunked) :=
    Registry.builder?_standard_iff.mpr .chunked
  have hread : ∀ {arguments : List String}, Registry.standard.Builds ("chunked" :: arguments) again rest ↔
      ∃ framing, Leaf.readFraming.Reads arguments framing rest ∧ again = .chunked framing := by
    intro arguments
    rw [Registry.builds_leaf hb, Leaf.read, Leaf.reads_chunked]
  cases framing with
  | keep =>
    rw [Framing.written, List.cons_append, hread]
    simp [Leaf.reads_framing, Framing.options, eq_comm]
  | on =>
    rw [Framing.written, List.singleton_append, hread]
    simp only [reads_framingOn (hopen rfl)]
    constructor
    · rintro ⟨_, ⟨rfl, rfl⟩, rfl⟩
      exact ⟨rfl, rfl⟩
    · rintro ⟨rfl, rfl⟩
      exact ⟨_, ⟨rfl, rfl⟩, rfl⟩
  | off =>
    rw [Framing.written, List.cons_append, hread]
    simp [Leaf.reads_framing, Framing.options, eq_comm]
  | blocks count =>
    have hcount : Number.readInteger? (toString count).toList = some (count : Int) := Number.readInteger?_nat h.2
    rw [Framing.written, List.cons_append, hread]
    generalize toString count = raw at hcount ⊢
    simp [Leaf.reads_framing, Framing.options, hcount, h.1, eq_comm]
  | sizes list =>
    have hlist : PieceSizes.read (PieceSizes.text list) = .ok list := PieceSizes.read_text h.1 h.2
    rw [Framing.written, List.cons_append, hread]
    simp [Leaf.reads_framing, Framing.options, hlist, eq_comm]

/-- A word that is there or not is found or not. -/
private theorem reads_accept_option {expected : String} {present found : Bool}
    (h : words.head? ≠ some expected) :
    (accept expected).Reads ((if present then [expected] else []) ++ words) found rest ↔
      found = present ∧ rest = words := by
  rw [reads_accept]
  cases present with
  | true =>
    constructor
    · rintro (⟨rfl, heq⟩ | ⟨rfl, -, hne⟩)
      · exact ⟨rfl, (List.cons.inj heq).2.symm⟩
      · exact absurd rfl hne
    · rintro ⟨rfl, rfl⟩
      exact .inl ⟨rfl, rfl⟩
  | false =>
    constructor
    · rintro (⟨rfl, rfl⟩ | ⟨rfl, rfl, -⟩)
      · exact absurd rfl h
      · exact ⟨rfl, rfl⟩
    · rintro ⟨rfl, rfl⟩
      exact .inr ⟨rfl, rfl, h⟩

private theorem builds_delay {d : DelayPolicy} :
    Registry.standard.Builds (d.words ++ words) again rest ↔ rest = words ∧ Rereads (.delay d) again := by
  obtain ⟨kind, body, rand, seconds⟩ := d
  have hbody : Duration.text seconds ≠ "body" := Duration.text_ne_of_getLast (by decide)
  have hrand : Duration.text seconds ≠ "rand" := Duration.text_ne_of_getLast (by decide)
  have hafter : ((if rand then ["rand"] else []) ++ Duration.text seconds :: words).head? ≠ some "body" := by
    cases rand
    · simpa using hbody
    · simp
  simp only [DelayPolicy.words, List.append_assoc, List.cons_append, List.nil_append, Rereads]
  rw [Registry.builds_leaf (builder?_delay kind), Leaf.read, Leaf.reads_delay]
  simp only [reads_accept_option hafter]
  constructor
  · rintro ⟨_, _, _, raw, again, ⟨rfl, rfl⟩, hfound, hread, hmax, rfl⟩
    obtain ⟨rfl, hrest⟩ := (reads_accept_option (by simpa using hrand)).mp hfound
    obtain ⟨rfl, rfl⟩ := List.cons.inj hrest
    exact ⟨rfl, again, hread, hmax, rfl⟩
  · rintro ⟨rfl, again, hread, hmax, rfl⟩
    exact ⟨body, rand, _, _, again, ⟨rfl, rfl⟩,
      (reads_accept_option (by simpa using hrand)).mpr ⟨rfl, rfl⟩, hread, hmax, rfl⟩

theorem read_text {kind : TextKind} (value : TextValue kind) : TextValue.read kind value.value = .ok value :=
  TextValue.read_of_refusal?_none value.accepted

/-- What the words of a policy without parts are read as, whatever words follow. -/
theorem builds_written (h : policy.Elementary)
    (hopen : policy = .chunked .on → ∀ word ∈ words.head?, word ∉ Framing.options) :
    Registry.standard.Builds (policy.written ++ words) again rest ↔ rest = words ∧ policy.Rereads again := by
  cases policy with
  | marker m =>
    rw [written, List.singleton_append, Registry.builds_leaf (builder?_marker m), Leaf.read, reads_pure]
    exact ⟨fun ⟨hagain, hrest⟩ => ⟨hrest.symm, hagain.symm⟩, fun ⟨hrest, hagain⟩ => ⟨hagain.symm, hrest.symm⟩⟩
  | flag switch f =>
    rw [written, List.singleton_append, Registry.builds_leaf (builder?_flag h), Leaf.read, reads_pure]
    exact ⟨fun ⟨hagain, hrest⟩ => ⟨hrest.symm, hagain.symm⟩, fun ⟨hrest, hagain⟩ => ⟨hagain.symm, hrest.symm⟩⟩
  | text kind value =>
    rw [written, List.cons_append, Registry.builds_leaf (builder?_text kind), Leaf.read, Leaf.reads_text]
    constructor
    · rintro ⟨_, read, heq, hread, rfl⟩
      obtain ⟨rfl, rfl⟩ := List.cons.inj heq
      cases (read_text value).symm.trans hread
      exact ⟨rfl, rfl⟩
    · rintro ⟨rfl, rfl⟩
      exact ⟨_, _, rfl, read_text value, rfl⟩
  | map mapping => exact builds_map h
  | chunked framing => exact builds_chunked h fun hon => hopen (congrArg Policy.chunked hon)
  | speed rate =>
    have hb : Registry.standard.builder? "speed" = some (.leaf .speed) := Registry.builder?_standard_iff.mpr .speed
    rw [written, List.cons_append, Registry.builds_leaf hb, Leaf.read, Leaf.reads_speed]
    constructor
    · rintro ⟨_, again, heq, hread, hmin, rfl⟩
      obtain ⟨rfl, rfl⟩ := List.cons.inj heq
      exact ⟨rfl, again, hread, hmin, rfl⟩
    · rintro ⟨rfl, again, hread, hmin, rfl⟩
      exact ⟨_, again, rfl, hread, hmin, rfl⟩
  | status code =>
    have hb : Registry.standard.builder? "status" = some (.leaf .status) :=
      Registry.builder?_standard_iff.mpr .status
    obtain ⟨hlow, hhigh⟩ := h
    have hcode : Number.readInteger? (toString code).toList = some (code : Int) :=
      Number.readInteger?_nat (by simp only [Number.fitsWord, Bool.and_eq_true, decide_eq_true_eq]; omega)
    rw [written, List.cons_append, Registry.builds_leaf hb, Leaf.read, Leaf.reads_status]
    constructor
    · rintro ⟨_, read, heq, hread, -, -, rfl⟩
      obtain ⟨rfl, rfl⟩ := List.cons.inj heq
      cases hcode.symm.trans hread
      exact ⟨rfl, rfl⟩
    · rintro ⟨rfl, rfl⟩
      exact ⟨_, code, rfl, hcode, by omega, by omega, rfl⟩
  | limit count =>
    have hb : Registry.standard.builder? "n" = some (.leaf .limit) := Registry.builder?_standard_iff.mpr .limit
    have hcount : Number.readInteger? (toString count).toList = some (count : Int) := Number.readInteger?_nat h
    rw [written, List.cons_append, Registry.builds_leaf hb, Leaf.read, Leaf.reads_limit]
    constructor
    · rintro ⟨_, read, heq, hread, -, rfl⟩
      obtain ⟨rfl, rfl⟩ := List.cons.inj heq
      cases hcount.symm.trans hread
      exact ⟨rfl, rfl⟩
    · rintro ⟨rfl, rfl⟩
      exact ⟨_, count, rfl, hcount, by omega, rfl⟩
  | delay d => exact builds_delay
  | _ => cases h

end Policy

/-! ## The commands of the language -/

namespace Registry

/-- A command of the language begins with a keyword behind which a policy without parts is read, or is a url command
or a domain command. -/
theorem builds_standard_cases {words rest : List String} {policy : Policy} (h : standard.Builds words policy rest) :
    (∃ keyword arguments, ∃ leaf : Leaf, words = keyword :: arguments ∧
        (∀ switch f, leaf = .flag switch f → f ∈ switch.flags) ∧ (∀ rate, leaf ≠ .fixedSpeed rate) ∧
        leaf.read.Reads arguments policy rest) ∨
      (∃ arguments, words = "url" :: arguments ∧ WordReader.Reads standard.buildUrl arguments policy rest) ∨
      ∃ arguments, words = "domain" :: arguments ∧
        WordReader.Reads standard.buildDomain arguments policy rest := by
  cases words with
  | nil => exact absurd h not_builds_nil
  | cons keyword arguments =>
    cases hb : standard.builder? keyword with
    | none => exact absurd h (not_builds_of_unknown hb)
    | some builder =>
      cases builder?_standard_iff.mp hb with
      | url => exact .inr (.inl ⟨arguments, rfl, (builds_url hb).mp h⟩)
      | domain => exact .inr (.inr ⟨arguments, rfl, (builds_domain hb).mp h⟩)
      | flag hf =>
        refine .inl ⟨_, arguments, _, rfl, ?_, by simp, (builds_leaf hb).mp h⟩
        rintro _ _ ⟨⟩
        exact hf
      | _ => exact .inl ⟨_, arguments, _, rfl, by simp, by simp, (builds_leaf hb).mp h⟩

/-- A command of the language is a policy without parts, a url command or a domain command. -/
theorem builds_standard {words rest : List String} {policy : Policy} (hplain : ∀ word ∈ words, Plain word)
    (h : standard.Builds words policy rest) :
    policy.Elementary ∨
      (∃ arguments, words = "url" :: arguments ∧ WordReader.Reads standard.buildUrl arguments policy rest) ∨
      ∃ arguments, words = "domain" :: arguments ∧
        WordReader.Reads standard.buildDomain arguments policy rest := by
  refine (builds_standard_cases h).imp_left ?_
  rintro ⟨keyword, arguments, leaf, rfl, hflag, -, hread⟩
  exact Policy.elementary_of_reads hflag (fun word hword => hplain word (List.mem_cons_of_mem _ hword)) hread

end Registry

end TrafficPolicy
