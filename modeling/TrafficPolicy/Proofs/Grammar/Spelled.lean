import TrafficPolicy.Proofs.Grammar.Written

/-!
# Parts of a url rule as a user may write them

A part begins with a keyword and goes on with the arguments that the keyword takes. `chunked` is written here
with the word that says how it is meant. Whatever words follow a part, it is the part that is read.
-/

namespace TrafficPolicy

open Text WordReader

namespace UrlPart

/-- The words that a user may write for a part. -/
inductive Spelled : List String → UrlPart → Prop where
  | set : Spelled ["set"] (.mode .set)
  | update : Spelled ["update"] (.mode .update)
  | proxy : Spelled ["proxy"] (.occupant .content .proxy)
  | cache : Spelled ["cache"] (.occupant .content .cache)
  | status {raw : String} {code : Int} (hcode : Number.readInteger? raw.toList = some code) (hlow : 100 ≤ code)
      (hhigh : code ≤ 999) : Spelled ["status", raw] (.occupant .content (.status code.toNat))
  | map {target : String} (hreplace : target ≠ "replace") (hquote : '"' ∉ target.toList) :
      Spelled ["map", target] (.occupant .content (.map (.url target)))
  | replace {raw : String} {mapping : Mapping} (hmapping : Mapping.readReplace raw = .ok mapping) :
      Spelled ["map", "replace", raw] (.occupant .content (.map mapping))
  | text {kind : TextKind} {value : String} {text : TextValue kind} (htext : TextValue.read kind value = .ok text) :
      Spelled [kind.keyword, value] (Policy.partOfText kind text)
  | delay {kind : DelayKind} {rand : Bool} {raw : String} {seconds : Float} (hread : Duration.read raw = .ok seconds)
      (hmax : ¬seconds > Duration.maxSeconds) :
      Spelled ([kind.keyword] ++ (if rand then ["rand"] else []) ++ [raw])
        (.occupant .delay { kind, body := false, rand, seconds })
  | bodyDelay {kind : DelayKind} {rand : Bool} {raw : String} {seconds : Float}
      (hread : Duration.read raw = .ok seconds) (hmax : ¬seconds > Duration.maxSeconds) :
      Spelled ([kind.keyword, "body"] ++ (if rand then ["rand"] else []) ++ [raw])
        (.occupant .body { kind, body := true, rand, seconds })
  | dont302 {flag : Flag} (hflag : flag ∈ Switch.dont302.flags) :
      Spelled [flag.keyword] (.occupant (.setting .dont302) flag)
  | disable304 {flag : Flag} (hflag : flag ∈ Switch.disable304.flags) :
      Spelled [flag.keyword] (.occupant (.setting .disable304) flag)
  | chunkedDefault : Spelled ["chunked", "default"] (.occupant (.setting .chunked) .keep)
  | chunkedOn : Spelled ["chunked", "on"] (.occupant (.setting .chunked) .on)
  | chunkedOff : Spelled ["chunked", "off"] (.occupant (.setting .chunked) .off)
  | blocks {raw : String} {count : Int} (hcount : Number.readInteger? raw.toList = some count) (hpos : 0 < count) :
      Spelled ["chunked", "block", raw] (.occupant (.setting .chunked) (.blocks count.toNat))
  | sizes {raw : String} {sizes : List Int} (hsizes : PieceSizes.read raw = .ok sizes) :
      Spelled ["chunked", "size", raw] (.occupant (.setting .chunked) (.sizes sizes))
  | speed {raw : String} {rate : Float} (hrate : Rate.read raw = .ok rate) (hmin : ¬rate < Leaf.minRate) :
      Spelled ["speed", raw] (.occupant (.setting .speed) rate)

/-- Words from which a policy is built that is the part, whatever follows them. -/
def BuiltFrom (words : List String) (part : UrlPart) : Prop :=
  ∃ keyword arguments policy, words = keyword :: arguments ∧ keyword ∈ UrlRule.keywords ∧
    policy.urlPart? = some part ∧ ∀ tail, Registry.standard.Builds (words ++ tail) policy tail

private theorem builtFrom_leaf {keyword : String} {arguments : List String} {leaf : Leaf} {part : UrlPart}
    (policy : Policy) (hkeyword : keyword ∈ UrlRule.keywords)
    (hleaf : Registry.standard.builder? keyword = some (.leaf leaf)) (hpart : policy.urlPart? = some part)
    (hreads : ∀ tail, leaf.read.Reads (arguments ++ tail) policy tail) : BuiltFrom (keyword :: arguments) part := by
  refine ⟨keyword, arguments, policy, rfl, hkeyword, hpart, ?_⟩
  intro tail
  exact (Registry.builds_leaf hleaf).mpr (hreads tail)

/-- The part of a delay is put where the word `body` says. -/
theorem reads_delayWords {kind : DelayKind} (body : Bool) {rand : Bool} {raw : String} {seconds : Float}
    (hread : Duration.read raw = .ok seconds) (hmax : ¬seconds > Duration.maxSeconds) (tail : List String) :
    (Leaf.delay kind).read.Reads
      ((if body then ["body"] else []) ++ (if rand then ["rand"] else []) ++ [raw] ++ tail)
      (.delay { kind, body, rand, seconds }) tail := by
  -- A duration is neither of the words that may stand in front of it.
  have hbody : raw ≠ "body" := by
    rintro rfl
    have hfails : (Duration.read "body").toOption = none := by decide
    rw [hread] at hfails
    cases hfails
  have hrand : raw ≠ "rand" := by
    rintro rfl
    have hfails : (Duration.read "rand").toOption = none := by decide
    rw [hread] at hfails
    cases hfails
  refine Leaf.reads_delay.mpr ⟨body, rand, (if rand then ["rand"] else []) ++ raw :: tail, raw, seconds, ?_, ?_,
    hread, hmax, rfl⟩
  · rw [reads_accept]
    cases body with
    | true => exact .inl ⟨rfl, by simp⟩
    | false =>
      refine .inr ⟨rfl, by simp, ?_⟩
      cases rand with
      | true => simp
      | false => simpa using hbody
  · rw [reads_accept]
    cases rand with
    | true => exact .inl ⟨rfl, rfl⟩
    | false => exact .inr ⟨rfl, rfl, by simpa using hrand⟩

private theorem keyword_mem_text (kind : TextKind) : kind.keyword ∈ UrlRule.keywords := by
  cases kind <;> decide

private theorem keyword_mem_delay (kind : DelayKind) : kind.keyword ∈ UrlRule.keywords := by
  cases kind <;> decide

private theorem keyword_mem_flag {switch : Switch} {flag : Flag} (h : flag ∈ switch.flags) :
    flag.keyword ∈ UrlRule.keywords := by
  have hall : ∀ flag ∈ switch.flags, flag.keyword ∈ UrlRule.keywords := by
    cases switch <;> decide
  exact hall flag h

theorem Spelled.builtFrom {words : List String} {part : UrlPart} (h : Spelled words part) : BuiltFrom words part := by
  have hmarker (m : Marker) {part : UrlPart} (hkeyword : m.keyword ∈ UrlRule.keywords)
      (hpart : (Policy.marker m).urlPart? = some part) : BuiltFrom [m.keyword] part :=
    builtFrom_leaf (.marker m) hkeyword (Policy.builder?_marker m) hpart fun _ => reads_pure.mpr ⟨rfl, rfl⟩
  have hmap : Registry.standard.builder? "map" = some (.leaf .map) := Registry.builder?_standard_iff.mpr .map
  have hchunked : Registry.standard.builder? "chunked" = some (.leaf .chunked) :=
    Registry.builder?_standard_iff.mpr .chunked
  have hframing {arguments : List String} {framing : Framing}
      (hreads : ∀ tail, Leaf.readFraming.Reads (arguments ++ tail) framing tail) :
      BuiltFrom ("chunked" :: arguments) (.occupant (.setting .chunked) framing) :=
    builtFrom_leaf (.chunked framing) (by decide) hchunked rfl fun tail =>
      Leaf.reads_chunked.mpr ⟨framing, hreads tail, rfl⟩
  cases h with
  | set => exact hmarker .set (by decide) rfl
  | update => exact hmarker .update (by decide) rfl
  | proxy => exact hmarker .proxy (by decide) rfl
  | cache => exact hmarker .cache (by decide) rfl
  | status hcode hlow hhigh =>
    have hstatus : Registry.standard.builder? "status" = some (.leaf .status) :=
      Registry.builder?_standard_iff.mpr .status
    apply builtFrom_leaf (.status _) (by decide) hstatus rfl
    exact fun tail => Leaf.reads_status.mpr ⟨_, _, rfl, hcode, hlow, hhigh, rfl⟩
  | map hreplace hquote =>
    apply builtFrom_leaf (.map _) (by decide) hmap rfl
    exact fun tail => Leaf.reads_map.mpr (.inr ⟨_, rfl, hreplace, hquote, rfl⟩)
  | replace hmapping =>
    apply builtFrom_leaf (.map _) (by decide) hmap rfl
    exact fun tail => Leaf.reads_map.mpr (.inl ⟨_, _, rfl, hmapping, rfl⟩)
  | @text kind _ text htext =>
    apply builtFrom_leaf (.text kind text) (keyword_mem_text kind) (Policy.builder?_text kind) rfl
    exact fun tail => Leaf.reads_text.mpr ⟨_, _, rfl, htext, rfl⟩
  | @delay kind rand _ seconds hread hmax =>
    apply builtFrom_leaf (.delay { kind, body := false, rand, seconds }) (keyword_mem_delay kind)
      (Policy.builder?_delay kind) rfl
    exact fun tail => reads_delayWords false hread hmax tail
  | @bodyDelay kind rand _ seconds hread hmax =>
    apply builtFrom_leaf (.delay { kind, body := true, rand, seconds }) (keyword_mem_delay kind)
      (Policy.builder?_delay kind) rfl
    exact fun tail => reads_delayWords true hread hmax tail
  | @dont302 flag hflag =>
    exact builtFrom_leaf (.flag .dont302 flag) (keyword_mem_flag hflag) (Policy.builder?_flag hflag) rfl
      fun _ => reads_pure.mpr ⟨rfl, rfl⟩
  | @disable304 flag hflag =>
    exact builtFrom_leaf (.flag .disable304 flag) (keyword_mem_flag hflag) (Policy.builder?_flag hflag) rfl
      fun _ => reads_pure.mpr ⟨rfl, rfl⟩
  | chunkedDefault => exact hframing fun tail => Leaf.reads_framing.mpr (.inl ⟨rfl, rfl⟩)
  | chunkedOn => exact hframing fun tail => Leaf.reads_framing.mpr (.inr (.inl ⟨rfl, rfl⟩))
  | chunkedOff => exact hframing fun tail => Leaf.reads_framing.mpr (.inr (.inr (.inl ⟨rfl, rfl⟩)))
  | blocks hcount hpos =>
    apply hframing
    exact fun tail => Leaf.reads_framing.mpr (.inr (.inr (.inr (.inl ⟨_, _, rfl, hcount, hpos, rfl⟩))))
  | sizes hsizes =>
    apply hframing
    exact fun tail => Leaf.reads_framing.mpr (.inr (.inr (.inr (.inr (.inl ⟨_, _, rfl, hsizes, rfl⟩)))))
  | speed hrate hmin =>
    have hspeed : Registry.standard.builder? "speed" = some (.leaf .speed) :=
      Registry.builder?_standard_iff.mpr .speed
    apply builtFrom_leaf (.speed _) (by decide) hspeed rfl
    exact fun tail => Leaf.reads_speed.mpr ⟨_, _, rfl, hrate, hmin, rfl⟩

end UrlPart

end TrafficPolicy
