import TrafficPolicy.Proofs.Grammar.Reads

/-!
# What the policies without parts are read from

For each reader of such a policy: the words that it takes, and what it makes of them.
-/

namespace TrafficPolicy

def Framing.options : List String := ["default", "on", "off", "block", "size"]

namespace Leaf

open WordReader

variable {words rest : List String} {policy : Policy}

theorem valueOf_eq_ok_iff {α : Type} {keyword value : String} {result : Except Reason α} {a : α} :
    valueOf keyword value result = .ok a ↔ result = .ok a := by
  cases result with
  | error reason => exact ⟨nofun, nofun⟩
  | ok b => exact ⟨fun h => congrArg _ (Except.ok.inj h), fun h => congrArg _ (Except.ok.inj h)⟩

theorem readWithin_eq_ok_iff {keyword value : String} {notInteger outside : Reason} {within : Int → Bool}
    {n : Nat} : readWithin keyword value notInteger outside within = .ok n ↔
      ∃ i, Number.readInteger? value.toList = some i ∧ within i ∧ n = i.toNat := by
  unfold readWithin readInteger
  cases Number.readInteger? value.toList with
  | none => simp [invalid, bind, Except.bind]
  | some i =>
    simp only [Option.some.injEq, exists_eq_left', bind, Except.bind]
    split
    · rename_i hw
      simp [hw, pure, Except.pure, eq_comm]
    · rename_i hw
      simp [hw, outOfRange]

theorem reads_text {kind : TextKind} :
    (readText kind).Reads words policy rest ↔
      ∃ value text, words = value :: rest ∧ TextValue.read kind value = .ok text ∧
        policy = .text kind text := by
  unfold readText
  simp only [reads_bind, reads_argument, reads_liftM, reads_pure]
  constructor
  · rintro ⟨value, _, rfl, text, _, ⟨htext, rfl⟩, rfl, rfl⟩
    exact ⟨value, text, rfl, htext, rfl⟩
  · rintro ⟨value, text, rfl, htext, rfl⟩
    exact ⟨value, _, rfl, text, _, ⟨htext, rfl⟩, rfl, rfl⟩

theorem reads_map :
    readMap.Reads words policy rest ↔
      (∃ raw mapping, words = "replace" :: raw :: rest ∧ Mapping.readReplace raw = .ok mapping ∧
        policy = .map mapping) ∨
      ∃ target, words = target :: rest ∧ target ≠ "replace" ∧ '"' ∉ target.toList ∧
        policy = .map (.url target) := by
  unfold readMap
  simp only [reads_bind, reads_argument]
  constructor
  · rintro ⟨target, mid, rfl, h⟩
    by_cases hr : target = "replace"
    · simp only [hr, if_true, reads_bind, reads_argument, reads_liftM, reads_pure] at h
      obtain ⟨raw, _, rfl, mapping, _, ⟨hmapping, rfl⟩, rfl, rfl⟩ := h
      exact .inl ⟨raw, mapping, by rw [hr], hmapping, rfl⟩
    · by_cases hq : target.toList.contains '"'
      · simp only [hr, hq, if_true, if_false, invalid, reads_liftM] at h
        cases h.1
      · rw [if_neg hr, if_neg hq, reads_pure] at h
        obtain ⟨rfl, rfl⟩ := h
        exact .inr ⟨target, rfl, hr, by simpa using hq, rfl⟩
  · rintro (⟨raw, mapping, rfl, hmapping, rfl⟩ | ⟨target, rfl, hr, hq, rfl⟩)
    · refine ⟨_, _, rfl, ?_⟩
      simp only [if_true, reads_bind, reads_argument, reads_liftM, reads_pure]
      exact ⟨raw, _, rfl, mapping, _, ⟨hmapping, rfl⟩, rfl, rfl⟩
    · refine ⟨_, _, rfl, ?_⟩
      rw [if_neg hr, if_neg (by simpa using hq), reads_pure]
      exact ⟨rfl, rfl⟩

private theorem reads_ifAccept {α : Type} {expected : String} {taken left : WordReader α} {a : α} :
    (accept expected >>= fun found => if found then taken else left).Reads words a rest ↔
      (∃ mid, words = expected :: mid ∧ taken.Reads mid a rest) ∨
      (words.head? ≠ some expected ∧ left.Reads words a rest) := by
  simp only [reads_bind, reads_accept]
  constructor
  · rintro ⟨found, mid, ⟨rfl, rfl⟩ | ⟨rfl, rfl, hne⟩, h⟩
    · exact .inl ⟨mid, rfl, h⟩
    · exact .inr ⟨hne, h⟩
  · rintro (⟨mid, rfl, h⟩ | ⟨hne, h⟩)
    · exact ⟨true, mid, .inl ⟨rfl, rfl⟩, h⟩
    · exact ⟨false, words, .inr ⟨rfl, rfl, hne⟩, h⟩

private theorem reads_blocks {framing : Framing} :
    readBlocks.Reads words framing rest ↔
      ∃ raw count, words = raw :: rest ∧ Number.readInteger? raw.toList = some count ∧ 0 < count ∧
        framing = .blocks count.toNat := by
  unfold readBlocks
  simp only [reads_bind, reads_argument, reads_liftM, reads_pure, readWithin_eq_ok_iff, decide_eq_true_eq]
  constructor
  · rintro ⟨raw, _, rfl, _, _, ⟨⟨count, hcount, hlow, rfl⟩, rfl⟩, rfl, rfl⟩
    exact ⟨raw, count, rfl, hcount, hlow, rfl⟩
  · rintro ⟨raw, count, rfl, hcount, hlow, rfl⟩
    exact ⟨raw, _, rfl, _, _, ⟨⟨count, hcount, hlow, rfl⟩, rfl⟩, rfl, rfl⟩

private theorem reads_sizes {framing : Framing} :
    readSizes.Reads words framing rest ↔
      ∃ raw sizes, words = raw :: rest ∧ PieceSizes.read raw = .ok sizes ∧ framing = .sizes sizes := by
  unfold readSizes
  simp only [reads_bind, reads_argument, reads_liftM, reads_pure, valueOf_eq_ok_iff]
  constructor
  · rintro ⟨raw, _, rfl, sizes, _, ⟨hsizes, rfl⟩, rfl, rfl⟩
    exact ⟨raw, sizes, rfl, hsizes, rfl⟩
  · rintro ⟨raw, sizes, rfl, hsizes, rfl⟩
    exact ⟨raw, _, rfl, sizes, _, ⟨hsizes, rfl⟩, rfl, rfl⟩

theorem reads_framing {framing : Framing} :
    readFraming.Reads words framing rest ↔
      (words = "default" :: rest ∧ framing = .keep) ∨
      (words = "on" :: rest ∧ framing = .on) ∨
      (words = "off" :: rest ∧ framing = .off) ∨
      (∃ raw count, words = "block" :: raw :: rest ∧ Number.readInteger? raw.toList = some count ∧
        0 < count ∧ framing = .blocks count.toNat) ∨
      (∃ raw sizes, words = "size" :: raw :: rest ∧ PieceSizes.read raw = .ok sizes ∧
        framing = .sizes sizes) ∨
      (words = rest ∧ (∀ word ∈ words.head?, word ∉ Framing.options) ∧ framing = .on) := by
  unfold readFraming
  simp only [reads_ifAccept, reads_pure, reads_blocks, reads_sizes]
  constructor
  · rintro (⟨_, rfl, rfl, rfl⟩ | ⟨hdefault, h⟩)
    · exact .inl ⟨rfl, rfl⟩
    rcases h with ⟨_, rfl, rfl, rfl⟩ | ⟨hon, h⟩
    · exact .inr (.inl ⟨rfl, rfl⟩)
    rcases h with ⟨_, rfl, rfl, rfl⟩ | ⟨hoff, h⟩
    · exact .inr (.inr (.inl ⟨rfl, rfl⟩))
    rcases h with ⟨_, rfl, raw, count, rfl, hcount⟩ | ⟨hblock, h⟩
    · exact .inr (.inr (.inr (.inl ⟨raw, count, rfl, hcount⟩)))
    rcases h with ⟨_, rfl, raw, sizes, rfl, hsizes⟩ | ⟨hsize, rfl, rfl⟩
    · exact .inr (.inr (.inr (.inr (.inl ⟨raw, sizes, rfl, hsizes⟩))))
    refine .inr (.inr (.inr (.inr (.inr ⟨rfl, ?_, rfl⟩))))
    intro word hword hoption
    simp only [Framing.options, List.mem_cons, List.not_mem_nil, or_false] at hoption
    rw [Option.mem_def.mp hword] at hdefault hon hoff hblock hsize
    rcases hoption with rfl | rfl | rfl | rfl | rfl <;> contradiction
  · rintro (⟨rfl, rfl⟩ | ⟨rfl, rfl⟩ | ⟨rfl, rfl⟩ | ⟨raw, count, rfl, hcount⟩ | ⟨raw, sizes, rfl, hsizes⟩ |
      ⟨rfl, hoption, rfl⟩)
    · exact .inl ⟨_, rfl, rfl, rfl⟩
    · exact .inr ⟨by simp, .inl ⟨_, rfl, rfl, rfl⟩⟩
    · exact .inr ⟨by simp, .inr ⟨by simp, .inl ⟨_, rfl, rfl, rfl⟩⟩⟩
    · exact .inr ⟨by simp, .inr ⟨by simp, .inr ⟨by simp, .inl ⟨_, rfl, raw, count, rfl, hcount⟩⟩⟩⟩
    · exact .inr ⟨by simp, .inr ⟨by simp, .inr ⟨by simp, .inr ⟨by simp, .inl ⟨_, rfl, raw, sizes, rfl, hsizes⟩⟩⟩⟩⟩
    · have hne : ∀ option ∈ Framing.options, words.head? ≠ some option :=
        fun option hmem hhead => hoption option hhead hmem
      exact .inr ⟨hne _ (by decide), .inr ⟨hne _ (by decide), .inr ⟨hne _ (by decide), .inr ⟨hne _ (by decide),
        .inr ⟨hne _ (by decide), rfl, rfl⟩⟩⟩⟩⟩

theorem reads_chunked :
    readChunked.Reads words policy rest ↔
      ∃ framing, readFraming.Reads words framing rest ∧ policy = .chunked framing := by
  unfold readChunked
  simp only [reads_bind, reads_pure]
  constructor
  · rintro ⟨framing, _, hframing, rfl, rfl⟩
    exact ⟨framing, hframing, rfl⟩
  · rintro ⟨framing, hframing, rfl⟩
    exact ⟨framing, _, hframing, rfl, rfl⟩

theorem reads_speed :
    readSpeed.Reads words policy rest ↔
      ∃ raw rate, words = raw :: rest ∧ Rate.read raw = .ok rate ∧ ¬rate < minRate ∧
        policy = .speed rate := by
  unfold readSpeed
  simp only [reads_bind, reads_argument, reads_liftM, valueOf_eq_ok_iff]
  constructor
  · rintro ⟨raw, _, rfl, rate, _, ⟨hrate, rfl⟩, h⟩
    by_cases hmin : rate < minRate
    · rw [if_pos hmin, outOfRange, reads_liftM] at h
      cases h.1
    · rw [if_neg hmin, reads_pure] at h
      obtain ⟨rfl, rfl⟩ := h
      exact ⟨raw, rate, rfl, hrate, hmin, rfl⟩
  · rintro ⟨raw, rate, rfl, hrate, hmin, rfl⟩
    refine ⟨raw, _, rfl, rate, _, ⟨hrate, rfl⟩, ?_⟩
    rw [if_neg hmin, reads_pure]
    exact ⟨rfl, rfl⟩

theorem reads_status :
    readStatus.Reads words policy rest ↔
      ∃ raw code, words = raw :: rest ∧ Number.readInteger? raw.toList = some code ∧ 100 ≤ code ∧ code ≤ 999 ∧
        policy = .status code.toNat := by
  unfold readStatus
  simp only [reads_bind, reads_argument, reads_liftM, reads_pure, readWithin_eq_ok_iff, Bool.and_eq_true,
    decide_eq_true_eq]
  constructor
  · rintro ⟨raw, _, rfl, _, _, ⟨⟨code, hcode, ⟨hlow, hhigh⟩, rfl⟩, rfl⟩, rfl, rfl⟩
    exact ⟨raw, code, rfl, hcode, hlow, hhigh, rfl⟩
  · rintro ⟨raw, code, rfl, hcode, hlow, hhigh, rfl⟩
    exact ⟨raw, _, rfl, _, _, ⟨⟨code, hcode, ⟨hlow, hhigh⟩, rfl⟩, rfl⟩, rfl, rfl⟩

theorem reads_limit :
    readLimit.Reads words policy rest ↔
      ∃ raw count, words = raw :: rest ∧ Number.readInteger? raw.toList = some count ∧ 0 ≤ count ∧
        policy = .limit count.toNat := by
  unfold readLimit
  simp only [reads_bind, reads_argument, reads_liftM, reads_pure, readWithin_eq_ok_iff, decide_eq_true_eq]
  constructor
  · rintro ⟨raw, _, rfl, _, _, ⟨⟨count, hcount, hlow, rfl⟩, rfl⟩, rfl, rfl⟩
    exact ⟨raw, count, rfl, hcount, hlow, rfl⟩
  · rintro ⟨raw, count, rfl, hcount, hlow, rfl⟩
    exact ⟨raw, _, rfl, _, _, ⟨⟨count, hcount, hlow, rfl⟩, rfl⟩, rfl, rfl⟩

theorem reads_delay {kind : DelayKind} :
    (readDelay kind).Reads words policy rest ↔
      ∃ body rand afterBody raw seconds,
        (accept "body").Reads words body afterBody ∧ (accept "rand").Reads afterBody rand (raw :: rest) ∧
        Duration.read raw = .ok seconds ∧ ¬seconds > Duration.maxSeconds ∧
        policy = .delay { kind, body, rand, seconds } := by
  unfold readDelay
  simp only [reads_bind, reads_argument, reads_liftM, valueOf_eq_ok_iff]
  constructor
  · rintro ⟨body, afterBody, hbody, rand, _, hrand, raw, _, rfl, seconds, _, ⟨hseconds, rfl⟩, h⟩
    by_cases hmax : seconds > Duration.maxSeconds
    · rw [if_pos hmax, outOfRange, reads_liftM] at h
      cases h.1
    · rw [if_neg hmax, reads_pure] at h
      obtain ⟨rfl, rfl⟩ := h
      exact ⟨body, rand, afterBody, raw, seconds, hbody, hrand, hseconds, hmax, rfl⟩
  · rintro ⟨body, rand, afterBody, raw, seconds, hbody, hrand, hseconds, hmax, rfl⟩
    refine ⟨body, afterBody, hbody, rand, _, hrand, raw, _, rfl, seconds, _, ⟨hseconds, rfl⟩, ?_⟩
    rw [if_neg hmax, reads_pure]
    exact ⟨rfl, rfl⟩

end Leaf

/-! ## Taking policies away -/

open WordReader

variable {words rest : List String} {policy : Policy}

theorem reads_deletion {scope : Scope} :
    (readDeletion scope).Reads words policy rest ↔
      ∃ text, words = text :: rest ∧ policy = .delete ⟨scope, .ofText text⟩ := by
  unfold readDeletion
  simp only [reads_bind, reads_argument, reads_pure]
  constructor
  · rintro ⟨text, _, rfl, rfl, rfl⟩
    exact ⟨text, rfl, rfl⟩
  · rintro ⟨text, rfl, rfl⟩
    exact ⟨text, _, rfl, rfl, rfl⟩

theorem reads_removal :
    readRemoval.Reads words policy rest ↔
      ∃ removal text, words = removal.keyword :: text :: rest ∧ readTargetName text = .ok removal.target ∧
        policy = .remove removal := by
  unfold readRemoval
  simp only [reads_bind, reads_argument]
  constructor
  · rintro ⟨keyword, mid, rfl, h⟩
    split at h
    · cases (reads_ofExcept.mp h).1
    · rename_i slot hslot
      simp only [reads_bind, reads_argument, reads_liftM, reads_pure] at h
      obtain ⟨text, _, rfl, target, _, ⟨htarget, rfl⟩, rfl, rfl⟩ := h
      exact ⟨⟨keyword, slot, target, hslot⟩, text, rfl, htarget, rfl⟩
  · rintro ⟨⟨keyword, slot, target, hslot⟩, text, rfl, htarget, rfl⟩
    refine ⟨keyword, _, rfl, ?_⟩
    split
    · rename_i hnone
      cases hslot.symm.trans hnone
    · rename_i other hother
      cases hslot.symm.trans hother
      simp only [reads_bind, reads_argument, reads_liftM, reads_pure]
      exact ⟨text, _, rfl, target, _, ⟨htarget, rfl⟩, rfl, rfl⟩

end TrafficPolicy
