import TrafficPolicy.Proofs.Grammar.DomainRule
import TrafficPolicy.Proofs.Grammar.Spelled
import TrafficPolicy.Proofs.Grammar.UrlRule
import TrafficPolicy.Proofs.Quantity.Magnitudes
import TrafficPolicy.Proofs.Quantity.Rereading

/-!
# Commands that give a duration or a rate

A policy of the delay family or a limit to the rate is read again from its command and has the same command then,
unless the amount that is written is that of the next unit, or the rate is infinite.
-/

namespace TrafficPolicy

open Text WordReader

variable {policy again : Policy} {words rest : List String} {command : String}

/-! ## Quantities that commands give -/

/-- The quantity of a policy has been read and is within its bounds. -/
def Policy.Given : Policy → Prop
  | .speed rate => ∃ raw, Rate.read raw = .ok rate ∧ ¬rate < Leaf.minRate
  | .delay d => ∃ raw, Duration.read raw = .ok d.seconds ∧ ¬d.seconds > Duration.maxSeconds
  | _ => True

theorem Leaf.given_of_reads {leaf : Leaf} (hleaf : ∀ rate, leaf ≠ .fixedSpeed rate)
    (h : leaf.read.Reads words policy rest) : policy.Given := by
  cases leaf with
  | speed =>
    obtain ⟨raw, rate, -, hread, hmin, rfl⟩ := reads_speed.mp h
    exact ⟨raw, hread, hmin⟩
  | delay kind =>
    obtain ⟨body, rand, -, raw, seconds, -, -, hread, hmax, rfl⟩ := reads_delay.mp h
    exact ⟨raw, hread, hmax⟩
  | fixedSpeed rate => exact absurd rfl (hleaf rate)
  | marker m =>
    obtain ⟨rfl, -⟩ := reads_pure.mp h
    trivial
  | flag switch f =>
    obtain ⟨rfl, -⟩ := reads_pure.mp h
    trivial
  | text kind =>
    obtain ⟨_, _, -, -, rfl⟩ := reads_text.mp h
    trivial
  | map => rcases reads_map.mp h with ⟨_, _, -, -, rfl⟩ | ⟨_, -, -, -, rfl⟩ <;> trivial
  | chunked =>
    obtain ⟨_, -, rfl⟩ := reads_chunked.mp h
    trivial
  | status =>
    obtain ⟨_, _, -, -, -, -, rfl⟩ := reads_status.mp h
    trivial
  | limit =>
    obtain ⟨_, _, -, -, -, rfl⟩ := reads_limit.mp h
    trivial

/-- No command gives a quantity that has not been read. -/
theorem Registry.given_of_read (h : Registry.standard.read command = .ok policy) : policy.Given := by
  have hplain : ∀ word ∈ Text.words command, Plain word := fun _ => plain_of_mem_words
  rcases builds_standard_cases (read_eq_ok_iff.mp h) with
    ⟨_, _, leaf, -, -, hleaf, hread⟩ | ⟨arguments, hwords, hurl⟩ | ⟨arguments, hwords, hdomain⟩
  · exact Leaf.given_of_reads hleaf hread
  · have hargs : ∀ word ∈ arguments, Plain word := fun word hword =>
      hplain word (hwords ▸ List.mem_cons_of_mem _ hword)
    rcases UrlRule.cases_of_reads_buildUrl hargs hurl with ⟨_, rfl⟩ | ⟨_, rfl⟩ | ⟨_, rfl, -⟩ <;> trivial
  · have hargs : ∀ word ∈ arguments, Plain word := fun word hword =>
      hplain word (hwords ▸ List.mem_cons_of_mem _ hword)
    rcases DomainRule.cases_of_reads_buildDomain hargs hdomain with ⟨_, rfl⟩ | ⟨_, rfl, -⟩ <;> trivial

/-- The rate of a command of the language can be used. -/
theorem Registry.atLeast_of_read {rate : Float} (h : Registry.standard.read command = .ok (.speed rate)) :
    Number.AtLeast 0 (Number.partsOf rate) := by
  obtain ⟨raw, hread, hmin⟩ := given_of_read h
  exact Rate.atLeast_of_read hread hmin

theorem Registry.read_speed {command : String} (raw : String) {rate : Float}
    (hwords : Text.words command = ["speed", raw]) (hread : Rate.read raw = .ok rate) (hmin : ¬rate < Leaf.minRate) :
    Registry.standard.read command = .ok (.speed rate) := by
  have hb : Registry.standard.builder? "speed" = some (.leaf .speed) := Registry.builder?_standard_iff.mpr .speed
  rw [Registry.read_eq_ok_iff, hwords, Registry.builds_leaf hb]
  exact Leaf.reads_speed.mpr ⟨raw, rate, rfl, hread, hmin, rfl⟩

theorem Registry.read_delay (kind : DelayKind) (raw : String) {seconds : Float}
    (hwords : Text.words command = [kind.keyword, raw]) (hread : Duration.read raw = .ok seconds)
    (hmax : ¬seconds > Duration.maxSeconds) :
    Registry.standard.read command = .ok (.delay { kind, seconds }) := by
  rw [Registry.read_eq_ok_iff, hwords, Registry.builds_leaf (Policy.builder?_delay kind)]
  exact @UrlPart.reads_delayWords kind false false raw seconds hread hmax []

/-! ## Quantities that are read again -/

theorem not_neg_of_readAmount {literal : List Char} {amount : Float} (h : readAmount literal = .ok amount) :
    ¬amount < 0.0 := by
  unfold readAmount at h
  split at h
  · cases h
    decide
  · split at h
    · cases h
    · dsimp only at h
      split at h
      · cases h
      · split at h
        · cases h
        · rename_i hneg
          cases h
          exact hneg

namespace Duration

theorem exists_holds_unitOf (literal : List Char) :
    ∃ f : ℚ, Number.Holds (unitOf literal).2 f ∧ f < Number.tooLarge := by
  have hlarge : ∀ {f : ℚ}, f ≤ (3600 : ℕ) → f < Number.tooLarge := fun hf =>
    hf.trans_lt (Number.natCast_lt_tooLarge (by norm_num))
  have hthousandth : Number.rounded (1 / 1000) ≤ (1 : ℕ) :=
    (Number.representable_natCast (by norm_num)).rounded_le (by norm_num) (by norm_num)
  unfold unitOf
  split
  · exact ⟨_, holds_thousandth, hlarge (hthousandth.trans (by norm_num))⟩
  · split
    · exact ⟨_, holds_hour, hlarge (by norm_num)⟩
    · split
      · exact ⟨_, holds_minute, hlarge (by norm_num)⟩
      · split <;> exact ⟨_, Number.holds_one, hlarge (by norm_num)⟩

/-- A duration that is read holds a number of seconds. -/
theorem exists_holds_of_read {raw : String} {seconds : Float} (h : read raw = .ok seconds) :
    ∃ x, Number.Holds seconds x := by
  unfold read at h
  dsimp only at h
  split at h
  · cases h
  · cases hamount : readAmount (unitOf (Text.lower (Text.trim raw.toList))).1 with
    | error reason =>
      rw [hamount] at h
      cases h
    | ok amount =>
      rw [hamount] at h
      cases h
      obtain ⟨y, hy, hfinite⟩ := Number.exists_holds (Rate.isFinite_of_readAmount hamount)
        (not_neg_of_readAmount hamount)
      obtain ⟨f, hf, hlarge⟩ := exists_holds_unitOf (Text.lower (Text.trim raw.toList))
      exact ⟨_, hy.mul hf (.inl hfinite) hlarge⟩

theorem settled_iff {raw : String} {seconds : Float} (h : read raw = .ok seconds)
    (hmax : ¬seconds > maxSeconds) : Settled seconds ↔ text seconds ∉ carried := by
  have hunsettled : ∀ written ∈ carried, ∀ again ∈ (read written).toOption, text again ≠ written := by
    decide
  constructor
  · rintro ⟨again, hread, -, htext⟩ hmem
    exact hunsettled _ hmem again (by rw [hread]; rfl) htext
  · intro hcarried
    obtain ⟨x, hx⟩ := exists_holds_of_read h
    have hbound : Number.Holds maxSeconds 31622400 := by
      exact_mod_cast Number.holds_shifted (n := 31622400) (k := 28) (h := by decide) rfl
    have hle : x ≤ 31622400 := not_lt.mp fun hlt => hmax ((hbound.lt_iff hx).mpr hlt)
    obtain ⟨again, y, hread, hy, hmost, htext⟩ := exists_again hx hle hcarried
    exact ⟨again, hread, fun hlt => absurd ((hbound.lt_iff hy).mp hlt) (not_lt.mpr hmost), htext⟩

end Duration

theorem Rate.settled_iff {raw : String} {rate : Float} (h : read raw = .ok rate) (hmin : ¬rate < Leaf.minRate) :
    Settled rate ↔ text rate ∉ carried := by
  have hunsettled : ∀ written ∈ carried, ∀ again ∈ (read written).toOption, text again ≠ written := by
    decide
  have hone : Number.Holds Leaf.minRate 1 := Number.holds_one
  constructor
  · rintro ⟨again, hread, -, htext⟩ hmem
    exact hunsettled _ hmem again (by rw [hread]; rfl) htext
  · intro hcarried
    have hx : Number.Holds rate _ := ⟨(atLeast_of_read h hmin).nonneg, rfl⟩
    have hle : 1 ≤ Number.value (Number.partsOf rate) := not_lt.mp fun hlt => hmin ((hx.lt_iff hone).mpr hlt)
    obtain ⟨again, y, hread, hy, hleast, htext⟩ := exists_again hx hle hcarried
    exact ⟨again, hread, fun hlt => absurd ((hy.lt_iff hone).mp hlt) (not_lt.mpr hleast), htext⟩

/-! ## Commands that are read again -/

/-- A duration or a rate is written as an amount of one unit that is the next unit, or as no number. -/
def Policy.Carried : Policy → Prop
  | .speed rate => Rate.text rate ∈ Rate.carried
  | .delay d => Duration.text d.seconds ∈ Duration.carried
  | _ => False

namespace Policy

/-- A policy of one line is read again as what its words say. -/
theorem Elementary.read_command_iff (h : policy.Elementary) (hopen : policy ≠ .chunked .on) :
    Registry.standard.read policy.command = .ok again ↔ policy.Rereads again := by
  rw [Registry.read_eq_ok_iff, command_eq_line h, words_line (plain_written h)]
  have hbuilds : Registry.standard.Builds (policy.written ++ []) again [] ↔ [] = [] ∧ policy.Rereads again :=
    builds_written h fun heq => absurd heq hopen
  rw [List.append_nil] at hbuilds
  simp [hbuilds]

theorem Elementary.command_eq_iff (h : policy.Elementary) (hagain : again.Elementary) :
    again.command = policy.command ↔ again.written = policy.written := by
  rw [command_eq_line h, command_eq_line hagain]
  exact ⟨line_injective (plain_written hagain) (plain_written h), congrArg line⟩

/-- A command that gives a duration or a rate is read as the same command again exactly if nothing is carried. -/
theorem reread_iff_not_carried (h : Registry.standard.read command = .ok policy)
    (hquantity : (∃ d, policy = .delay d) ∨ ∃ rate, policy = .speed rate) :
    (∃ again, Registry.standard.read policy.command = .ok again ∧ again.command = policy.command) ↔
      ¬policy.Carried := by
  have hgiven := Registry.given_of_read h
  rcases hquantity with ⟨d, rfl⟩ | ⟨rate, rfl⟩
  · obtain ⟨raw, hread, hmax⟩ := hgiven
    rw [Carried, ← Duration.settled_iff hread hmax, ← settled_delay_iff]
    have hdelay : (Policy.delay d).Elementary := trivial
    refine exists_congr fun again => ?_
    rw [hdelay.read_command_iff (by simp)]
    refine and_congr_right ?_
    rintro ⟨_, -, -, rfl⟩
    exact hdelay.command_eq_iff trivial
  · obtain ⟨raw, hread, hmin⟩ := hgiven
    rw [Carried, ← Rate.settled_iff hread hmin, ← settled_speed_iff]
    have hspeed : (Policy.speed rate).Elementary := trivial
    refine exists_congr fun again => ?_
    rw [hspeed.read_command_iff (by simp)]
    refine and_congr_right ?_
    rintro ⟨_, -, -, rfl⟩
    exact hspeed.command_eq_iff trivial

/-- Some kilobytes in a second are read again as they are written. -/
theorem reread_kilobytes :
    ∃ again, Registry.standard.read "speed 1.5KB/s" = .ok again ∧ again.command = "speed 1.5KB/s" := by
  have hread : Registry.standard.read "speed 1.5k" = .ok (.speed (1.5 * 1024.0)) :=
    Registry.read_speed "1.5k" (by decide +kernel) (by decide +kernel) (by decide +kernel)
  have htext : Rate.text (1.5 * 1024.0) = "1.5KB/s" := by decide +kernel
  have hcommand : (Policy.speed (1.5 * 1024.0)).command = "speed 1.5KB/s" := by
    rw [command, Slot.speedCommand, htext]
    rfl
  have hcarried : ¬Carried (.speed (1.5 * 1024.0)) := by
    rw [Carried, htext]
    decide
  rw [← hcommand]
  exact (reread_iff_not_carried hread (.inr ⟨_, rfl⟩)).mpr hcarried

/-- A bit less than an hour is written as sixty minutes, which are an hour when they are read. -/
theorem not_reread_hour :
    ¬∀ (command : String) (policy : Policy), Registry.standard.read command = .ok policy →
      (∃ d, policy = .delay d) ∨ (∃ rate, policy = .speed rate) →
      ∃ again, Registry.standard.read policy.command = .ok again ∧ again.command = policy.command := by
  intro h
  let d : DelayPolicy := { kind := .delay, seconds := 3599.9999999 * 1.0 }
  have hread : Registry.standard.read "delay 3599.9999999s" = .ok (.delay d) :=
    Registry.read_delay .delay "3599.9999999s" (by decide +kernel) (by decide +kernel) (by decide +kernel)
  obtain ⟨again, hagain, hcommand⟩ := h _ _ hread (.inl ⟨_, rfl⟩)
  have helementary : (Policy.delay d).Elementary := trivial
  obtain ⟨seconds, hseconds, -, rfl⟩ := (helementary.read_command_iff (by simp)).mp hagain
  have hhour : Duration.read (Duration.text (3599.9999999 * 1.0)) = .ok (60.0 * 60.0) := by decide +kernel
  cases hhour.symm.trans hseconds
  exact absurd hcommand (by decide +kernel)

end Policy

end TrafficPolicy
