import TrafficPolicy.Proofs.Number.Millionths
import TrafficPolicy.Proofs.Quantity.Written

/-!
# Quantities that are read as they were written

A duration or a rate is written in the largest unit that gives at least one. If the amount is rounded up to the next
unit, it is read in this unit; otherwise what is read is written in the same way again.
-/

namespace TrafficPolicy

open Number

namespace Text

theorem stripEnd?_append (cs tail : List Char) : stripEnd? tail (cs ++ tail) = some cs := by
  simp [stripEnd?]

theorem stripEnd?_of_not_suffix {tail cs : List Char} (h : ¬tail <:+ cs) : stripEnd? tail cs = none := by
  rw [stripEnd?, if_neg]
  simpa using h

end Text

/-- A figure with a unit behind it is not changed before it is read. -/
theorem lower_trim_append {n : ℕ} {name : String} (hname : Text.Bare name) :
    Text.lower (Text.trim (String.ofList (millionthsText n) ++ name).toList) =
      millionthsText n ++ name.toList.map Char.toLower := by
  have hdot : Text.isBlank '.' = false ∧ Char.toLower '.' = '.' := by decide
  have htrim : Text.trim (millionthsText n ++ name.toList) = millionthsText n ++ name.toList := by
    refine Text.trim_eq_self fun c hc => ?_
    rcases List.mem_append.mp hc with hc | hc
    · rcases mem_millionthsText hc with hc | rfl
      · exact isBlank_of_isDigit hc
      · exact hdot.1
    · exact (hname.unbroken c hc).1
  have hlower : (millionthsText n).map Char.toLower = millionthsText n := by
    refine (List.map_congr_left fun c hc => ?_).trans (List.map_id _)
    rcases mem_millionthsText hc with hc | rfl
    · exact toLower_of_isDigit hc
    · exact hdot.2
  rw [String.toList_append, String.toList_ofList, htrim, Text.lower, List.map_append, hlower]

namespace Duration

variable {a : Float} {x : ℚ} {n : ℕ}

/-- A unit that durations are written in: its name, its length in seconds, the float that stands for the length when
an amount of it is read, and a number of it that no duration exceeds that is written in it. -/
structure Unit where
  name : String
  size : ℚ
  factor : Float
  limit : ℕ

def hours : Unit := ⟨"h", 3600, 3600.0, 8784⟩
def minutes : Unit := ⟨"m", 60, 60.0, 60⟩
def seconds : Unit := ⟨"s", 1, 1.0, 60⟩
def milliseconds : Unit := ⟨"ms", 1 / 1000, 0.001, 1000⟩

def unitAt (x : ℚ) : Unit :=
  if 3600 ≤ x then hours else if 60 ≤ x then minutes else if 1 ≤ x then seconds else milliseconds

theorem unitAt_cases (x : ℚ) :
    (3600 ≤ x ∧ unitAt x = hours) ∨ (60 ≤ x ∧ x < 3600 ∧ unitAt x = minutes) ∨
      (1 ≤ x ∧ x < 60 ∧ unitAt x = seconds) ∨ (x < 1 ∧ unitAt x = milliseconds) := by
  unfold unitAt
  split_ifs with h1 h2 h3
  · exact .inl ⟨h1, rfl⟩
  · exact .inr (.inl ⟨h2, not_le.mp h1, rfl⟩)
  · exact .inr (.inr (.inl ⟨h3, not_le.mp h2, rfl⟩))
  · exact .inr (.inr (.inr ⟨not_le.mp h3, rfl⟩))

theorem unitAt_hours (h : 3600 ≤ x) : unitAt x = hours := if_pos h

theorem unitAt_minutes (hlow : 60 ≤ x) (hhigh : x < 3600) : unitAt x = minutes := by
  rw [unitAt, if_neg (not_le.mpr hhigh), if_pos hlow]

theorem unitAt_seconds (hlow : 1 ≤ x) (hhigh : x < 60) : unitAt x = seconds := by
  rw [unitAt, if_neg (by linarith), if_neg (not_le.mpr hhigh), if_pos hlow]

theorem unitAt_milliseconds (h : x < 1) : unitAt x = milliseconds := by
  rw [unitAt, if_neg (by linarith), if_neg (by linarith), if_neg (not_le.mpr h)]

theorem holds_hour : Holds 3600.0 3600 := by
  exact_mod_cast holds_shifted (n := 3600) (k := 41) (h := by decide) rfl

theorem holds_minute : Holds 60.0 60 := by
  exact_mod_cast holds_shifted (n := 60) (k := 47) (h := by decide) rfl

theorem holds_thousand : Holds 1000.0 1000 := by
  exact_mod_cast holds_shifted (n := 1000) (k := 43) (h := by decide) rfl

theorem holds_thousandth : Holds 0.001 (rounded (1 / 1000)) := by
  have h : Holds (Float.ofScientific 1 true 3) (rounded ((1 : ℕ) / (10 ^ 3 : ℕ))) :=
    holds_ofScientific 1 (by decide) (by decide)
  exact_mod_cast h

theorem holds_factor (x : ℚ) : Holds (unitAt x).factor (rounded (unitAt x).size) := by
  unfold unitAt
  split_ifs
  · exact holds_hour.rounded_eq.symm ▸ holds_hour
  · exact holds_minute.rounded_eq.symm ▸ holds_minute
  · exact holds_one.rounded_eq.symm ▸ holds_one
  · exact holds_thousandth

theorem size_range (x : ℚ) : 1 / 1000 ≤ (unitAt x).size ∧ (unitAt x).size ≤ 3600 ∧ (unitAt x).limit ≤ 10 ^ 4 := by
  rcases unitAt_cases x with ⟨-, hu⟩ | ⟨-, -, hu⟩ | ⟨-, -, hu⟩ | ⟨-, hu⟩ <;> rw [hu] <;>
    norm_num [hours, minutes, seconds, milliseconds]

theorem le_limit (hmax : x ≤ 31622400) : x ≤ (unitAt x).limit * (unitAt x).size := by
  rcases unitAt_cases x with ⟨-, hu⟩ | ⟨-, h, hu⟩ | ⟨-, h, hu⟩ | ⟨h, hu⟩ <;> rw [hu] <;>
    norm_num [hours, minutes, seconds, milliseconds] <;> linarith

theorem rounded_size_le (x : ℚ) : rounded (unitAt x).size ≤ (3600 : ℕ) := by
  obtain ⟨hlow, hhigh, -⟩ := size_range x
  exact (representable_natCast (by norm_num)).rounded_le (by linarith) (by exact_mod_cast hhigh)

def amountOf (x : ℚ) : ℚ := rounded (x / (unitAt x).size)

theorem amountOf_le (hpos : 0 < x) (hmax : x ≤ 31622400) : amountOf x ≤ (unitAt x).limit := by
  obtain ⟨hlow, -, hlimit⟩ := size_range x
  have hsize : 0 < (unitAt x).size := by linarith
  refine (representable_natCast (hlimit.trans (by norm_num))).rounded_le (by positivity) ?_
  rw [div_le_iff₀ hsize]
  exact le_limit hmax

theorem one_le_amountOf (hone : 1 ≤ x) : 1 ≤ amountOf x := by
  have hsize : (unitAt x).size ≤ x ∧ 0 < (unitAt x).size := by
    rcases unitAt_cases x with ⟨h, hu⟩ | ⟨h, -, hu⟩ | ⟨h, -, hu⟩ | ⟨h, -⟩
    · rw [hu]
      exact ⟨h, by norm_num [hours]⟩
    · rw [hu]
      exact ⟨h, by norm_num [minutes]⟩
    · rw [hu]
      exact ⟨h, by norm_num [seconds]⟩
    · exact absurd hone (not_le.mpr h)
  refine Representable.le_rounded ?_ ?_ ?_
  · exact_mod_cast representable_natCast (n := 1) (by norm_num)
  · rw [one_le_div hsize.2]
    exact hsize.1
  · exact_mod_cast (natCast_lt_tooLarge (n := 1) (by norm_num)).le

theorem amountOf_pos (h : Holds a x) (hpos : 0 < x) : 0 < amountOf x := by
  rcases le_or_gt 1 x with hone | hless
  · exact one_pos.trans_le (one_le_amountOf hone)
  · refine hpos.trans_le (h.representable.le_rounded ?_ h.le_tooLarge)
    rw [unitAt_milliseconds hless, milliseconds, le_div_iff₀ (by norm_num)]
    linarith

/-! ## What is written -/

theorem exists_figure (h : Holds a x) (hmax : x ≤ 31622400) :
    ∃ figure, text a = fixedText figure ++ (unitAt x).name ∧ Holds figure (amountOf x) := by
  have hfinite : x < tooLarge := hmax.trans_lt (by exact_mod_cast natCast_lt_tooLarge (n := 31622400) (by decide))
  have hlarge : ∀ {n : ℕ}, n ≤ 3600 → (n : ℚ) < tooLarge := fun hn => natCast_lt_tooLarge (hn.trans (by norm_num))
  have hhour := holds_hour.le_iff h
  have hminute := holds_minute.le_iff h
  have hsecond := holds_one.le_iff h
  unfold amountOf unitAt hours minutes seconds milliseconds
  split_ifs with h1 h2 h3 <;> simp only [text, units, List.find?_cons, *, decide_true,
    decide_false]
  · exact ⟨_, rfl, h.div holds_hour hfinite (by norm_num) (by exact_mod_cast hlarge (n := 3600) (by norm_num))⟩
  · exact ⟨_, rfl, h.div holds_minute hfinite (by norm_num) (by exact_mod_cast hlarge (n := 60) (by norm_num))⟩
  · exact ⟨_, rfl, h.div holds_one hfinite (by norm_num) (by exact_mod_cast hlarge (n := 1) (by norm_num))⟩
  · rw [div_div_eq_mul_div, div_one]
    exact ⟨_, rfl, h.mul holds_thousand (.inl hfinite) (by exact_mod_cast hlarge (n := 1000) (by norm_num))⟩

/-- A positive duration is written as millionths of a unit. -/
theorem text_eq (h : Holds a x) (hpos : 0 < x) (hmax : x ≤ 31622400) :
    text a = String.ofList (millionthsText (millionths (amountOf x))) ++ (unitAt x).name := by
  obtain ⟨figure, htext, hfigure⟩ := exists_figure h hmax
  obtain ⟨-, -, hlimit⟩ := size_range x
  have hfinite := (amountOf_le hpos hmax).trans_lt (natCast_lt_tooLarge (hlimit.trans (by norm_num)))
  rw [htext, fixedText_of_holds hfigure (amountOf_pos h hpos) hfinite]

/-! ## What is read -/

theorem unitOf_hours (literal : List Char) : unitOf (literal ++ ['h']) = (literal, 3600.0) := by
  have hms : ¬['m', 's'] <:+ literal ++ ['h'] := by
    rintro ⟨cs, heq⟩
    simpa using congrArg List.getLast? heq
  rw [unitOf, Text.stripEnd?_of_not_suffix hms, Text.stripEnd?_append]

theorem unitOf_minutes (literal : List Char) : unitOf (literal ++ ['m']) = (literal, 60.0) := by
  have hms : ¬['m', 's'] <:+ literal ++ ['m'] := by
    rintro ⟨cs, heq⟩
    simpa using congrArg List.getLast? heq
  have hh : ¬['h'] <:+ literal ++ ['m'] := by
    rintro ⟨cs, heq⟩
    simpa using congrArg List.getLast? heq
  rw [unitOf, Text.stripEnd?_of_not_suffix hms, Text.stripEnd?_of_not_suffix hh, Text.stripEnd?_append]

theorem unitOf_milliseconds (literal : List Char) : unitOf (literal ++ ['m', 's']) = (literal, 0.001) := by
  rw [unitOf, Text.stripEnd?_append]

theorem unitOf_seconds {literal : List Char} (h : 'm' ∉ literal) : unitOf (literal ++ ['s']) = (literal, 1.0) := by
  have hms : ¬['m', 's'] <:+ literal ++ ['s'] := by
    rintro ⟨cs, heq⟩
    have hcs : cs ++ ['m'] ++ ['s'] = literal ++ ['s'] := by simpa using heq
    rw [← List.append_cancel_right hcs] at h
    simp at h
  have hh : ∀ name ∈ ['h', 'm'], ¬[name] <:+ literal ++ ['s'] := by
    rintro name hname ⟨cs, heq⟩
    have hlast : name = 's' := by simpa using congrArg List.getLast? heq
    subst hlast
    simp at hname
  rw [unitOf, Text.stripEnd?_of_not_suffix hms, Text.stripEnd?_of_not_suffix (hh 'h' (by simp)),
    Text.stripEnd?_of_not_suffix (hh 'm' (by simp)), Text.stripEnd?_append]

private theorem read_unit {name : String} {factor : Float} (hname : Text.Bare name)
    (hunit : unitOf (millionthsText n ++ name.toList.map Char.toLower) = (millionthsText n, factor)) :
    read (String.ofList (millionthsText n) ++ name) = (readAmount (millionthsText n)).map (· * factor) := by
  have hempty : (millionthsText n ++ name.toList.map Char.toLower).isEmpty = false := by simp [millionthsText]
  unfold read
  simp only [lower_trim_append hname, hempty, hunit]
  rfl

/-- What is written in a unit is read in this unit. -/
theorem read_append (x : ℚ) (n : ℕ) : read (String.ofList (millionthsText n) ++ (unitAt x).name) =
    (readAmount (millionthsText n)).map (· * (unitAt x).factor) := by
  have hm : 'm' ∉ millionthsText n := by
    intro hmem
    rcases mem_millionthsText hmem with hdigit | hdot
    · exact absurd hdigit (by decide)
    · exact absurd hdot (by decide)
  unfold unitAt
  split_ifs
  · exact read_unit (by decide) (unitOf_hours _)
  · exact read_unit (by decide) (unitOf_minutes _)
  · exact read_unit (by decide) (unitOf_seconds hm)
  · exact read_unit (by decide) (unitOf_milliseconds _)

/-- What is written as millionths of a unit is read as their product with the unit. -/
theorem exists_read (h : n ≤ (unitAt x).limit * 10 ^ 6) :
    ∃ again, read (String.ofList (millionthsText n) ++ (unitAt x).name) = .ok again ∧
      Holds again (readAs n (unitAt x).size) := by
  obtain ⟨-, hsize, hlimit⟩ := size_range x
  have hmost : (n : ℚ) / (10 ^ 6 : ℕ) ≤ (unitAt x).limit := by
    rw [div_le_iff₀ (by norm_num)]
    exact_mod_cast h
  have hlimits := hlimit.trans (by norm_num : 10 ^ 4 ≤ 2 ^ 53)
  have hamount : rounded (n / (10 ^ 6 : ℕ)) < tooLarge :=
    ((representable_natCast hlimits).rounded_le (by positivity) hmost).trans_lt (natCast_lt_tooLarge hlimits)
  obtain ⟨amount, hread, hholds⟩ := readAmount_millionthsText n hamount
  refine ⟨amount * (unitAt x).factor, ?_, hholds.mul (holds_factor x) (.inl hamount) ?_⟩
  · rw [read_append, hread]
    rfl
  · exact (rounded_size_le x).trans_lt (natCast_lt_tooLarge (n := 3600) (by norm_num))

/-! ## What is written again -/

/-- The texts whose amount is that of the next unit. -/
def carried : List String := ["1000ms", "60s", "60m"]

/-- What is read is written in the same unit, unless the amount is that of the next unit. -/
theorem unitAt_readAs (hpos : 0 < x) (hmax : x ≤ 31622400) (hn : 0 < millionths (amountOf x))
    (h : String.ofList (millionthsText (millionths (amountOf x))) ++ (unitAt x).name ∉ carried) :
    unitAt (readAs (millionths (amountOf x)) (unitAt x).size) = unitAt x := by
  obtain ⟨hlow, hhigh, hlimit⟩ := size_range x
  have hle := millionths_le_natCast (amountOf_le hpos hmax)
  have hlarge : millionths (amountOf x) ≤ 10 ^ 10 := hle.trans (by nlinarith)
  have hless := readAs_lt hlow hhigh hn hlarge hlimit
  generalize hsame : millionths (amountOf x) = n at *
  have hmillion : 1 ≤ x → 10 ^ 6 ≤ n := by
    intro h1
    have hone := natCast_le_millionths (n := 1) (by exact_mod_cast one_le_amountOf h1)
    rwa [hsame, Nat.one_mul] at hone
  have hlt : ∀ text ∈ carried, String.ofList (millionthsText ((unitAt x).limit * 10 ^ 6)) ++ (unitAt x).name = text →
      n < (unitAt x).limit * 10 ^ 6 := by
    intro text hmem htext
    refine lt_of_le_of_ne hle ?_
    rintro rfl
    exact h (htext ▸ hmem)
  rcases unitAt_cases x with ⟨h1, hu⟩ | ⟨h1, -, hu⟩ | ⟨h1, -, hu⟩ | ⟨-, hu⟩ <;> rw [hu] at hless hlt ⊢
  · have hleast := le_readAs (show 3600 ≤ 2 ^ 53 by norm_num) (hmillion (by linarith))
    exact unitAt_hours (by exact_mod_cast hleast)
  · have hleast := le_readAs (show 60 ≤ 2 ^ 53 by norm_num) (hmillion (by linarith))
    refine unitAt_minutes (by exact_mod_cast hleast) ((hless (hlt "60m" (by decide) rfl)).trans_eq ?_)
    norm_num [minutes]
  · have hleast := le_readAs (show 1 ≤ 2 ^ 53 by norm_num) (hmillion h1)
    refine unitAt_seconds (by exact_mod_cast hleast) ((hless (hlt "60s" (by decide) rfl)).trans_eq ?_)
    norm_num [seconds]
  · refine unitAt_milliseconds ((hless (hlt "1000ms" (by decide) rfl)).trans_eq ?_)
    norm_num [milliseconds]

/-- A duration that is read in the unit of another one is no longer than all of them. -/
theorem readAs_le_max (hpos : 0 < x) (hmax : x ≤ 31622400)
    (hsame : unitAt (readAs (millionths (amountOf x)) (unitAt x).size) = unitAt x) :
    readAs (millionths (amountOf x)) (unitAt x).size ≤ 31622400 := by
  rcases le_or_gt 3600 x with hx | hx
  · have hamount := amountOf_le hpos hmax
    rw [unitAt_hours hx] at hamount ⊢
    exact_mod_cast readAs_le (show 3600 ≤ 2 ^ 53 by norm_num) (show 8784 ≤ 2 ^ 53 by norm_num) (by norm_num)
      (millionths_le_natCast hamount)
  · by_contra hlarge
    rw [unitAt_hours (by linarith)] at hsame
    have hname := congrArg Unit.name hsame
    rcases unitAt_cases x with ⟨h, -⟩ | ⟨-, -, hu⟩ | ⟨-, -, hu⟩ | ⟨-, hu⟩
    · exact absurd h (not_le.mpr hx)
    all_goals
      rw [hu] at hname
      exact absurd hname (by decide)

/-- The two zeros are written as they are read. -/
theorem exists_zero : ∀ written ∈ ["0ms", "-0ms"],
    ∃ again, read written = .ok again ∧ Holds again 0 ∧ text again = written := by
  have hzero : text (0.0 * 0.001) = "0ms" := by decide +kernel
  have hminus : text (-0.0 * 0.001) = "-0ms" := by decide +kernel
  intro written hwritten
  rcases List.mem_cons.mp hwritten with rfl | hwritten
  · exact ⟨0.0 * 0.001, rfl, holds_zero rfl, hzero⟩
  · obtain rfl := List.mem_singleton.mp hwritten
    exact ⟨-0.0 * 0.001, rfl, holds_zero rfl, hminus⟩

/-- The text of a duration is that of what is read from it, unless its amount is that of the next unit. -/
theorem exists_again (h : Holds a x) (hmax : x ≤ 31622400) (hcarried : text a ∉ carried) :
    ∃ again y, read (text a) = .ok again ∧ Holds again y ∧ y ≤ 31622400 ∧ text again = text a := by
  have hzero : text a ∈ ["0ms", "-0ms"] →
      ∃ again y, read (text a) = .ok again ∧ Holds again y ∧ y ≤ 31622400 ∧ text again = text a := fun hmem => by
    obtain ⟨again, hread, hholds, hagain⟩ := exists_zero _ hmem
    exact ⟨again, 0, hread, hholds, by norm_num, hagain⟩
  rcases h.zero_le.eq_or_lt with rfl | hpos
  · obtain ⟨figure, htext, hfigure⟩ := exists_figure h hmax
    have hamount : amountOf 0 = 0 := by simp [amountOf, representable_zero.rounded_eq tooLarge_pos.le]
    rw [hamount] at hfigure
    apply hzero
    rw [htext, unitAt_milliseconds one_pos]
    rcases fixedText_of_zero hfigure with hfixed | hfixed <;> rw [hfixed] <;> decide
  · have htext := text_eq h hpos hmax
    have hle := millionths_le_natCast (amountOf_le hpos hmax)
    obtain ⟨hlow, hhigh, hlimit⟩ := size_range x
    rcases Nat.eq_zero_or_pos (millionths (amountOf x)) with hnone | hsome
    · have hless : x < 1 := by
        by_contra hone
        have hmillion := natCast_le_millionths (n := 1) (by exact_mod_cast one_le_amountOf (not_lt.mp hone))
        omega
      apply hzero
      rw [htext, hnone, unitAt_milliseconds hless]
      exact List.mem_cons_self
    · rw [htext] at hcarried ⊢
      have hsame := unitAt_readAs hpos hmax hsome hcarried
      have hagain := readAs_le_max hpos hmax hsame
      have hlarge : millionths (amountOf x) ≤ 10 ^ 10 := hle.trans (by nlinarith)
      obtain ⟨again, hread, hholds⟩ := exists_read hle
      refine ⟨again, _, hread, hholds, hagain, ?_⟩
      rw [text_eq hholds (readAs_pos hlow hhigh hsome hlarge) hagain, amountOf, hsame,
        millionths_readAs hlow hhigh hsome hlarge]

end Duration

namespace Rate

variable {a : Float} {x : ℚ} {n : ℕ}

/-- A unit that rates are written in: its name, how many bytes it is as a power of two, and the float that stands for
these when an amount of it is read. -/
structure Unit where
  name : String
  log : ℕ
  factor : Float

def gigabytes : Unit := ⟨"GB/s", 30, giga⟩
def megabytes : Unit := ⟨"MB/s", 20, mega⟩
def kilobytes : Unit := ⟨"KB/s", 10, kilo⟩
def bytes : Unit := ⟨"B/s", 0, 1.0⟩

def unitAt (x : ℚ) : Unit :=
  if 2 ^ 30 ≤ x then gigabytes else if 2 ^ 20 ≤ x then megabytes else if 2 ^ 10 ≤ x then kilobytes else bytes

theorem unitAt_cases (x : ℚ) :
    (2 ^ 30 ≤ x ∧ unitAt x = gigabytes) ∨ (2 ^ 20 ≤ x ∧ x < 2 ^ 30 ∧ unitAt x = megabytes) ∨
      (2 ^ 10 ≤ x ∧ x < 2 ^ 20 ∧ unitAt x = kilobytes) ∨ (x < 2 ^ 10 ∧ unitAt x = bytes) := by
  unfold unitAt
  split_ifs with h1 h2 h3
  · exact .inl ⟨h1, rfl⟩
  · exact .inr (.inl ⟨h2, not_le.mp h1, rfl⟩)
  · exact .inr (.inr (.inl ⟨h3, not_le.mp h2, rfl⟩))
  · exact .inr (.inr (.inr ⟨not_le.mp h3, rfl⟩))

theorem unitAt_gigabytes (h : 2 ^ 30 ≤ x) : unitAt x = gigabytes := if_pos h

theorem unitAt_megabytes (hlow : 2 ^ 20 ≤ x) (hhigh : x < 2 ^ 30) : unitAt x = megabytes := by
  rw [unitAt, if_neg (not_le.mpr hhigh), if_pos hlow]

theorem unitAt_kilobytes (hlow : 2 ^ 10 ≤ x) (hhigh : x < 2 ^ 20) : unitAt x = kilobytes := by
  rw [unitAt, if_neg (by linarith), if_neg (not_le.mpr hhigh), if_pos hlow]

theorem unitAt_bytes (h : x < 2 ^ 10) : unitAt x = bytes := by
  rw [unitAt, if_neg (by linarith), if_neg (by linarith), if_neg (not_le.mpr h)]

theorem holds_giga : Holds giga (2 ^ 30) := by
  exact_mod_cast holds_shifted (n := 2 ^ 30) (k := 22) (h := by decide) rfl

theorem holds_mega : Holds mega (2 ^ 20) := by
  exact_mod_cast holds_shifted (n := 2 ^ 20) (k := 32) (h := by decide) rfl

theorem holds_kilo : Holds kilo (2 ^ 10) := by
  exact_mod_cast holds_shifted (n := 2 ^ 10) (k := 42) (h := by decide) rfl

theorem holds_factor (x : ℚ) : Holds (unitAt x).factor (2 ^ (unitAt x).log) := by
  rcases unitAt_cases x with ⟨-, hu⟩ | ⟨-, -, hu⟩ | ⟨-, -, hu⟩ | ⟨-, hu⟩ <;> rw [hu]
  · exact holds_giga
  · exact holds_mega
  · exact holds_kilo
  · exact_mod_cast holds_one

def amountOf (x : ℚ) : ℚ := x / 2 ^ (unitAt x).log

theorem log_le (x : ℚ) : (unitAt x).log ≤ 30 := by
  rcases unitAt_cases x with ⟨-, hu⟩ | ⟨-, -, hu⟩ | ⟨-, -, hu⟩ | ⟨-, hu⟩ <;> rw [hu] <;> decide

theorem size_lt_tooLarge (x : ℚ) : 2 ^ (unitAt x).log < tooLarge := by
  have hlog := log_le x
  rw [← zpow_natCast]
  exact zpow_lt_zpow_right₀ (by norm_num) (by omega)

theorem one_le_amountOf (hone : 1 ≤ x) : 1 ≤ amountOf x := by
  rw [amountOf, one_le_div (by positivity)]
  rcases unitAt_cases x with ⟨h, hu⟩ | ⟨h, -, hu⟩ | ⟨h, -, hu⟩ | ⟨-, hu⟩ <;> rw [hu]
  · exact h
  · exact h
  · exact h
  · simpa [bytes] using hone

theorem amountOf_lt (h : x < 2 ^ 30) : amountOf x < 1024 := by
  rw [amountOf, div_lt_iff₀ (by positivity)]
  rcases unitAt_cases x with ⟨hlarge, -⟩ | ⟨-, hlt, hu⟩ | ⟨-, hlt, hu⟩ | ⟨hlt, hu⟩
  · exact absurd h (not_lt.mpr hlarge)
  all_goals
    rw [hu]
    exact hlt.trans_eq (by norm_num [megabytes, kilobytes, bytes])

/-- A power of two leaves all bits of a rate as they are. -/
theorem representable_amountOf (hx : Representable x) (hone : 1 ≤ x) : Representable (amountOf x) := by
  have hlow : (2 : ℚ) ^ (-1022 : ℤ) ≤ 1 := zpow_le_one_of_nonpos₀ (by norm_num) (by norm_num)
  have hsame : amountOf x = x * 2 ^ (-(unitAt x).log : ℤ) := by
    rw [amountOf, zpow_neg, zpow_natCast, div_eq_mul_inv]
  have hamount := one_le_amountOf hone
  rw [hsame] at hamount ⊢
  have hnearest := nearest_mul_two_zpow _ (hlow.trans hone) (hlow.trans hamount)
  rw [hx.nearest_eq] at hnearest
  rw [← hnearest]
  exact representable_nearest _

/-! ## What is written -/

theorem exists_figure (h : Holds a x) (hone : 1 ≤ x) (hfinite : x < tooLarge) :
    ∃ figure, text a = fixedText figure ++ (unitAt x).name ∧ Holds figure (amountOf x) := by
  have hrounded : rounded (amountOf x) = amountOf x := by
    refine (representable_amountOf h.representable hone).rounded_eq (le_trans ?_ hfinite.le)
    exact div_le_self (by linarith) (one_le_pow₀ (by norm_num))
  have hdiv : Holds (a / (unitAt x).factor) (amountOf x) := by
    rw [← hrounded]
    exact h.div (holds_factor x) hfinite (by positivity) (size_lt_tooLarge x)
  have hgiga := holds_giga.le_iff h
  have hmega := holds_mega.le_iff h
  have hkilo := holds_kilo.le_iff h
  rcases unitAt_cases x with ⟨h1, hu⟩ | ⟨h2, h1, hu⟩ | ⟨h3, h2, hu⟩ | ⟨h3, hu⟩ <;> rw [hu] at hdiv ⊢
  · refine ⟨_, ?_, hdiv⟩
    simp only [text, units, List.find?_cons, hgiga, h1, decide_true, String.append_assoc]
    rfl
  · refine ⟨_, ?_, hdiv⟩
    simp only [text, units, List.find?_cons, hgiga, hmega, not_le.mpr h1, h2, decide_true, decide_false,
      String.append_assoc]
    rfl
  · have h1 : ¬2 ^ 30 ≤ x := by linarith
    refine ⟨_, ?_, hdiv⟩
    simp only [text, units, List.find?_cons, hgiga, hmega, hkilo, h1, not_le.mpr h2, h3, decide_true, decide_false,
      String.append_assoc]
    rfl
  · have h1 : ¬2 ^ 30 ≤ x := by linarith
    have h2 : ¬2 ^ 20 ≤ x := by linarith
    have hamount : amountOf x = x := by simp [amountOf, hu, bytes]
    refine ⟨a, ?_, hamount.symm ▸ h⟩
    simp only [text, units, List.find?_cons, hgiga, hmega, hkilo, h1, h2, not_le.mpr h3, decide_false]
    rfl

/-- A rate is written as millionths of a unit. -/
theorem text_eq (h : Holds a x) (hone : 1 ≤ x) (hfinite : x < tooLarge) :
    text a = String.ofList (millionthsText (millionths (amountOf x))) ++ (unitAt x).name := by
  obtain ⟨figure, htext, hfigure⟩ := exists_figure h hone hfinite
  have hle : amountOf x ≤ x := div_le_self (by linarith) (one_le_pow₀ (by norm_num))
  rw [htext, fixedText_of_holds hfigure (one_pos.trans_le (one_le_amountOf hone)) (hle.trans_lt hfinite)]

theorem text_of_tooLarge (h : Holds a tooLarge) : text a = "infGB/s" := by
  have hle : (2 : ℚ) ^ 30 ≤ tooLarge := by
    rw [← zpow_natCast]
    exact zpow_le_zpow_right₀ (by norm_num) (by norm_num)
  have hfigure := h.div_of_tooLarge (holds_factor tooLarge) (by positivity) (size_lt_tooLarge _)
  rw [unitAt_gigabytes hle] at hfigure
  have hfixed : fixedText (a / giga) = "inf" := fixedText_of_tooLarge hfigure
  have hgiga := holds_giga.le_iff h
  simp only [text, units, List.find?_cons, hgiga, hle, decide_true, hfixed]
  rfl

/-! ## What is read -/

theorem unitOf_last {literal : List Char} {c : Char} {factor : Float}
    (h : (c, factor) ∈ [('g', giga), ('m', mega), ('k', kilo)]) : unitOf (literal ++ [c]) = (literal, factor) := by
  simp only [List.mem_cons, Prod.mk.injEq, List.not_mem_nil, or_false] at h
  rcases h with ⟨rfl, rfl⟩ | ⟨rfl, rfl⟩ | ⟨rfl, rfl⟩ <;> simp [unitOf]

private theorem unitOf_none (n : ℕ) : unitOf (millionthsText n) = (millionthsText n, 1.0) := by
  have hletter : ∀ c ∈ (millionthsText n).getLast?, c ≠ 'k' ∧ c ≠ 'm' ∧ c ≠ 'g' := by
    intro c hc
    rcases mem_millionthsText (List.mem_of_getLast? hc) with hdigit | rfl
    · refine ⟨?_, ?_, ?_⟩ <;>
      · rintro rfl
        exact absurd hdigit (by decide)
    · decide
  unfold unitOf
  split
  all_goals first | rfl | (rename_i hlast; exact absurd (hletter _ hlast) (by decide))

private theorem read_unit (letters : List Char) {factor : Float} {name : String} (hname : Text.Bare name)
    (hletters : name.toList.map Char.toLower = letters ++ ['b', '/', 's'])
    (hunit : unitOf (millionthsText n ++ letters) = (millionthsText n, factor)) :
    read (String.ofList (millionthsText n) ++ name) = (readAmount (millionthsText n)).bind fun amount =>
      if amount * factor ≤ 0.0 then .error .rateNotPositive else .ok (amount * factor) := by
  have hempty : (millionthsText n).isEmpty = false := by simp [millionthsText]
  have hrate : Text.stripEnd? ['/', 's'] (millionthsText n ++ (letters ++ ['b', '/', 's'])) =
      some (millionthsText n ++ letters ++ ['b']) := by
    rw [show ['b', '/', 's'] = ['b'] ++ ['/', 's'] from rfl, ← List.append_assoc, ← List.append_assoc,
      Text.stripEnd?_append]
  unfold read
  simp only [lower_trim_append hname, hletters, hrate, Option.getD_some, Text.stripEnd?_append, hunit, hempty]
  rfl

/-- What is written in a unit is read in this unit. -/
theorem read_append (x : ℚ) (n : ℕ) : read (String.ofList (millionthsText n) ++ (unitAt x).name) =
    (readAmount (millionthsText n)).bind fun amount =>
      if amount * (unitAt x).factor ≤ 0.0 then .error .rateNotPositive else .ok (amount * (unitAt x).factor) := by
  rcases unitAt_cases x with ⟨-, hu⟩ | ⟨-, -, hu⟩ | ⟨-, -, hu⟩ | ⟨-, hu⟩ <;> rw [hu]
  · exact read_unit ['g'] (by decide) rfl (unitOf_last (by simp [gigabytes]))
  · exact read_unit ['m'] (by decide) rfl (unitOf_last (by simp [megabytes]))
  · exact read_unit ['k'] (by decide) rfl (unitOf_last (by simp [kilobytes]))
  · refine read_unit [] (by decide) rfl ?_
    rw [List.append_nil]
    exact unitOf_none n

/-! ## What is written again -/

def readAs (n : ℕ) (u : Unit) : ℚ := rounded (n / (10 ^ 6 : ℕ)) * 2 ^ u.log

/-- What is written as millionths of a unit is read as their product with the unit. -/
theorem exists_read (hpos : 0 < readAs n (unitAt x)) (hfinite : readAs n (unitAt x) < tooLarge) :
    ∃ again, read (String.ofList (millionthsText n) ++ (unitAt x).name) = .ok again ∧
      Holds again (readAs n (unitAt x)) := by
  have hamount : rounded (n / (10 ^ 6 : ℕ)) < tooLarge :=
    (le_mul_of_one_le_right (rounded_nonneg _) (one_le_pow₀ (by norm_num))).trans_lt hfinite
  obtain ⟨amount, hread, hholds⟩ := readAmount_millionthsText n hamount
  have hrepresentable : Representable (readAs n (unitAt x)) := by
    rw [readAs, ← zpow_natCast]
    exact (representable_rounded _).mul_two_zpow (Int.natCast_nonneg _)
  have hproduct := hholds.mul (holds_factor x) (.inl hamount) (size_lt_tooLarge x)
  have hsame : rounded (rounded (n / (10 ^ 6 : ℕ)) * 2 ^ (unitAt x).log) = readAs n (unitAt x) :=
    hrepresentable.rounded_eq hfinite.le
  rw [hsame] at hproduct
  have hpositive : ¬amount * (unitAt x).factor ≤ 0.0 := by
    rw [hproduct.le_iff (holds_zero (a := 0.0) rfl)]
    exact not_le.mpr hpos
  refine ⟨_, ?_, hproduct⟩
  rw [read_append, hread]
  exact if_neg hpositive

/-- The texts whose amount is that of the next unit, or that is no number. -/
def carried : List String := ["1024B/s", "1024KB/s", "1024MB/s", "infGB/s"]

theorem size_le_readAs (h : 10 ^ 6 ≤ n) (u : Unit) : 2 ^ u.log ≤ readAs n u := by
  have hquotient : ((1 : ℕ) : ℚ) ≤ n / (10 ^ 6 : ℕ) := by
    rw [Nat.cast_one, one_le_div (by norm_num)]
    exact_mod_cast h
  have hamount := (representable_natCast (by norm_num)).le_rounded hquotient (natCast_lt_tooLarge (by norm_num)).le
  exact le_mul_of_one_le_left (by positivity) (by exact_mod_cast hamount)

theorem readAs_lt (h : n < 1024 * 10 ^ 6) (u : Unit) : readAs n u < 1024 * 2 ^ u.log := by
  have hquotient : (n : ℚ) / (10 ^ 6 : ℕ) ≤ (2 ^ 30 - 1 : ℕ) * 2 ^ (-20 : ℤ) := by
    have hnext : ((n + 1 : ℕ) : ℚ) ≤ (1024 * 10 ^ 6 : ℕ) := by exact_mod_cast h
    rw [div_le_iff₀ (by norm_num)]
    push_cast at hnext ⊢
    norm_num
    linarith
  have hamount := (representable_le (by norm_num) (by norm_num)).rounded_le (by positivity) hquotient
  exact mul_lt_mul_of_pos_right (hamount.trans_lt (by norm_num)) (by positivity)

/-- What a finite rate is read as again is finite. -/
theorem readAs_lt_tooLarge (h : Holds a x) (hfinite : x < tooLarge) :
    readAs (millionths (amountOf x)) (unitAt x) < tooLarge := by
  have hlog := log_le x
  have hpos : (0 : ℚ) < 2 ^ (unitAt x).log := by positivity
  -- The greatest amount of the unit is a whole number.
  obtain ⟨most, hmost⟩ : ∃ most : ℕ, (most : ℚ) = (2 ^ 53 - 1 : ℕ) * 2 ^ (971 - (unitAt x).log : ℤ) := by
    have hexponent : ((971 - (unitAt x).log : ℕ) : ℤ) = 971 - (unitAt x).log := by omega
    refine ⟨(2 ^ 53 - 1) * 2 ^ (971 - (unitAt x).log), ?_⟩
    rw [Nat.cast_mul, Nat.cast_pow, Nat.cast_ofNat, ← hexponent, zpow_natCast]
  have hproduct : (most : ℚ) * 2 ^ (unitAt x).log = greatest := by
    rw [hmost, mul_assoc, ← zpow_natCast, ← two_zpow_add, sub_add_cancel, greatest]
  have hamount : amountOf x ≤ most := by
    rw [amountOf, div_le_iff₀ hpos, hproduct]
    exact h.le_greatest hfinite
  have hquotient : (millionths (amountOf x) : ℚ) / (10 ^ 6 : ℕ) ≤ most := by
    rw [div_le_iff₀ (by norm_num)]
    exact_mod_cast millionths_le_natCast hamount
  have hrepresentable : Representable most := by
    rw [hmost]
    exact representable_le (by norm_num) (by omega)
  have hrounded : rounded (millionths (amountOf x) / (10 ^ 6 : ℕ)) ≤ most :=
    hrepresentable.rounded_le (div_nonneg (Nat.cast_nonneg _) (Nat.cast_nonneg _)) hquotient
  exact (mul_le_mul_of_nonneg_right hrounded hpos.le).trans_lt (hproduct.trans_lt greatest_lt_tooLarge)

/-- What is read is written in the same unit, unless the amount is that of the next unit. -/
theorem unitAt_readAs (hone : 1 ≤ x)
    (h : String.ofList (millionthsText (millionths (amountOf x))) ++ (unitAt x).name ∉ carried) :
    unitAt (readAs (millionths (amountOf x)) (unitAt x)) = unitAt x := by
  have hmillion := natCast_le_millionths (n := 1) (by exact_mod_cast one_le_amountOf hone)
  rw [Nat.one_mul] at hmillion
  have hless : x < 2 ^ 30 → millionths (amountOf x) ≤ 1024 * 10 ^ 6 := fun hx =>
    millionths_le_natCast (by exact_mod_cast (amountOf_lt hx).le)
  generalize millionths (amountOf x) = n at *
  have hleast := size_le_readAs hmillion (unitAt x)
  have hmost : ∀ text ∈ carried, String.ofList (millionthsText (1024 * 10 ^ 6)) ++ (unitAt x).name = text →
      x < 2 ^ 30 → readAs n (unitAt x) < 1024 * 2 ^ (unitAt x).log := by
    intro text hmem htext hx
    refine readAs_lt (lt_of_le_of_ne (hless hx) ?_) _
    rintro rfl
    exact h (htext ▸ hmem)
  rcases unitAt_cases x with ⟨-, hu⟩ | ⟨-, h1, hu⟩ | ⟨-, h2, hu⟩ | ⟨h3, hu⟩ <;> rw [hu] at hleast hmost ⊢
  · exact unitAt_gigabytes hleast
  · refine unitAt_megabytes hleast ((hmost "1024MB/s" (by decide) rfl h1).trans_eq ?_)
    norm_num [megabytes]
  · refine unitAt_kilobytes hleast ((hmost "1024KB/s" (by decide) rfl (by linarith)).trans_eq ?_)
    norm_num [kilobytes]
  · refine unitAt_bytes ((hmost "1024B/s" (by decide) rfl (by linarith)).trans_eq ?_)
    norm_num [bytes]

/-- The text of a rate is that of what is read from it, unless its amount is that of the next unit or no number. -/
theorem exists_again (h : Holds a x) (hone : 1 ≤ x) (hcarried : text a ∉ carried) :
    ∃ again y, read (text a) = .ok again ∧ Holds again y ∧ 1 ≤ y ∧ text again = text a := by
  have hfinite : x < tooLarge := by
    refine lt_of_le_of_ne h.le_tooLarge ?_
    rintro rfl
    rw [text_of_tooLarge h] at hcarried
    exact hcarried (by decide)
  have htext := text_eq h hone hfinite
  have hmillion := natCast_le_millionths (n := 1) (by exact_mod_cast one_le_amountOf hone)
  rw [Nat.one_mul] at hmillion
  rw [htext] at hcarried ⊢
  have hsame := unitAt_readAs hone hcarried
  have hagain := readAs_lt_tooLarge h hfinite
  have hsize := size_le_readAs hmillion (unitAt x)
  have hleast : 1 ≤ readAs (millionths (amountOf x)) (unitAt x) := (one_le_pow₀ (by norm_num)).trans hsize
  obtain ⟨again, hread, hholds⟩ := exists_read (one_pos.trans_le hleast) hagain
  refine ⟨again, _, hread, hholds, hleast, ?_⟩
  have hamount : amountOf (readAs (millionths (amountOf x)) (unitAt x)) =
      nearest (millionths (amountOf x) / (10 ^ 6 : ℕ)) := by
    have hone : (1 : ℚ) ≤ 2 ^ (unitAt x).log := one_le_pow₀ (by norm_num)
    rw [amountOf, hsame, readAs, mul_div_cancel_right₀ _ (by positivity)]
    exact rounded_eq_nearest_of_lt ((le_mul_of_one_le_right (rounded_nonneg _) hone).trans_lt hagain)
  rw [text_eq hholds hleast hagain, hsame, hamount, millionths_nearest (representable_amountOf h.representable hone)]

end Rate

end TrafficPolicy
