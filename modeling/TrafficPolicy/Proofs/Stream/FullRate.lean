import TrafficPolicy.Proofs.Stream.Budget
import TrafficPolicy.Proofs.Stream.Passes

/-!
# Writers that are kept busy

A writer that has more to send than it may looks at the limit after each wait, and sends the whole bytes that the time
since the start is worth. It gets its full rate unless it is taken for idle at some look: the fraction of a byte that
could not be sent at the look before counts as unused, and at a low rate this and the wait can make up a second.
-/

namespace TrafficPolicy

namespace Stream

open Call Number

namespace Meter

variable {σ : Type} {inner : Sink σ} {m : Meter} {rate : Float} {r : ℚ} {now d later start j k : ℕ}

/-! ## The looks of a writer -/

/-- The moments at which a writer that waits each time looks at the limit. -/
def look (start : ℕ) : ℕ → ℕ
  | 0 => start
  | k + 1 => Clock.wake (look start k) (look start k + pause)

theorem look_add_pause_le (start k : ℕ) : look start k + pause ≤ look start (k + 1) := Clock.deadline_le_wake _ _

theorem le_look (start k : ℕ) : start + k * pause ≤ look start k := by
  induction k with
  | zero => exact Nat.le_of_eq (by simp [look])
  | succ k ih =>
    have := look_add_pause_le start k
    rw [Nat.succ_mul]
    omega

theorem wake_of_dvd (h : Clock.tick ∣ now) : Clock.wake now (now + pause) = now + pause := by
  obtain ⟨ticks, rfl⟩ := h
  unfold Clock.wake Clock.roundUp Clock.tick pause
  split <;> omega

/-- At whole milliseconds every wait is as long as it should be. -/
theorem look_of_dvd (h : Clock.tick ∣ start) (k : ℕ) : look start k = start + k * pause := by
  induction k with
  | zero => simp [look]
  | succ k ih =>
    have hpause : Clock.tick ∣ pause := by decide
    rw [look, ih, wake_of_dvd (h.add (hpause.mul_left k)), Nat.succ_mul, Nat.add_assoc]

theorem dvd_look_succ (start k : ℕ) : Clock.tick ∣ look start (k + 1) := by
  have hlater : ¬look start k + pause ≤ look start k := by
    unfold pause
    omega
  rw [look, Clock.wake, if_neg hlater]
  exact Nat.dvd_mul_left _ _

theorem age_le_succ (start k : ℕ) : look start k - start ≤ look start (k + 1) - start :=
  Nat.sub_le_sub_right ((Nat.le_add_right _ _).trans (look_add_pause_le start k)) start

theorem pause_le_age (start k : ℕ) : pause ≤ look start (k + 1) - start := by
  have hlook := le_look start (k + 1)
  rw [Nat.succ_mul] at hlook
  omega

/-- After the first look the waits are as long as they should be. -/
theorem age_succ_succ (start k : ℕ) : look start (k + 2) - start = look start (k + 1) - start + pause := by
  have hlook : look start (k + 2) = look start (k + 1) + pause := wake_of_dvd (dvd_look_succ start k)
  have hage := pause_le_age start k
  have hpause : 0 < pause := by decide
  omega

/-! ## Whole bytes -/

/-- The whole bytes that a rate gives for a time, as far as a word can count them. -/
def quota (rate : Float) (d : ℕ) : ℕ := (Duration.secondsOf d * rate).toUInt64.toNat

theorem Rated.quota_eq (h : m.Rated r) (d : ℕ) : quota m.rate d = min ⌊worth r d⌋₊ (2 ^ 64 - 1) :=
  (h.holds_budget d).toNat_toUInt64

/-- All whole bytes that a time is worth have been sent. -/
structure UsedUp (r : ℚ) (m : Meter) (d : ℕ) : Prop where
  rated : m.Rated r
  written : m.written = ⌊worth r d⌋₊
  few : m.written < 2 ^ 64 - 1

theorem UsedUp.written_le (h : m.UsedUp r d) : (m.written : ℚ) ≤ worth r d := by
  rw [h.written]
  exact Nat.floor_le (worth_nonneg r d)

theorem UsedUp.rounded_written (h : m.UsedUp r d) : rounded m.written = m.written := by
  have hworth := (h.rated.holds_budget d).representable
  refine Representable.rounded_eq ?_ (h.written_le.trans (worth_le r d))
  rw [h.written]
  exact hworth.floor

/-- What the time since then has brought is not rounded. -/
theorem UsedUp.left_eq (h : m.UsedUp r d) (hd : d ≤ now - m.windowStart)
    (hdouble : d = 0 ∨ worth r (now - m.windowStart) ≤ 2 * worth r d)
    (hfinite : worth r (now - m.windowStart) < tooLarge) :
    left r m now = worth r (now - m.windowStart) - m.written := by
  have hnow := (h.rated.holds_budget (now - m.windowStart)).representable
  have hexact : Representable (worth r (now - m.windowStart) - m.written) := by
    rw [h.written]
    rcases hdouble with rfl | hdouble
    · rw [worth_zero, Nat.floor_zero, Nat.cast_zero, sub_zero]
      exact hnow
    · exact hnow.sub_floor (h.rated.holds_budget d).representable (worth_mono h.rated.nonneg hd) hdouble
  rw [left, if_pos hfinite, h.rounded_written, hexact.rounded_eq]
  exact (sub_le_self _ (Nat.cast_nonneg _)).trans hfinite.le

theorem UsedUp.rounded_le (h : m.UsedUp r d) (hd : d ≤ now - m.windowStart) :
    rounded m.written ≤ worth r (now - m.windowStart) :=
  h.rounded_written.le.trans (h.written_le.trans (worth_mono h.rated.nonneg hd))

theorem UsedUp.word (h : m.UsedUp r d) : m.written < 2 ^ 64 := h.few.trans (by decide)

/-- Then nothing more may be sent at the moment, and the writer is not idle. -/
theorem UsedUp.at_once (h : m.UsedUp r (now - m.windowStart)) :
    m.isIdle now = false ∧ m.allowance now = none := by
  have hfinite : worth r (now - m.windowStart) < tooLarge := by
    by_contra hlarge
    have hworth := le_antisymm (worth_le r _) (not_lt.mp hlarge)
    have hwritten := h.written
    rw [hworth] at hwritten
    exact absurd h.few (not_lt.mpr (le_floor_tooLarge.trans_eq hwritten.symm))
  have hleft : left r m now < 1 := by
    have hfraction := Nat.lt_floor_add_one (worth r (now - m.windowStart))
    rw [h.left_eq le_rfl (.inr (le_mul_of_one_le_left (worth_nonneg r _) one_le_two)) hfinite, h.written]
    linarith
  constructor
  · rw [Bool.eq_false_iff, Ne, h.rated.isIdle_iff h.word (h.rounded_le le_rfl)]
    exact fun hidle => absurd (hidle.2.trans hleft) (not_lt.mpr h.rated.one_le)
  · rw [h.rated.allowance_eq h.word (h.rounded_le le_rfl), if_pos hleft]

/-- Later the whole bytes may be sent that have come up since then. -/
theorem UsedUp.allowance (h : m.UsedUp r d) (hd : d ≤ now - m.windowStart)
    (hdouble : d = 0 ∨ worth r (now - m.windowStart) ≤ 2 * worth r d) :
    m.allowance now = none ∧ quota m.rate (now - m.windowStart) = m.written ∨
      ∃ count, m.allowance now = some count ∧ quota m.rate (now - m.windowStart) ≤ m.written + count ∧
        (quota m.rate (now - m.windowStart) < 2 ^ 64 - 1 →
          m.written + count = quota m.rate (now - m.windowStart)) := by
  have hquota := h.rated.quota_eq (now - m.windowStart)
  have hwritten : m.written ≤ ⌊worth r (now - m.windowStart)⌋₊ :=
    h.written.trans_le (Nat.floor_le_floor (worth_mono h.rated.nonneg hd))
  have hfew := h.few
  rw [h.rated.allowance_eq h.word (h.rounded_le hd)]
  rcases lt_or_ge (worth r (now - m.windowStart)) tooLarge with hfinite | hlarge
  · have hleft := h.left_eq hd hdouble hfinite
    have hfloor : ⌊left r m now⌋₊ = ⌊worth r (now - m.windowStart)⌋₊ - m.written := by
      rw [hleft, Nat.floor_sub_natCast]
    split
    · rename_i hless
      have hzero : ⌊left r m now⌋₊ = 0 := Nat.floor_eq_zero.mpr hless
      exact .inl ⟨rfl, by omega⟩
    · exact .inr ⟨_, rfl, by omega, by omega⟩
  · have hleft : left r m now = tooLarge := if_neg (not_lt.mpr hlarge)
    have hone : ¬left r m now < 1 := by
      rw [hleft]
      exact not_lt.mpr holds_one.le_tooLarge
    have hfloor := le_floor_tooLarge
    have hworth := le_antisymm (worth_le r _) hlarge
    rw [hworth] at hquota
    rw [if_neg hone, hleft]
    exact .inr ⟨_, rfl, by omega, by omega⟩

/-! ## A whole write -/

/-- The whole bytes that the time up to a look is worth. -/
def due (rate : Float) (start j : ℕ) : ℕ := quota rate (look start j - start)

/-- The limit after a look of a writer who has always sent what may be sent. -/
def keptUp (rate : Float) (start j : ℕ) : Meter := ⟨rate, due rate start j, start⟩

theorem Rated.due_eq (h : (starting start rate).Rated r) (j : ℕ) :
    due rate start j = min ⌊worth r (look start j - start)⌋₊ (2 ^ 64 - 1) := h.quota_eq _

theorem Rated.usedUp (h : (starting start rate).Rated r) (hfew : due rate start j < 2 ^ 64 - 1) :
    (keptUp rate start j).UsedUp r (look start j - start) where
  rated := h.of_rate rfl
  written := by
    have hdue := h.due_eq j
    show due rate start j = _
    omega
  few := hfew

theorem Rated.due_zero (h : (starting start rate).Rated r) : due rate start 0 = 0 := by
  rw [h.due_eq, look, Nat.sub_self, worth_zero, Nat.floor_zero, Nat.zero_min]

theorem Rated.keptUp_zero (h : (starting start rate).Rated r) : keptUp rate start 0 = starting start rate :=
  congrArg (Meter.mk rate · start) h.due_zero

/-- From one look to the next the worth of the time at most doubles. -/
theorem Rated.worth_look (h : m.Rated r) (start j : ℕ) : look start j - start = 0 ∨
    worth r (look start (j + 1) - start) ≤ 2 * worth r (look start j - start) := by
  cases j with
  | zero => exact .inl (Nat.sub_self start)
  | succ j =>
    rw [age_succ_succ]
    exact .inr (h.worth_add_pause (pause_le_age start j))

/-- A writer that has kept up finds at the next look that no whole byte has come up, or it may send those that have. -/
theorem Rated.allowance_look (h : (starting start rate).Rated r) (hfew : due rate start j < 2 ^ 64 - 1) :
    (keptUp rate start j).allowance (look start (j + 1)) = none ∧ due rate start (j + 1) = due rate start j ∨
      ∃ count, (keptUp rate start j).allowance (look start (j + 1)) = some count ∧
        due rate start (j + 1) ≤ due rate start j + count ∧
          (due rate start (j + 1) < 2 ^ 64 - 1 → due rate start j + count = due rate start (j + 1)) :=
  (h.usedUp hfew).allowance (age_le_succ start j) (h.worth_look start j)

theorem refresh_of_busy (h : m.isIdle now = false) : m.refresh now = m := by
  rw [refresh, h]
  rfl

/-- At three bytes in a second a fraction of a byte and what a wait is worth are less than what a second is worth, as
long as the bytes are not too many for the rounding. -/
theorem Rated.busy_of_three_le (h : (starting start rate).Rated r) (hthree : 3 ≤ r) (hfew : due rate start j < 2 ^ 44) :
    (keptUp rate start j).isIdle (look start (j + 1)) = false := by
  have hused := h.usedUp (hfew.trans (by norm_num))
  have hage := age_le_succ start j
  rw [Bool.eq_false_iff, Ne, hused.rated.isIdle_iff hused.word (hused.rounded_le hage), not_and, not_lt]
  intro hold
  have hworth : worth r (look start j - start) < 2 ^ 44 := by
    have hwritten : ⌊worth r (look start j - start)⌋₊ < 2 ^ 44 := hused.written.symm.trans_lt hfew
    exact_mod_cast (Nat.floor_lt (worth_nonneg r _)).mp hwritten
  cases j with
  | zero =>
    have hyoung : look start 1 - start ≤ idleAge := by
      unfold look Clock.wake Clock.roundUp Clock.tick pause idleAge Duration.nanosPerSecond look
      split <;> omega
    exact absurd hold (not_lt.mpr hyoung)
  | succ j =>
    have hmore := h.worth_add_pause_le (pause_le_age start j) hworth
    rw [← age_succ_succ] at hmore
    have hdouble := h.worth_add_pause (pause_le_age start j)
    rw [← age_succ_succ] at hdouble
    have hfinite := (show worth r (look start (j + 2) - start) < 2 ^ 53 by linarith).trans two_pow_lt_tooLarge
    have hleft : left r (keptUp rate start (j + 1)) (look start (j + 2)) =
        worth r (look start (j + 2) - start) - (keptUp rate start (j + 1)).written :=
      hused.left_eq hage (h.worth_look start (j + 1)) hfinite
    have hfraction := Nat.lt_floor_add_one (worth r (look start (j + 1) - start))
    rw [← hused.written] at hfraction
    rw [hleft]
    linarith

/-- No round of a write lets the window begin anew. -/
def Stays (inner : Sink σ) (start rounds : ℕ) (rest : Bytes) (now : ℕ) (state : Meter × List Action × σ) : Prop :=
  ∀ p ∈ passes inner rounds rest now state, p.after.windowStart = start

/-- At a look at which all has been sent that may be sent, the writer waits for the next one. -/
theorem Rated.stays_wait (h : (starting start rate).Rated r) (inner : Sink σ)
    (hfew : due rate start j < 2 ^ 64 - 1) {rest : Bytes} (hrest : rest ≠ []) (rounds : ℕ) (log : List Action) (s : σ) :
    repeatRun (round inner.logged) none (rounds + 1) rest (look start j) (keptUp rate start j, log, s) =
        repeatRun (round inner.logged) none rounds rest (look start (j + 1)) (keptUp rate start j, log, s) ∧
      (Stays inner start (rounds + 1) rest (look start j) (keptUp rate start j, log, s) ↔
        Stays inner start rounds rest (look start (j + 1)) (keptUp rate start j, log, s)) := by
  obtain ⟨hbusy, hnone⟩ : (keptUp rate start j).isIdle (look start j) = false ∧
      (keptUp rate start j).allowance (look start j) = none := (h.usedUp hfew).at_once
  have hrefresh := refresh_of_busy hbusy
  rw [← hrefresh] at hnone
  have hstays : (waiting (keptUp rate start j) (look start j)).after.windowStart = start :=
    congrArg windowStart hrefresh
  constructor
  · simp only [repeatRun, round_wait hrest hnone, hrefresh]
    rfl
  · rw [Stays, passes_wait hrest hnone, List.forall_mem_cons, and_iff_right hstays, hrefresh]
    rfl

/-- At a look at which the writer is idle the window begins anew. -/
theorem Rated.not_stays_of_idle (h : (starting start rate).Rated r) (hidle : m.isIdle now = true)
    (hrate : m.rate = rate) (hmoved : now ≠ start) {rest : Bytes} (hrest : rest ≠ []) (rounds : ℕ) (log : List Action)
    (s : σ) :
    ¬Stays inner start (rounds + 1) rest now (m, log, s) := by
  have hrefresh : m.refresh now = starting now rate := by
    rw [refresh, if_pos hidle, ← hrate]
    rfl
  have hnone : (m.refresh now).allowance now = none := by
    rw [hrefresh]
    exact h.allowance_starting now
  rw [Stays, passes_wait hrest hnone, List.forall_mem_cons]
  rintro ⟨hstays, -⟩
  exact hmoved ((congrArg windowStart hrefresh).symm.trans hstays)

/-- At a look at which the writer is not idle and may send something, it sends it. -/
theorem stays_send (hinner : inner.Prompt) (hbusy : m.isIdle now = false) (hstart : m.windowStart = start) {count : ℕ}
    (hcount : m.allowance now = some count) {rest : Bytes} (hrest : rest ≠ []) (rounds : ℕ) (log : List Action)
    (s : σ) :
    ∃ log' t, repeatRun (round inner.logged) none (rounds + 1) rest now (m, log, s) =
        repeatRun (round inner.logged) none rounds (rest.drop count) now
          (m.add (rest.take count).length, log', t) ∧
      (Stays inner start (rounds + 1) rest now (m, log, s) ↔
        Stays inner start rounds (rest.drop count) now (m.add (rest.take count).length, log', t)) := by
  have hrefresh := refresh_of_busy hbusy
  rw [← hrefresh] at hcount
  obtain ⟨t, hround⟩ := round_send hinner hrest hcount log s
  have hstays : (sending m now (rest.take count)).after.windowStart = start :=
    (congrArg windowStart hrefresh).trans hstart
  refine ⟨log ++ [.write (rest.take count), .flush], t, ?_, ?_⟩
  · simp only [repeatRun, hround, hrefresh]
  · rw [Stays, passes_send hround, List.forall_mem_cons, and_iff_right hstays, hrefresh]
    rfl

/-- A writer that is not idle at the next look is done there, or it keeps up with less to send. -/
theorem Rated.keeps_up_or_done (h : (starting start rate).Rated r) (hinner : inner.Prompt) {length rounds : ℕ}
    (hword : length < 2 ^ 64) (hdue : due rate start j < length) {rest : Bytes}
    (hrest : rest.length + due rate start j = length)
    (hidle : (keptUp rate start j).isIdle (look start (j + 1)) = false)
    {log : List Action} {s : σ} {time : ℕ} {final : Meter × List Action × σ}
    (hrun : repeatRun (round inner.logged) none (rounds + 1) rest (look start (j + 1)) (keptUp rate start j, log, s) =
      ⟨.ok (), time, final⟩) :
    (length ≤ due rate start (j + 1) ∧ time = look start (j + 1) ∧
        Stays inner start (rounds + 1) rest (look start (j + 1)) (keptUp rate start j, log, s)) ∨
      due rate start (j + 1) < length ∧ ∃ fewer rest' log' s', fewer ≤ rounds + 1 ∧
        rest'.length + due rate start (j + 1) = length ∧
        repeatRun (round inner.logged) none fewer rest' (look start (j + 1)) (keptUp rate start (j + 1), log', s') =
          ⟨.ok (), time, final⟩ ∧
        (Stays inner start (rounds + 1) rest (look start (j + 1)) (keptUp rate start j, log, s) ↔
          Stays inner start fewer rest' (look start (j + 1)) (keptUp rate start (j + 1), log', s')) := by
  have hnonempty : rest ≠ [] := List.ne_nil_of_length_pos (by omega)
  have hfew : due rate start j < 2 ^ 64 - 1 := by omega
  rcases h.allowance_look hfew with ⟨-, hsame⟩ | ⟨count, hcount, hmore, hexact⟩
  · -- No whole byte has come up, so that the writer has kept up at this look.
    have hkept : keptUp rate start (j + 1) = keptUp rate start j := congrArg (Meter.mk rate · start) hsame
    rw [← hkept] at hrun ⊢
    exact .inr ⟨by omega, rounds + 1, rest, log, s, le_rfl, by omega, hrun, Iff.rfl⟩
  · have hstart : (keptUp rate start j).windowStart = start := rfl
    obtain ⟨log', t, hsend, hstays⟩ := stays_send hinner hidle hstart hcount hnonempty rounds log s
    rw [hsend] at hrun
    rw [hstays]
    rcases Nat.lt_or_ge (due rate start (j + 1)) length with hless | hdone
    · have hdue' := hexact (by omega)
      have hfull : (rest.take count).length = count := List.length_take_of_le (by omega)
      have hleft : (rest.drop count).length + due rate start (j + 1) = length := by
        rw [List.length_drop]
        omega
      have hkept : (keptUp rate start j).add (rest.take count).length = keptUp rate start (j + 1) := by
        rw [hfull]
        exact congrArg (Meter.mk rate · start) hdue'
      rw [hkept] at hrun ⊢
      exact .inr ⟨hless, rounds, _, log', t, Nat.le_succ _, hleft, hrun, Iff.rfl⟩
    · -- All that is left is sent.
      have hall : rest.drop count = [] := List.drop_eq_nil_of_le (by omega)
      rw [hall] at hrun ⊢
      obtain _ | rounds := rounds
      · cases congrArg Ended.verdict hrun
      refine .inl ⟨hdone, (congrArg Ended.time hrun).symm, ?_⟩
      rw [Stays, passes_nil]
      simp

/-- From a look on at which it has kept up, a writer keeps up until it is done if and only if it is never idle. -/
theorem keeps_up_iff (hinner : inner.Prompt) (hrate : (starting start rate).Rated r) {length last : ℕ}
    (hword : length < 2 ^ 64) (hlast : IsLeast {k | length ≤ due rate start k} last) {rounds : ℕ} {rest : Bytes}
    {log : List Action} {s : σ} {time : ℕ} {final : Meter × List Action × σ} (hj : j < last)
    (hrest : rest.length + due rate start j = length)
    (hrun : repeatRun (round inner.logged) none rounds rest (look start j) (keptUp rate start j, log, s) =
      ⟨.ok (), time, final⟩) :
    Stays inner start rounds rest (look start j) (keptUp rate start j, log, s) ∧ time = look start last ↔
      ∀ i, j ≤ i → i < last → (keptUp rate start i).isIdle (look start (i + 1)) = false := by
  induction rounds using Nat.strong_induction_on generalizing j rest log s with
  | _ rounds ih =>
    have hdue : due rate start j < length := not_le.mp fun hle => absurd (hlast.2 hle) (not_le.mpr hj)
    have hnonempty : rest ≠ [] := List.ne_nil_of_length_pos (by omega)
    obtain _ | rounds := rounds
    · cases congrArg Ended.verdict hrun
    have hfew : due rate start j < 2 ^ 64 - 1 := by omega
    obtain ⟨hwait, hstays⟩ := hrate.stays_wait inner hfew hnonempty rounds log s
    rw [hwait] at hrun
    rw [hstays]
    obtain _ | rounds := rounds
    · cases congrArg Ended.verdict hrun
    cases hidle : (keptUp rate start j).isIdle (look start (j + 1)) with
    | true =>
      have hmoved : look start (j + 1) ≠ start := by
        have hage := pause_le_age start j
        have hpause : 0 < pause := by decide
        omega
      refine iff_of_false (fun h => ?_) fun h => ?_
      · exact hrate.not_stays_of_idle hidle rfl hmoved hnonempty rounds log s h.1
      · rw [h j le_rfl hj] at hidle
        cases hidle
    | false =>
      rcases hrate.keeps_up_or_done hinner hword hdue hrest hidle hrun with
        ⟨hdone, htime, hstays'⟩ | ⟨hless, fewer, rest', log', s', hfewer, hrest', hrun', hstays'⟩
      · obtain rfl : last = j + 1 := le_antisymm (hlast.2 hdone) hj
        refine iff_of_true ⟨hstays', htime⟩ fun i hi hl => ?_
        obtain rfl : i = j := by omega
        exact hidle
      · have hj' : j + 1 < last := by
          refine lt_of_le_of_ne hj ?_
          rintro rfl
          exact absurd hlast.1 (not_le.mpr hless)
        rw [hstays', ih fewer (by omega) hj' hrest' hrun']
        exact ⟨fun h i hi hl => hi.eq_or_lt.elim (fun heq => heq ▸ hidle) fun hlt => h i hlt hl,
          fun h i hi => h i (by omega)⟩

/-- However much there is to send, it is due some day. -/
theorem Rated.le_due (h : (starting start rate).Rated r) {length : ℕ} (hword : length < 2 ^ 64) (hk : 2 ^ 65 ≤ k) :
    length ≤ due rate start k := by
  have hdue := h.due_eq k
  have hage : 2 ^ 64 * Duration.nanosPerSecond ≤ look start k - start := by
    have hlook := le_look start k
    calc 2 ^ 64 * Duration.nanosPerSecond = 2 ^ 65 * pause := by decide
      _ ≤ k * pause := Nat.mul_le_mul_right pause hk
      _ ≤ look start k - start := by omega
  have hseconds : ((2 ^ 64 : ℕ) : ℚ) ≤ Duration.secondsIn (2 ^ 64 * Duration.nanosPerSecond) := by
    have hpower : ((2 ^ 64 : ℕ) : ℚ) = 2 ^ (64 : ℤ) := by norm_num
    have hlarge : (2 : ℚ) ^ (64 : ℤ) ≤ tooLarge := zpow_le_zpow_right₀ (by norm_num) (by norm_num)
    rw [Duration.secondsIn_mul, hpower]
    exact (representable_two_zpow (by decide)).le_rounded le_rfl hlarge
  have hfloor : 2 ^ 64 ≤ ⌊worth r (look start k - start)⌋₊ :=
    Nat.le_floor (hseconds.trans ((Duration.secondsIn_mono hage).trans (h.secondsIn_le_worth _)))
  omega

/-- A write of some data at the finite rate of a command, over a sink that takes every call at once, ends well. The
window never begins anew and the write ends at the first look at which all data is due, if and only if the writer is
not idle at any look until then when it has always sent what was due. At three bytes in a second it never is if the
data is not too long for the rounding. The bytes are counted in a word. -/
theorem full_rate_iff {command : String} (hread : Registry.standard.read command = .ok (.speed rate))
    (hfinite : rate.isFinite = true) (hinner : inner.Prompt) (hdivisible : inner.divisible = true) {data : Bytes}
    (hdata : data ≠ []) (hsize : data.length < 2 ^ 64) (start : ℕ) (s : σ) :
    ∃ last time final, IsLeast {k | data.length ≤ due rate start k} last ∧
      ((sink inner.logged).write data).run none start (starting start rate, [], s) = ⟨.ok (), time, final⟩ ∧
      (Stays inner start ((starting start rate).rounds data.length none) data start (starting start rate, [], s) ∧
          time = look start last ↔
        ∀ j < last, (keptUp rate start j).isIdle (look start (j + 1)) = false) ∧
      (3.0 ≤ rate → data.length ≤ 2 ^ 44 →
        ∀ j < last, (keptUp rate start j).isIdle (look start (j + 1)) = false) := by
  classical
  obtain ⟨r, hr⟩ := exists_rated (m := starting start rate) (Registry.atLeast_of_read hread) hfinite
  have hdue : ∃ k, data.length ≤ due rate start k := ⟨_, hr.le_due hsize le_rfl⟩
  have hleast := Nat.isLeast_find hdue
  obtain ⟨time, final, -, hwrite⟩ := exists_write hinner hdivisible (hr.live (le_refl start))
    ((Nat.zero_add _).trans_lt hsize) [] s
  have hkept := hr.keptUp_zero
  have hfirst : 0 < Nat.find hdue := by
    rw [Nat.find_pos, hr.due_zero, not_le]
    exact List.length_pos_of_ne_nil hdata
  have hrun := hwrite
  rw [write_run hdivisible, ← hkept] at hrun
  have hiff := keeps_up_iff hinner hr hsize hleast hfirst (congrArg (data.length + ·) hr.due_zero) hrun
  rw [hkept] at hiff
  refine ⟨_, time, final, hleast, hwrite, hiff.trans ⟨fun h j => h j (Nat.zero_le j), fun h j _ => h j⟩, ?_⟩
  intro hthree hshort j hj
  have hholds : Holds 3.0 3 := by exact_mod_cast holds_shifted (n := 3) (k := 51) (h := by decide) rfl
  refine hr.busy_of_three_le ((hholds.le_iff hr.holds).mp hthree) (lt_of_lt_of_le ?_ hshort)
  exact not_le.mp fun hle => absurd (hleast.2 hle) (not_le.mpr hj)

/-- At a hundred bytes in a second six hundred bytes are written in six seconds. -/
theorem full_rate_hundred :
    let data : Bytes := List.replicate 600 0
    Registry.standard.read "speed 100" = .ok (.speed 100.0) ∧ Float.isFinite 100.0 = true ∧ data ≠ [] ∧
      data.length < 2 ^ 64 ∧
      Stays (recorder true {}) 0 ((starting 0 100.0).rounds data.length none) data 0 (starting 0 100.0, [], {}) ∧
      (((sink (recorder true {}).logged).write data).run none 0 (starting 0 100.0, [], {})).time = 12 * pause := by
  intro data
  have hread : Registry.standard.read "speed 100" = .ok (.speed 100.0) :=
    Registry.read_speed "100" (by decide +kernel) (by decide +kernel) (by decide +kernel)
  have hfinite : Float.isFinite 100.0 = true := by decide +kernel
  have hlength : data.length = 600 := List.length_replicate
  have hdata : data ≠ [] := List.ne_nil_of_length_pos (by omega)
  have hsize : data.length < 2 ^ 64 := by omega
  obtain ⟨last, time, final, hleast, hwrite, hiff, hbusy⟩ :=
    full_rate_iff hread hfinite (prompt_recorder true) rfl hdata hsize 0 {}
  have htwelve : last = 12 := by
    refine hleast.unique ⟨?_, fun k hk => ?_⟩
    · show data.length ≤ due 100.0 0 12
      rw [hlength]
      decide +kernel
    · by_contra hless
      have hsmall : ∀ k < 12, due 100.0 0 k < 600 := by decide +kernel
      have hk' : data.length ≤ due 100.0 0 k := hk
      have := hsmall k (not_le.mp hless)
      omega
  obtain ⟨hstays, htime⟩ := hiff.mpr (hbusy (by decide +kernel) (by omega))
  refine ⟨hread, hfinite, hdata, hsize, hstays, ?_⟩
  rw [hwrite, htime, htwelve, look_of_dvd (by decide)]
  rfl

/-- At eleven tenths of a byte in a second a writer is taken for idle after six seconds and a half: the six tenths of a
byte that it could not send after six seconds and what half a second is worth are more than what a second is worth. -/
theorem not_full_rate :
    ¬∀ (command : String) (rate : Float), Registry.standard.read command = .ok (.speed rate) → rate.isFinite = true →
      ∀ (data : Bytes) (last : ℕ), data ≠ [] → IsLeast {k | data.length ≤ quota rate (k * pause)} last →
        Stays (recorder true {}) 0 ((starting 0 rate).rounds data.length none) data 0 (starting 0 rate, [], {}) ∧
          (((sink (recorder true {}).logged).write data).run none 0 (starting 0 rate, [], {})).time = last * pause := by
  intro h
  have hread : Registry.standard.read "speed 1.1" = .ok (.speed 1.1) :=
    Registry.read_speed "1.1" (by decide +kernel) (by decide +kernel) (by decide +kernel)
  have hleast : IsLeast {k | (List.replicate 8 (0 : UInt8)).length ≤ quota 1.1 (k * pause)} 15 := by
    refine ⟨?_, fun k hk => ?_⟩
    · show (List.replicate 8 (0 : UInt8)).length ≤ quota 1.1 (15 * pause)
      decide +kernel
    · by_contra hless
      have hsmall : ∀ k < 15, ¬(List.replicate 8 (0 : UInt8)).length ≤ quota 1.1 (k * pause) := by decide +kernel
      exact hsmall k (not_le.mp hless) hk
  have htime := (h "speed 1.1" 1.1 hread (by decide +kernel) (List.replicate 8 0) 15 (by decide) hleast).2
  exact absurd htime (by decide +kernel)

end Meter

end Stream

end TrafficPolicy
