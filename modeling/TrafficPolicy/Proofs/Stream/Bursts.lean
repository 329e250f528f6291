import TrafficPolicy.Proofs.Stream.Budget
import TrafficPolicy.Proofs.Stream.Passes

/-!
# Time that is not used is not saved up

However the writes of a caller and the waits before them follow each other, no more is sent in a window than it is
worth, and a window begins anew only if its writer is idle. What may still be sent at one moment is therefore never
more than five seconds are worth: each round takes what it sends from it, and only the clock brings something new.
-/

namespace TrafficPolicy

namespace Stream

open Call Number

namespace Meter

variable {σ : Type} {inner : Sink σ} {m next last : Meter} {rate : Float} {r : ℚ} {now later time count k t : ℕ}

/-- At a finite rate no more has been sent in the window than it is worth. -/
structure Covered (r : ℚ) (m : Meter) (now : ℕ) : Prop where
  rated : m.Rated r
  started : m.windowStart ≤ now
  few : m.written < 2 ^ 53
  le_worth : (m.written : ℚ) ≤ worth r (now - m.windowStart)

theorem Covered.rounded_written (h : m.Covered r now) : rounded m.written = m.written := rounded_natCast h.few.le

theorem Covered.rounded_le (h : m.Covered r now) : rounded m.written ≤ worth r (now - m.windowStart) :=
  h.rounded_written.le.trans h.le_worth

theorem Covered.word (h : m.Covered r now) : m.written < 2 ^ 64 := h.few.trans (by decide)

theorem Covered.le_budget (h : m.Covered r now) : Float.ofNat m.written ≤ m.budget (now - m.windowStart) :=
  ((holds_ofNat _).le_iff (h.rated.holds_budget _)).mpr h.rounded_le

theorem Rated.covered_starting (h : m.Rated r) (now : ℕ) : (starting now m.rate).Covered r now :=
  ⟨h.of_rate rfl, le_rfl, by simp [starting], by simpa [starting] using worth_nonneg r _⟩

theorem Covered.mono (h : m.Covered r now) (hlater : now ≤ later) : m.Covered r later :=
  ⟨h.rated, h.started.trans hlater, h.few, h.le_worth.trans (worth_mono h.rated.nonneg (Nat.sub_le_sub_right hlater _))⟩

theorem Covered.refresh (h : m.Covered r now) : (m.refresh now).Covered r now := by
  unfold Meter.refresh
  split
  · exact h.rated.covered_starting now
  · exact h

/-- What may be sent is what the window is worth beyond what has been sent. -/
theorem Covered.add (h : m.Covered r now) (hcount : m.allowance now = some count) (hk : k ≤ count)
    (hfew : m.written + k < 2 ^ 53) : (m.add k).Covered r now := by
  refine ⟨h.rated.of_rate rfl, h.started, hfew, ?_⟩
  show ((m.written + k : ℕ) : ℚ) ≤ worth r (now - m.windowStart)
  rcases le_or_gt (2 ^ 53) (worth r (now - m.windowStart)) with hlarge | hsmall
  · refine le_trans ?_ hlarge
    exact_mod_cast hfew.le
  · have hexact := (h.rated.holds_budget (now - m.windowStart)).representable.sub_natCast h.le_worth hsmall.le
    have hfinite := hsmall.trans two_pow_lt_tooLarge
    have hleft : left r m now = worth r (now - m.windowStart) - m.written := by
      have hle := (sub_le_self _ (Nat.cast_nonneg m.written)).trans hfinite.le
      rw [left, if_pos hfinite, h.rounded_written, hexact.rounded_eq hle]
    rw [h.rated.allowance_eq h.word h.rounded_le] at hcount
    split at hcount
    · cases hcount
    · obtain rfl := Option.some.inj hcount
      have hfloor : (k : ℚ) ≤ left r m now := by
        have hsent : (0 : ℚ) ≤ left r m now := by rw [hleft]; exact hexact.nonneg
        exact (Nat.cast_le.mpr (hk.trans (min_le_left _ _))).trans (Nat.floor_le hsent)
      rw [hleft, le_sub_iff_add_le'] at hfloor
      exact_mod_cast hfloor

/-! ## What may be sent at one moment -/

def room (r : ℚ) (m : Meter) (now : ℕ) : ℚ :=
  if m.isIdle now then 0 else worth r (now - m.windowStart) - m.written

theorem Covered.room_nonneg (h : m.Covered r now) : 0 ≤ room r m now := by
  unfold room
  split
  · exact le_rfl
  · exact sub_nonneg.mpr h.le_worth

theorem Covered.room_le (h : m.Covered r now) : room r m now ≤ worth r idleAge := by
  unfold room
  split
  · exact worth_nonneg r _
  · rename_i hidle
    rw [h.rated.isIdle_iff h.word h.rounded_le, not_and, not_lt] at hidle
    rcases Nat.lt_or_ge idleAge (now - m.windowStart) with hold | hyoung
    · have hleft := hidle hold
      unfold left at hleft
      split at hleft
      · -- What is more than the worth of five seconds is not rounded to what one second is worth.
        rw [h.rounded_written] at hleft
        by_contra hmore
        have hrepresentable := (h.rated.holds_budget idleAge).representable
        have hrounded := hrepresentable.le_rounded (not_le.mp hmore).le (worth_le r idleAge)
        exact absurd (h.rated.lt_worth_idleAge.trans_le hrounded) (not_lt.mpr hleft)
      · exact absurd h.rated.lt_tooLarge (not_lt.mpr hleft)
    · exact (sub_le_self _ (Nat.cast_nonneg _)).trans (worth_mono h.rated.nonneg hyoung)

/-- What may still be sent at some moment: nothing in the past, and later at most what a window may save up. -/
def capacity (r : ℚ) (m : Meter) (now t : ℕ) : ℚ :=
  if t < now then 0 else if t = now then room r m now else worth r idleAge

theorem Covered.capacity_nonneg (h : m.Covered r now) (t : ℕ) : 0 ≤ capacity r m now t := by
  unfold capacity
  split
  · exact le_rfl
  · split
    · exact h.room_nonneg
    · exact worth_nonneg r _

theorem Covered.capacity_le (h : m.Covered r now) (t : ℕ) : capacity r m now t ≤ worth r idleAge := by
  unfold capacity
  split
  · exact worth_nonneg r _
  · split
    · exact h.room_le
    · exact le_rfl

/-- After the clock has moved nothing more can be sent at the moment before. -/
theorem Covered.capacity_later (h : m.Covered r now) (hnext : next.Covered r later) (hlater : now < later) (t : ℕ) :
    capacity r next later t ≤ capacity r m now t := by
  rcases Nat.lt_or_ge now t with hmore | hless
  · have hcapacity : capacity r m now t = worth r idleAge := by
      rw [capacity, if_neg (by omega), if_neg (by omega)]
    rw [hcapacity]
    exact hnext.capacity_le t
  · have hpast : capacity r next later t = 0 := by rw [capacity, if_pos (by omega)]
    rw [hpast]
    exact h.capacity_nonneg t

theorem Covered.refresh_of_allowance (h : m.Covered r now) (hcount : (m.refresh now).allowance now = some count) :
    m.isIdle now = false ∧ m.refresh now = m := by
  unfold Meter.refresh at hcount ⊢
  split at hcount
  · have hnone : (starting now m.rate).allowance now = some count := hcount
    rw [h.rated.allowance_starting] at hnone
    cases hnone
  · rename_i hidle
    exact ⟨by simpa using hidle, if_neg hidle⟩

/-- What is sent is taken from what may still be sent at the moment. -/
theorem capacity_add (hidle : m.isIdle now = false) (hadd : (m.add k).Covered r now) :
    k + capacity r (m.add k) now now ≤ capacity r m now now := by
  have hroom : ∀ m : Meter, capacity r m now now = room r m now := fun m => by
    rw [capacity, if_neg (lt_irrefl _), if_pos rfl]
  have hworth : ((m.written + k : ℕ) : ℚ) ≤ worth r (now - m.windowStart) := hadd.le_worth
  have hroom' : room r m now = worth r (now - m.windowStart) - m.written := by
    rw [room, hidle]
    rfl
  have hadded : room r (m.add k) now ≤ worth r (now - m.windowStart) - (m.written + k : ℕ) := by
    unfold room
    split
    · exact sub_nonneg.mpr hworth
    · exact le_rfl
  rw [hroom, hroom, hroom']
  push_cast at hadded
  linarith

/-! ## Rounds -/

/-- No more has been sent in the window than it is worth, and the window begins anew only for an idle writer: it is
older than five seconds, and more than what a second is worth has not been used. Then nothing is sent. -/
structure Pass.Sound (p : Pass) : Prop where
  le_budget : Float.ofNat p.after.written ≤ p.after.budget (p.time - p.after.windowStart)
  window : p.before.isIdle p.time = false ∧ p.after = p.before.add p.bytes.length ∨
    (idleAge < p.time - p.before.windowStart ∧ p.before.unused p.time > p.before.budget idleSlack) ∧
      p.after = starting p.time p.before.rate ∧ p.asked = []

/-- The bytes that rounds hand on at some moment. -/
def sentAt (t : ℕ) (passes : List Pass) : ℕ := ((passes.filter (·.time = t)).flatMap Pass.bytes).length

@[simp] theorem sentAt_nil (t : ℕ) : sentAt t [] = 0 := rfl

@[simp] theorem sentAt_append (t : ℕ) (first second : List Pass) :
    sentAt t (first ++ second) = sentAt t first + sentAt t second := by
  simp [sentAt]

theorem sentAt_cons (t : ℕ) (p : Pass) (passes : List Pass) :
    sentAt t (p :: passes) = (if p.time = t then p.bytes.length else 0) + sentAt t passes := by
  unfold sentAt
  rw [List.filter_cons]
  split <;> simp_all

/-- Some rounds from one moment to another, and what they leave of what may be sent. -/
structure Accounted (r : ℚ) (m : Meter) (now : ℕ) (passes : List Pass) (last : Meter) (time : ℕ) : Prop where
  linked : Linked m passes last
  sound : ∀ p ∈ passes, p.Sound
  covered : last.Covered r time
  written : last.written ≤ m.written + (passes.flatMap Pass.bytes).length
  spent : ∀ t, sentAt t passes + capacity r last time t ≤ capacity r m now t

theorem Covered.accounted_nil (h : m.Covered r now) (hnext : m.Covered r later) (hlater : now ≤ later) :
    Accounted r m now [] m later where
  linked := rfl
  sound := by simp
  covered := hnext
  written := Nat.le_add_right _ _
  spent t := by
    rw [sentAt_nil, Nat.cast_zero, zero_add]
    rcases hlater.eq_or_lt with rfl | hlt
    · exact le_rfl
    · exact h.capacity_later hnext hlt t

theorem Accounted.append {first second : List Pass} (hfirst : Accounted r m now first next later)
    (hsecond : Accounted r next later second last time) : Accounted r m now (first ++ second) last time where
  linked := hfirst.linked.append hsecond.linked
  sound p hp := (List.mem_append.mp hp).elim (hfirst.sound p) (hsecond.sound p)
  covered := hsecond.covered
  written := by
    have h := hfirst.written
    have h' := hsecond.written
    rw [List.flatMap_append, List.length_append]
    omega
  spent t := by
    have h := hfirst.spent t
    have h' := hsecond.spent t
    rw [sentAt_append, Nat.cast_add]
    linarith

/-- A round that waits may let the window begin anew. -/
theorem Covered.accounted_waiting (h : m.Covered r now) (hlater : now < later) :
    Accounted r m now [waiting m now] (m.refresh now) later where
  linked := ⟨rfl, rfl⟩
  sound p hp := by
    obtain rfl := List.mem_singleton.mp hp
    refine ⟨h.refresh.le_budget, ?_⟩
    show m.isIdle now = false ∧ m.refresh now = m.add 0 ∨ _ ∧ m.refresh now = starting now m.rate ∧ _
    cases hidle : m.isIdle now with
    | false => exact .inl ⟨rfl, by rw [Meter.refresh, hidle]; rfl⟩
    | true =>
      simp only [isIdle, Bool.and_eq_true, decide_eq_true_eq] at hidle
      exact .inr ⟨hidle, by rw [Meter.refresh, isIdle, decide_eq_true hidle.1, decide_eq_true hidle.2]; rfl, rfl⟩
  covered := h.refresh.mono hlater.le
  written := (m.written_refresh_le now).trans (Nat.le_add_right _ _)
  spent t := by
    have hcapacity := h.capacity_later (h.refresh.mono hlater.le) hlater t
    simpa [sentAt_cons] using hcapacity

/-- A round that hands a piece on takes it from what may be sent. -/
theorem Covered.accounted_sending (h : m.Covered r now) (hcount : (m.refresh now).allowance now = some count)
    {piece : Bytes} (hpiece : piece.length ≤ count) (hfew : m.written + piece.length < 2 ^ 53) :
    Accounted r m now [sending m now piece] ((m.refresh now).add piece.length) now := by
  obtain ⟨hidle, hrefresh⟩ := h.refresh_of_allowance hcount
  rw [hrefresh] at hcount ⊢
  have hadd := h.add hcount hpiece hfew
  have hsending : sending m now piece = ⟨now, m, m.add piece.length, sent [piece]⟩ := by rw [sending, hrefresh]
  refine ⟨⟨rfl, congrArg Pass.after hsending⟩, fun p hp => ?_, hadd, ?_, fun t => ?_⟩
  · obtain rfl := List.mem_singleton.mp hp
    refine ⟨?_, .inl ⟨hidle, ?_⟩⟩
    · rw [hsending]
      exact hadd.le_budget
    · rw [bytes_sending, hsending]
  · show m.written + piece.length ≤ _
    simp
  · rw [sentAt_cons, bytes_sending, sentAt_nil, add_zero]
    show ((if now = t then piece.length else 0 : ℕ) : ℚ) + _ ≤ _
    by_cases hnow : now = t
    · subst hnow
      rw [if_pos rfl]
      exact capacity_add hidle hadd
    · have hsame : capacity r (m.add piece.length) now t = capacity r m now t := by
        unfold capacity
        split
        · rfl
        · rw [if_neg (Ne.symm hnow), if_neg (Ne.symm hnow)]
      rw [if_neg hnow, hsame, Nat.cast_zero, zero_add]

/-! ## Writes -/

/-- The rounds of a write that ends well. -/
theorem Covered.accounted_passes (hinner : inner.Prompt) {rounds : ℕ} {rest : Bytes} {log : List Action} {s : σ}
    {last : Meter × List Action × σ} (h : m.Covered r now) (hfew : m.written + rest.length < 2 ^ 53)
    (hrun : repeatRun (round inner.logged) none rounds rest now (m, log, s) = ⟨.ok (), time, last⟩) :
    Accounted r m now (passes inner rounds rest now (m, log, s)) last.1 time ∧
      last.2.1 = log ++ (passes inner rounds rest now (m, log, s)).flatMap Pass.asked ∧
      (passes inner rounds rest now (m, log, s)).flatMap Pass.bytes = rest := by
  induction rounds generalizing rest now m log s with
  | zero => cases congrArg Ended.verdict hrun
  | succ rounds ih =>
    by_cases hrest : rest = []
    · subst hrest
      rw [passes_nil]
      have hstate : last = (m, log, s) := (congrArg Ended.state hrun).symm
      have htime : time = now := (congrArg Ended.time hrun).symm
      subst hstate htime
      exact ⟨h.accounted_nil h le_rfl, (List.append_nil log).symm, rfl⟩
    cases hallowance : (m.refresh now).allowance now with
    | none =>
      have hlater : now < Clock.wake now (now + pause) :=
        (Nat.lt_add_of_pos_right (by decide)).trans_le (Clock.deadline_le_wake now (now + pause))
      have hwaiting := h.accounted_waiting hlater
      simp only [repeatRun, round_wait hrest hallowance] at hrun
      obtain ⟨haccounted, hlog, hbytes⟩ := ih hwaiting.covered
        ((Nat.add_le_add_right (m.written_refresh_le now) _).trans_lt hfew) hrun
      rw [passes_wait hrest hallowance]
      exact ⟨hwaiting.append haccounted, hlog, hbytes⟩
    | some count =>
      obtain ⟨t, hround⟩ := round_send hinner hrest hallowance log s
      have hsplit : (rest.take count).length + (rest.drop count).length = rest.length := by
        rw [← List.length_append, List.take_append_drop]
      have hsending := h.accounted_sending hallowance (List.length_take_le count rest) (by omega)
      simp only [repeatRun, hround] at hrun
      have hwritten := m.written_refresh_le now
      obtain ⟨haccounted, hlog, hbytes⟩ := ih hsending.covered
        (show (m.refresh now).written + (rest.take count).length + (rest.drop count).length < 2 ^ 53 by omega) hrun
      rw [passes_send hround]
      refine ⟨hsending.append haccounted, ?_, ?_⟩
      · rw [hlog, List.append_assoc]
        rfl
      · rw [List.flatMap_cons, bytes_sending, hbytes, List.take_append_drop]

/-- The rounds of all writes of a caller. -/
theorem Covered.accounted_passesOn (hinner : inner.Prompt) (hdivisible : inner.divisible = true)
    {writes : List (ℕ × Bytes)} (h : m.Covered r now)
    (hfew : m.written + (writes.flatMap Prod.snd).length < 2 ^ 53) (log : List Action) (s : σ) :
    ∃ time last, (sink inner.logged).pushAll none (writes.map fun w => (w.1, .write w.2)) now (m, log, s) =
        ⟨.ok (), time, last⟩ ∧
      Accounted r m now (passesOn inner writes now (m, log, s)) last.1 time ∧
      last.2.1 = log ++ (passesOn inner writes now (m, log, s)).flatMap Pass.asked ∧
      (passesOn inner writes now (m, log, s)).flatMap Pass.bytes = writes.flatMap Prod.snd := by
  induction writes generalizing m now log s with
  | nil => exact ⟨now, (m, log, s), rfl, h.accounted_nil h le_rfl, (List.append_nil log).symm, rfl⟩
  | cons entry writes ih =>
    obtain ⟨wait, data⟩ := entry
    have htotal : m.written + (data.length + (writes.flatMap Prod.snd).length) < 2 ^ 53 := by
      rwa [List.flatMap_cons, List.length_append] at hfew
    have hbegin := h.mono (Nat.le_add_right now wait)
    obtain ⟨middle, ⟨next, log', s'⟩, -, hwrite⟩ := exists_write hinner hdivisible (hbegin.rated.live hbegin.started)
      (show m.written + data.length < 2 ^ 64 by omega) log s
    have hrun := hwrite
    rw [write_run hdivisible] at hrun
    obtain ⟨hfirst, hlog, hbytes⟩ := hbegin.accounted_passes hinner
      (show m.written + data.length < 2 ^ 53 by omega) hrun
    have hwritten : next.written ≤ m.written + _ := hfirst.written
    rw [hbytes] at hwritten
    obtain ⟨time, last, hpush, hrest, hlog', hbytes'⟩ := ih hfirst.covered
      (show next.written + _ < 2 ^ 53 by omega) log' s'
    have hpasses : passesOn inner ((wait, data) :: writes) now (m, log, s) =
        passes inner (m.rounds data.length none) data (now + wait) (m, log, s) ++
          passesOn inner writes middle (next, log', s') := by
      simp only [passesOn, hwrite]
    refine ⟨time, last, ?_, ?_, ?_, ?_⟩
    · simp only [List.map_cons, Sink.pushAll, Sink.push, hwrite]
      exact hpush
    · rw [hpasses]
      exact ((h.accounted_nil hbegin (Nat.le_add_right now wait)).append hfirst).append hrest
    · rw [hpasses, hlog', show log' = _ from hlog, List.flatMap_append, List.append_assoc]
    · rw [hpasses, List.flatMap_append, hbytes, hbytes']
      rfl

/-- At a finite rate of at least one byte in a second the writes of a caller get through, however long it waits before
each of them. In each round no more has been sent in the window than it is worth, and the window begins anew only for
an idle writer. So at no moment more is sent than what five seconds are worth. -/
theorem idle_time_not_saved_up (hinner : inner.Prompt) (hdivisible : inner.divisible = true) (hrate : 1.0 ≤ rate)
    (hfinite : rate.isFinite = true) (start : ℕ) {writes : List (ℕ × Bytes)}
    (hfew : (writes.flatMap Prod.snd).length < 2 ^ 53) (s : σ) :
    let rounds := passesOn inner writes start (starting start rate, [], s)
    (∃ time last, (sink inner.logged).pushAll none (writes.map fun w => (w.1, .write w.2)) start
          (starting start rate, [], s) = ⟨.ok (), time, last⟩ ∧
        Linked (starting start rate) rounds last.1 ∧ last.2.1 = rounds.flatMap Pass.asked ∧
        rounds.flatMap Pass.bytes = writes.flatMap Prod.snd) ∧
      (∀ p ∈ rounds, p.Sound) ∧
      ∀ t, Float.ofNat (sentAt t rounds) ≤ (starting start rate).budget idleAge := by
  intro rounds
  obtain ⟨r, hholds, hone⟩ := exists_holds_of_one_le hrate
  have hr : (starting start rate).Rated r := ⟨hholds, hone, hholds.isFinite_iff.mp hfinite⟩
  have hstart : (starting start rate).Covered r start := hr.covered_starting start
  obtain ⟨time, last, hpush, haccounted, hlog, hbytes⟩ := hstart.accounted_passesOn hinner hdivisible
    ((Nat.zero_add _).trans_lt hfew) [] s
  refine ⟨⟨time, last, hpush, haccounted.linked, hlog, hbytes⟩, haccounted.sound, fun t => ?_⟩
  have hsent : (sentAt t rounds : ℚ) ≤ worth r idleAge :=
    (le_add_of_nonneg_right (haccounted.covered.capacity_nonneg t)).trans
      ((haccounted.spent t).trans (hstart.capacity_le t))
  have hbudget := hr.holds_budget idleAge
  exact ((holds_ofNat _).le_iff hbudget).mpr (hbudget.representable.rounded_le (Nat.cast_nonneg _) hsent)

/-- A minute without writes between two writes at a hundred bytes in a second. -/
theorem idle_minute_not_saved_up :
    let writes : List (ℕ × Bytes) := [(0, List.replicate 50 0), (60 * Duration.nanosPerSecond, List.replicate 1000 0)]
    let rounds := passesOn (recorder true {}) writes 0 (starting 0 100.0, [], {})
    (1.0 : Float) ≤ 100.0 ∧ Float.isFinite 100.0 = true ∧ (writes.flatMap Prod.snd).length < 2 ^ 53 ∧
      (rounds.flatMap Pass.bytes).length = 1050 ∧ (∀ p ∈ rounds, p.Sound) ∧
      ∀ t, Float.ofNat (sentAt t rounds) ≤ (starting 0 100.0).budget idleAge := by
  intro writes rounds
  have hrate : (1.0 : Float) ≤ 100.0 := by decide +kernel
  have hfinite : Float.isFinite 100.0 = true := by decide +kernel
  have htotal : (writes.flatMap Prod.snd).length = 1050 := by
    simp only [writes, List.flatMap_cons, List.flatMap_nil, List.length_append, List.length_replicate, List.length_nil]
  have hfew : (writes.flatMap Prod.snd).length < 2 ^ 53 := by
    rw [htotal]
    decide
  obtain ⟨⟨time, last, -, -, -, hbytes⟩, hsound, hsent⟩ :=
    idle_time_not_saved_up (prompt_recorder true) rfl hrate hfinite 0 hfew {}
  exact ⟨hrate, hfinite, hfew, hbytes.symm ▸ htotal, hsound, hsent⟩

end Meter

end Stream

end TrafficPolicy
