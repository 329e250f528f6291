import TrafficPolicy.Proofs.Grammar.Quantities
import TrafficPolicy.Proofs.Stream.Pieces
import TrafficPolicy.Stream.Meter

/-!
# A limit to the rate lets everything through

Over a sink that takes every call at once, each round of a write under a limit sends a byte or waits, and all bytes
are sent after some rounds. The one exception is a rate that is infinite: at the moment at which its window begins what
may be sent is no number, and the rounds send nothing and do not wait.
-/

namespace TrafficPolicy

namespace Stream

open Call Number Float.Model.UnpackedFloat

namespace Meter

variable {σ : Type} {inner : Sink σ} {m : Meter} {now later count k : Nat}

/-! ## What may be sent at a time -/

/-- A limit that will let bytes through: its rate is a number, and if it is infinite then some time has passed since
the start of the window. -/
structure Live (m : Meter) (now : Nat) : Prop where
  rate : AtLeast 0 (partsOf m.rate)
  started : m.windowStart ≤ now
  moving : m.rate.isFinite = true ∨ m.windowStart < now

/-- The rate is finite, or some time of a window with an infinite rate has passed. -/
theorem Live.cases (h : m.Live now) :
    (∃ n e hn, partsOf m.rate = .finite .positive n e hn) ∨
      partsOf m.rate = .infinity .positive ∧ m.windowStart < now := by
  rcases h.rate.cases with hrate | hrate
  · exact .inl hrate
  · have hmoving := h.moving
    rw [isFinite_eq, hrate] at hmoving
    exact .inr ⟨hrate, hmoving.resolve_left nofun⟩

/-- With an infinite rate all is unused as soon as some time has passed. -/
theorem unused_infinite (hrate : partsOf m.rate = .infinity .positive) (hmoving : m.windowStart < now)
    (hwritten : m.written < 2 ^ 64) : partsOf (m.unused now) = .infinity .positive := by
  have hbudget : partsOf (m.budget (now - m.windowStart)) = .infinity .positive :=
    mul_infinity (Duration.secondsOf_pos (by omega)) hrate
  exact infinity_sub hbudget (below_ofNat hwritten (by decide))

theorem Live.unused_ne_notANumber (h : m.Live now) (hwritten : m.written < 2 ^ 64) :
    partsOf (m.unused now) ≠ .notANumber := by
  rcases h.cases with ⟨n, e, hn, hrate⟩ | ⟨hrate, hmoving⟩
  · have hbudget : Nonneg (partsOf (m.budget (now - m.windowStart))) := (Duration.nonneg_secondsOf _).mul hrate
    exact hbudget.sub_ne_notANumber (below_ofNat hwritten (by decide))
  · rw [unused_infinite hrate hmoving hwritten]
    nofun

/-- If bytes may be sent, it is at least one. -/
theorem Live.one_le_of_allowance (h : m.Live now) (hwritten : m.written < 2 ^ 64)
    (hcount : m.allowance now = some count) : 1 ≤ count := by
  unfold allowance at hcount
  dsimp only at hcount
  split at hcount
  · cases hcount
  · rename_i hunused
    cases hcount
    exact (atLeast_of_not_lt_one (h.unused_ne_notANumber hwritten) hunused).one_le_toUInt64

/-- At a rate of at least one byte in a second, four seconds for each byte that has been sent are enough. -/
theorem allowance_ne_none (hrate : AtLeast 0 (partsOf m.rate)) (hwritten : m.written < 2 ^ k) (hk : k ≤ 64)
    (hage : 2 ^ (k + 2) * Duration.nanosPerSecond ≤ now - m.windowStart) : m.allowance now ≠ none := by
  have hbudget : AtLeast (((k + 2 : Nat) : Int) + 0) (partsOf (m.budget (now - m.windowStart))) :=
    (Duration.atLeast_secondsOf hage).mul hrate (by omega) (by omega) (by omega)
  have hunused : AtLeast ((k : Int) + 1) (partsOf (m.unused now)) :=
    (hbudget.mono (by omega)).sub (below_ofNat hwritten (by omega)) (by omega)
  have hone := (hunused.mono (show (0 : Int) ≤ k + 1 by omega)).not_lt_one
  unfold allowance
  dsimp only
  rw [if_neg hone]
  nofun

theorem isIdle_infinite (hrate : partsOf m.rate = .infinity .positive) (hmoving : m.windowStart < now)
    (hwritten : m.written < 2 ^ 64) : m.isIdle now = false := by
  have hslack : partsOf (m.budget idleSlack) = .infinity .positive :=
    mul_infinity (Duration.secondsOf_pos (by decide)) hrate
  have hnot : ¬m.unused now > m.budget idleSlack := by
    rw [gt_iff_lt, lt_iff_compare, hslack, unused_infinite hrate hmoving hwritten]
    nofun
  simp only [isIdle, hnot, decide_false, Bool.and_false]

/-- A window that begins anew is live. -/
theorem Live.refresh (h : m.Live now) (hwritten : m.written < 2 ^ 64) : (m.refresh now).Live now := by
  rcases h.cases with ⟨n, e, hn, hrate⟩ | ⟨hrate, hmoving⟩
  · unfold Meter.refresh
    split
    · exact ⟨h.rate, Nat.le_refl _, .inl (by rw [isFinite_eq, hrate]; rfl)⟩
    · exact h
  · rw [Meter.refresh, isIdle_infinite hrate hmoving hwritten]
    exact h

theorem Live.mono (h : m.Live now) (hlater : now ≤ later) : m.Live later :=
  ⟨h.rate, h.started.trans hlater, h.moving.imp_right hlater.trans_lt'⟩

theorem Live.add (h : m.Live now) (count : Nat) : (m.add count).Live now :=
  ⟨h.rate, h.started, h.moving⟩

theorem written_refresh_le (m : Meter) (now : Nat) : (m.refresh now).written ≤ m.written := by
  unfold refresh
  split <;> simp

/-! ## How often a writer waits -/

/-- The age of the window in waits of a writer. -/
def pauses (m : Meter) (now : Nat) : Nat := (now - m.windowStart) / pause

theorem pauses_wake (hstarted : m.windowStart ≤ now) :
    m.pauses now < m.pauses (Clock.wake now (now + pause)) ∧
      m.pauses (Clock.wake now (now + pause)) ≤ m.pauses now + 2 := by
  have hlower := Clock.deadline_le_wake now (now + pause)
  have hupper : Clock.wake now (now + pause) < now + pause + Clock.tick := by
    unfold Clock.wake Clock.roundUp Clock.tick
    split <;> omega
  unfold pauses
  generalize Clock.wake now (now + pause) = next at *
  simp only [pause, Clock.tick] at *
  omega

/-- Eight waits for each byte that has been sent are enough. -/
theorem pauses_lt_of_none (hrate : AtLeast 0 (partsOf m.rate)) (hwritten : m.written < 2 ^ k) (hk : k ≤ 64)
    (hnone : m.allowance now = none) : m.pauses now < 2 ^ (k + 3) := by
  have hage : ¬2 ^ (k + 2) * Duration.nanosPerSecond ≤ now - m.windowStart :=
    fun hage => allowance_ne_none hrate hwritten hk hage hnone
  have hpauses : 2 ^ (k + 2) * Duration.nanosPerSecond = 2 ^ (k + 3) * pause := by
    rw [Nat.pow_succ 2 (k + 2), Nat.mul_assoc]
    rfl
  rw [pauses, Nat.div_lt_iff_lt_mul (by decide)]
  omega

theorem pauses_of_isIdle (hidle : m.isIdle now = true) : 10 ≤ m.pauses now := by
  simp only [isIdle, Bool.and_eq_true, decide_eq_true_eq] at hidle
  have hage := hidle.1
  rw [pauses, Nat.le_div_iff_mul_le (by decide)]
  exact hage.le

/-- A bound on how often a writer waits from now on until it may send, if fewer than `2 ^ k` bytes have been sent. A
window in which nothing has been sent lets something through before it is old enough to begin anew. -/
def waits (k : Nat) (m : Meter) (now : Nat) : Nat :=
  if m.written = 0 ∧ m.pauses now < 10 then 10 - m.pauses now else 10 + (2 ^ (k + 3) - m.pauses now)

theorem waits_le (k : Nat) (m : Meter) (now : Nat) : waits k m now ≤ 10 + 2 ^ (k + 3) := by
  unfold waits
  have hpos := Nat.two_pow_pos (k + 3)
  split <;> omega

/-- After each wait there are fewer left. -/
theorem waits_lt (h : m.Live now) (hwritten : m.written < 2 ^ k) (hk : k ≤ 64)
    (hnone : (m.refresh now).allowance now = none) :
    waits k (m.refresh now) (Clock.wake now (now + pause)) < waits k m now := by
  unfold refresh at hnone ⊢
  split at hnone
  · -- A window that has begun anew counts for less than any old one.
    rename_i hidle
    have hold := pauses_of_isIdle hidle
    obtain ⟨hmore, hless⟩ := pauses_wake (m := { m with written := 0, windowStart := now }) (Nat.le_refl now)
    have hnew : pauses { m with written := 0, windowStart := now } now = 0 := by simp [pauses]
    rw [if_pos hidle, waits, waits, if_pos ⟨rfl, by omega⟩, if_neg (by omega)]
    omega
  · rename_i hidle
    obtain ⟨hmore, hless⟩ := pauses_wake h.started
    rw [if_neg hidle, waits, waits]
    by_cases hzero : m.written = 0 ∧ m.pauses now < 10
    · have hfresh := pauses_lt_of_none (k := 0) h.rate (by omega) (by omega) hnone
      rw [if_pos (by omega), if_pos hzero]
      omega
    · have hcold := pauses_lt_of_none h.rate hwritten hk hnone
      rw [if_neg (by omega), if_neg hzero]
      omega

/-- A bound on the rounds of a write that has `length` bytes left. -/
def roundsLeft (k : Nat) (m : Meter) (length now : Nat) : Nat := length * (11 + 2 ^ (k + 3)) + waits k m now

theorem roundsLeft_wait (h : m.Live now) (hwritten : m.written < 2 ^ k) (hk : k ≤ 64)
    (hnone : (m.refresh now).allowance now = none) (length : Nat) :
    roundsLeft k (m.refresh now) length (Clock.wake now (now + pause)) < roundsLeft k m length now :=
  Nat.add_lt_add_left (waits_lt h hwritten hk hnone) _

/-- After a byte has been sent there are fewer left, however many waits the next one takes. -/
theorem roundsLeft_send {length rest : Nat} (hless : rest < length) (k : Nat) (m next : Meter) (now : Nat) :
    roundsLeft k next rest now < roundsLeft k m length now := by
  have hwaits := waits_le k next now
  calc rest * (11 + 2 ^ (k + 3)) + waits k next now
      < (rest + 1) * (11 + 2 ^ (k + 3)) := by rw [Nat.succ_mul]; omega
    _ ≤ length * (11 + 2 ^ (k + 3)) := Nat.mul_le_mul_right _ hless
    _ ≤ roundsLeft k m length now := Nat.le_add_right _ _

/-- The rounds that a write may take are enough. -/
theorem roundsLeft_lt_rounds (m : Meter) (length now : Nat) :
    roundsLeft ((m.written + length).log2 + 1) m length now < m.rounds length none := by
  have hwaits := waits_le ((m.written + length).log2 + 1) m now
  have hpower : 2 ^ ((m.written + length).log2 + 1 + 3) ≤ 16 * (m.written + length) + 16 := by
    have hdouble : 2 ^ ((m.written + length).log2 + 1 + 3) = 2 ^ (m.written + length).log2 * 16 := Nat.pow_add 2 _ 4
    by_cases htotal : m.written + length = 0
    · simp [htotal]
    · have := Nat.log2_self_le htotal
      omega
  calc length * (11 + 2 ^ ((m.written + length).log2 + 1 + 3)) + waits ((m.written + length).log2 + 1) m now
      < (length + 1) * (11 + 2 ^ ((m.written + length).log2 + 1 + 3)) := by rw [Nat.succ_mul]; omega
    _ ≤ (length + 1) * (16 * (m.written + length) + 64) := Nat.mul_le_mul_left _ (by omega)
    _ ≤ m.rounds length none := (Nat.mul_le_mul_left _ (Nat.le_add_right _ _)).trans (Nat.le_add_right _ _)

/-! ## Rounds -/

theorem round_nil (inner : Sink σ) (now : Nat) (state : Meter × σ) :
    (round inner []).run none now state = ⟨.ok (.inr ()), now, state⟩ := rfl

/-- What a round does once the window that counts is known. -/
def proceed (inner : Sink σ) (rest : Bytes) (meter : Meter) : Option Nat → Call (Meter × σ) (Bytes ⊕ Unit)
  | none => do
    Call.sleep pause
    return .inl rest
  | some count => do
    Call.inner (inner.write (rest.take count))
    Call.inner inner.flush
    Call.setOwn (meter.add (rest.take count).length)
    return .inl (rest.drop count)

theorem round_run {rest : Bytes} (hrest : rest ≠ []) (inner : Sink σ) (m : Meter) (now : Nat) (s : σ) :
    (round inner rest).run none now (m, s) =
      (proceed inner rest (m.refresh now) ((m.refresh now).allowance now)).run none now (m.refresh now, s) := by
  obtain ⟨b, bytes, rfl⟩ := List.exists_cons_of_ne_nil hrest
  show (match (m.refresh now).allowance now with | none => _ | some count => _ : Call (Meter × σ) (Bytes ⊕ Unit)).run
    none now (m.refresh now, s) = _
  cases (m.refresh now).allowance now <;> rfl

/-- A round in which nothing may be sent waits. -/
theorem round_wait {rest : Bytes} (hrest : rest ≠ []) (hnone : (m.refresh now).allowance now = none) (inner : Sink σ)
    (s : σ) : (round inner rest).run none now (m, s) =
      ⟨.ok (.inl rest), Clock.wake now (now + pause), (m.refresh now, s)⟩ := by
  rw [round_run hrest, hnone, proceed, bind_run_of_ok (sleep_run pause now (m.refresh now, s))]
  rfl

/-- A round in which something may be sent sends it. -/
theorem round_send {rest : Bytes} (hinner : inner.Prompt) (hrest : rest ≠ [])
    (hcount : (m.refresh now).allowance now = some count) (log : List Action) (s : σ) :
    ∃ t, (round inner.logged rest).run none now (m, log, s) =
      ⟨.ok (.inl (rest.drop count)), now,
        ((m.refresh now).add (rest.take count).length, log ++ [.write (rest.take count), .flush], t)⟩ := by
  obtain ⟨t, hwrite⟩ := hinner.write (rest.take count) none now s
  obtain ⟨u, hflush⟩ := hinner.flush none now t
  refine ⟨u, ?_⟩
  rw [round_run hrest, hcount, proceed, Sink.handOn_run _ _ hwrite hflush]
  rfl

/-! ## Whole writes -/

/-- The rounds of a write send all its data. Each of them but the last hands some bytes on, followed by a flush, or
waits. -/
inductive Drains (inner : Sink σ) :
    Bytes → Nat → Meter × List Action × σ → Nat → Meter × List Action × σ → Prop
  | done {now : Nat} {state : Meter × List Action × σ} :
      (round inner.logged []).run none now state = ⟨.ok (.inr ()), now, state⟩ → Drains inner [] now state now state
  | send {piece rest : Bytes} {now time : Nat} {state next last : Meter × List Action × σ} : piece ≠ [] →
      (round inner.logged (piece ++ rest)).run none now state = ⟨.ok (.inl rest), now, next⟩ →
        next.2.1 = state.2.1 ++ [.write piece, .flush] → Drains inner rest now next time last →
          Drains inner (piece ++ rest) now state time last
  | wait {rest : Bytes} {now time : Nat} {state next last : Meter × List Action × σ} :
      (round inner.logged rest).run none now state = ⟨.ok (.inl rest), Clock.wake now (now + pause), next⟩ →
        next.2.1 = state.2.1 → Drains inner rest (Clock.wake now (now + pause)) next time last →
          Drains inner rest now state time last

/-- All that has been handed on are pieces of the data. -/
theorem Drains.exists_pieces {data : Bytes} {time : Nat} {state last : Meter × List Action × σ}
    (h : Drains inner data now state time last) :
    ∃ pieces, last.2.1 = state.2.1 ++ sent pieces ∧ pieces.flatten = data := by
  induction h with
  | done => exact ⟨[], by simp [sent], rfl⟩
  | @send piece rest now time state next last hpiece hround hlog _ ih =>
    obtain ⟨pieces, hlast, hflatten⟩ := ih
    exact ⟨piece :: pieces, by simp [hlast, hlog, sent], by simp [hflatten]⟩
  | wait hround hlog _ ih => rwa [hlog] at ih

/-- A live limit lets all data through. Each round makes the data that is left shorter, or the waits fewer. -/
theorem exists_drains (hinner : inner.Prompt) (hk : k ≤ 64) {fuel : Nat} {rest : Bytes} (hlive : m.Live now)
    (hsize : m.written + rest.length < 2 ^ k) (hfuel : roundsLeft k m rest.length now < fuel) (log : List Action)
    (s : σ) :
    ∃ time last, Drains inner rest now (m, log, s) time last ∧
      repeatRun (round inner.logged) none fuel rest now (m, log, s) = ⟨.ok (), time, last⟩ := by
  induction fuel generalizing rest now m log s with
  | zero => exact absurd hfuel (Nat.not_lt_zero _)
  | succ fuel ih =>
    by_cases hrest : rest = []
    · subst hrest
      exact ⟨now, _, .done (round_nil _ _ _), rfl⟩
    have hbelow : 2 ^ k ≤ 2 ^ 64 := Nat.pow_le_pow_right (by decide) hk
    have hrefresh := hlive.refresh (by omega)
    have hwritten := m.written_refresh_le now
    cases hallowance : (m.refresh now).allowance now with
    | none =>
      have hleft := roundsLeft_wait hlive (by omega) hk hallowance rest.length
      have hround := round_wait hrest hallowance inner.logged (log, s)
      obtain ⟨time, last, hdrains, hrun⟩ := ih (hrefresh.mono (Clock.le_wake now (now + pause)))
        (show (m.refresh now).written + rest.length < 2 ^ k by omega) (by omega) log s
      refine ⟨time, last, .wait hround rfl hdrains, ?_⟩
      simp only [repeatRun, hround, hrun]
    | some count =>
      have hcount := hrefresh.one_le_of_allowance (by omega) hallowance
      obtain ⟨t, hround⟩ := round_send hinner hrest hallowance log s
      have hpiece : rest.take count ≠ [] := by simp [hrest]; omega
      have hsplit : (rest.take count).length + (rest.drop count).length = rest.length := by
        rw [← List.length_append, List.take_append_drop]
      have hless := List.length_pos_of_ne_nil hpiece
      have hleft := roundsLeft_send (show (rest.drop count).length < rest.length by omega) k m
        ((m.refresh now).add (rest.take count).length) now
      obtain ⟨time, last, hdrains, hrun⟩ := ih (hrefresh.add (rest.take count).length)
        (show (m.refresh now).written + (rest.take count).length + (rest.drop count).length < 2 ^ k by omega)
        (by omega) (log ++ [.write (rest.take count), .flush]) t
      refine ⟨time, last, ?_, ?_⟩
      · have hsend : Drains inner (rest.take count ++ rest.drop count) now (m, log, s) time last :=
          .send hpiece (by rw [List.take_append_drop]; exact hround) rfl hdrains
        rwa [List.take_append_drop] at hsend
      · simp only [repeatRun, hround, hrun]

theorem write_run (hdivisible : inner.divisible = true) (data : Bytes) (now : Nat) (m : Meter) (log : List Action)
    (s : σ) : ((sink inner.logged).write data).run none now (m, log, s) =
      repeatRun (round inner.logged) none (m.rounds data.length none) data now (m, log, s) := by
  have hwrite : (sink inner.logged).write data = writeMetered inner.logged data := if_pos hdivisible
  rw [hwrite]
  rfl

/-- A live limit passes a write on. -/
theorem exists_write (hinner : inner.Prompt) (hdivisible : inner.divisible = true) (hlive : m.Live now) {data : Bytes}
    (hsize : m.written + data.length < 2 ^ 64) (log : List Action) (s : σ) :
    ∃ time last, Drains inner data now (m, log, s) time last ∧
      ((sink inner.logged).write data).run none now (m, log, s) = ⟨.ok (), time, last⟩ := by
  have hbits : (m.written + data.length).log2 + 1 ≤ 64 := by
    by_cases htotal : m.written + data.length = 0
    · simp [htotal]
    · exact (Nat.log2_lt htotal).mpr hsize
  rw [write_run hdivisible]
  exact exists_drains hinner hbits hlive Nat.lt_log2_self (roundsLeft_lt_rounds m data.length now) log s

/-- Nothing to write is written at once, whatever the limit. -/
theorem write_nil (hdivisible : inner.divisible = true) (now : Nat) (m : Meter) (log : List Action) (s : σ) :
    ((sink inner.logged).write []).run none now (m, log, s) = ⟨.ok (), now, (m, log, s)⟩ := by
  have hrounds := roundsLeft_lt_rounds m 0 now
  rw [write_run hdivisible]
  cases h : m.rounds [].length none with
  | zero =>
    rw [List.length_nil] at h
    omega
  | succ rounds => rfl

/-- At the moment at which a window with an infinite rate begins, what may be sent is no number, which counts for no
bytes but not for too few. -/
theorem allowance_start (hrate : partsOf m.rate = .infinity .positive) : m.allowance m.windowStart = some 0 := by
  have hbudget : partsOf (m.budget (m.windowStart - m.windowStart)) = .notANumber := by
    rw [Nat.sub_self]
    exact zero_mul_infinity Duration.secondsOf_zero hrate
  have hunused : partsOf (m.unused m.windowStart) = .notANumber := notANumber_sub hbudget _
  unfold allowance
  dsimp only
  rw [if_neg (not_lt_of_notANumber hunused _), toUInt64_notANumber hunused]

theorem refresh_start (m : Meter) : m.refresh m.windowStart = m := by
  have hidle : m.isIdle m.windowStart = false := by
    unfold isIdle
    rw [Nat.sub_self]
    rfl
  rw [refresh, hidle]
  rfl

/-- Then no rounds send any data. -/
theorem not_drains_start (hinner : inner.Prompt) (hrate : partsOf m.rate = .infinity .positive) {data : Bytes}
    (hdata : data ≠ []) {log : List Action} {s : σ} {time : Nat} {last : Meter × List Action × σ} :
    ¬Drains inner data m.windowStart (m, log, s) time last := by
  intro h
  have hallowance : (m.refresh m.windowStart).allowance m.windowStart = some 0 := by
    rw [refresh_start, allowance_start hrate]
  obtain ⟨t, hround⟩ := round_send hinner hdata hallowance log s
  cases h with
  | done => exact hdata rfl
  | send hpiece hsend =>
    rw [hround] at hsend
    have hverdict := congrArg Ended.verdict hsend
    simp [hpiece] at hverdict
  | wait hwait =>
    rw [hround] at hwait
    have htime : m.windowStart = Clock.wake m.windowStart (m.windowStart + pause) := congrArg Ended.time hwait
    have hwake := Clock.deadline_le_wake m.windowStart (m.windowStart + pause)
    have hpause : 0 < pause := by decide
    omega

/-- A write under the limit of a command, over a sink that takes every call at once. It ends well after some rounds,
each of which hands bytes on or waits, with all the data handed on, unless the rate is infinite and the window begins at
the moment of the write. The bytes of a window are counted in a word. -/
theorem drains_iff {command : String} {rate : Float} (hread : Registry.standard.read command = .ok (.speed rate))
    (hinner : inner.Prompt) (hdivisible : inner.divisible = true) (hrate : m.rate = rate)
    (hstarted : m.windowStart ≤ now) {data : Bytes} (hsize : m.written + data.length < 2 ^ 64) (log : List Action)
    (s : σ) :
    (∃ time last, Drains inner data now (m, log, s) time last ∧
        ((sink inner.logged).write data).run none now (m, log, s) = ⟨.ok (), time, last⟩ ∧
        ∃ pieces, last.2.1 = log ++ sent pieces ∧ pieces.flatten = data) ↔
      rate.isFinite = true ∨ data = [] ∨ m.windowStart < now := by
  subst hrate
  have hone := Registry.atLeast_of_read hread
  constructor
  · rintro ⟨time, last, hdrains, -⟩
    by_contra hstuck
    simp only [not_or] at hstuck
    obtain ⟨hinfinite, hdata, hnow⟩ := hstuck
    obtain rfl : now = m.windowStart := by omega
    exact not_drains_start hinner (hone.infinite hinfinite) hdata hdrains
  · intro hmoving
    have hwrite : ∃ time last, Drains inner data now (m, log, s) time last ∧
        ((sink inner.logged).write data).run none now (m, log, s) = ⟨.ok (), time, last⟩ := by
      rcases hmoving with hfinite | rfl | hmoving
      · exact exists_write hinner hdivisible ⟨hone, hstarted, .inl hfinite⟩ hsize log s
      · exact ⟨now, _, .done (round_nil _ _ _), write_nil hdivisible now m log s⟩
      · exact exists_write hinner hdivisible ⟨hone, hstarted, .inr hmoving⟩ hsize log s
    obtain ⟨time, last, hdrains, hrun⟩ := hwrite
    exact ⟨time, last, hdrains, hrun, hdrains.exists_pieces⟩

/-- Five bytes at a kilobyte in a second get through. -/
theorem drains_iff_kilobyte :
    ∃ time last, Drains (recorder true {}) (List.replicate 5 0) 0 (starting 0 1024.0, [], {}) time last ∧
      ((sink (recorder true {}).logged).write (List.replicate 5 0)).run none 0 (starting 0 1024.0, [], {}) =
        ⟨.ok (), time, last⟩ ∧
      ∃ pieces, last.2.1 = [] ++ sent pieces ∧ pieces.flatten = List.replicate 5 0 := by
  have hread : Registry.standard.read "speed 1KB/s" = .ok (.speed 1024.0) :=
    Registry.read_speed "1KB/s" (by decide +kernel) (by decide +kernel) (by decide +kernel)
  have hfinite : Float.isFinite 1024.0 = true := by decide +kernel
  exact (drains_iff hread (prompt_recorder true) rfl rfl (Nat.le_refl 0) (by decide) [] {}).mpr (.inl hfinite)

/-- Gigabytes in a number that a float can just hold are infinitely many bytes, and the first write never ends. -/
theorem not_drains_overflow :
    ¬∀ (command : String) (rate : Float), Registry.standard.read command = .ok (.speed rate) →
      ∀ (data : Bytes) (now : Nat), ∃ time last,
        Drains (recorder true {}) data now (starting now rate, [], {}) time last := by
  intro h
  have hread : Registry.standard.read "speed 1e308g" = .ok (.speed (1.0 / 0.0)) :=
    Registry.read_speed "1e308g" (by decide +kernel) (by decide +kernel) (by decide +kernel)
  obtain ⟨time, last, hdrains⟩ := h _ _ hread [0] 0
  exact not_drains_start (m := starting 0 (1.0 / 0.0)) (prompt_recorder true) rfl (List.cons_ne_nil _ _) hdrains

end Meter

end Stream

end TrafficPolicy
