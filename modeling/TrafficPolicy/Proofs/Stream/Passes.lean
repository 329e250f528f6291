import TrafficPolicy.Proofs.Stream.Draining

/-!
# The rounds of a write

Under a limit to the rate a write goes round until all its data is handed on. Each round looks at the limit at some
time, leaves it changed or not, and asks the sink for something or for nothing. The rounds of one write, and those of
all writes of a caller, are linked: each finds the limit as the one before it has left it.
-/

namespace TrafficPolicy

namespace Stream

open Call

namespace Meter

variable {σ : Type} {inner : Sink σ} {m last : Meter} {now count rounds : ℕ} {rest : Bytes} {log : List Action} {s : σ}

/-- One round of a write: when it runs, the limit before and after it, and what the sink is asked to do. -/
structure Pass where
  time : ℕ
  before : Meter
  after : Meter
  asked : List Action

def Pass.bytes (p : Pass) : Bytes := (p.asked.filterMap Action.bytes?).flatten

/-- The rounds of a write after which it has not ended. -/
def passes (inner : Sink σ) : ℕ → Bytes → ℕ → Meter × List Action × σ → List Pass
  | 0, _, _, _ => []
  | rounds + 1, rest, now, state =>
    match (round inner.logged rest).run none now state with
    | ⟨.ok (.inl left), time, next⟩ =>
      ⟨now, state.1, next.1, next.2.1.drop state.2.1.length⟩ :: passes inner rounds left time next
    | _ => []

def passesOn (inner : Sink σ) : List (ℕ × Bytes) → ℕ → Meter × List Action × σ → List Pass
  | [], _, _ => []
  | (wait, data) :: writes, now, state =>
    let ended := ((sink inner.logged).write data).run none (now + wait) state
    passes inner (state.1.rounds data.length none) data (now + wait) state ++
      passesOn inner writes ended.time ended.state

/-- Each round finds the limit as the one before it has left it. -/
def Linked : Meter → List Pass → Meter → Prop
  | m, [], last => m = last
  | m, p :: passes, last => p.before = m ∧ Linked p.after passes last

theorem Linked.append {first second : List Pass} {middle : Meter} (hfirst : Linked m first middle)
    (hsecond : Linked middle second last) : Linked m (first ++ second) last := by
  induction first generalizing m with
  | nil =>
    obtain rfl : m = middle := hfirst
    exact hsecond
  | cons p first ih => exact ⟨hfirst.1, ih hfirst.2⟩

def waiting (m : Meter) (now : ℕ) : Pass := ⟨now, m, m.refresh now, []⟩

def sending (m : Meter) (now : ℕ) (piece : Bytes) : Pass :=
  ⟨now, m, (m.refresh now).add piece.length, sent [piece]⟩

@[simp] theorem bytes_waiting (m : Meter) (now : ℕ) : (waiting m now).bytes = [] := rfl

@[simp] theorem bytes_sending (m : Meter) (now : ℕ) (piece : Bytes) : (sending m now piece).bytes = piece := by
  simp [Pass.bytes, sending, sent, Action.bytes?]

theorem passes_nil (inner : Sink σ) (rounds now : ℕ) (state : Meter × List Action × σ) :
    passes inner rounds [] now state = [] := by
  cases rounds <;> rfl

theorem passes_wait (hrest : rest ≠ []) (hnone : (m.refresh now).allowance now = none) :
    passes inner (rounds + 1) rest now (m, log, s) =
      waiting m now :: passes inner rounds rest (Clock.wake now (now + pause)) (m.refresh now, log, s) := by
  simp only [passes, round_wait hrest hnone, waiting, List.drop_length]

theorem passes_send {t : σ} (hround : (round inner.logged rest).run none now (m, log, s) =
    ⟨.ok (.inl (rest.drop count)), now,
      ((m.refresh now).add (rest.take count).length, log ++ [.write (rest.take count), .flush], t)⟩) :
    passes inner (rounds + 1) rest now (m, log, s) =
      sending m now (rest.take count) :: passes inner rounds (rest.drop count) now
        ((m.refresh now).add (rest.take count).length, log ++ [.write (rest.take count), .flush], t) := by
  simp only [passes, hround, List.drop_left]
  rfl

end Meter

end Stream

end TrafficPolicy
