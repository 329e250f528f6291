import TrafficPolicy.Address.Reader
import TrafficPolicy.Proofs.Text.Blank

/-!
# Numbers in addresses

The digits of an octet or a group are read again with what follows them left over.
-/

namespace TrafficPolicy.Address

variable {b : Nat}

/-- A text does not go on with a digit. -/
def Stops (base : Nat) (rest : List Char) : Prop :=
  ∀ c ∈ rest.head?, isDigitOf base c = false

private theorem digitValue?_digitChar : ∀ d < 16, digitValue? (Nat.digitChar d) = some d := by decide

theorem isDigitOf_of_mem_toDigits (hb : 1 < b) (hb16 : b ≤ 16) {n : Nat} {c : Char}
    (h : c ∈ Nat.toDigits b n) : isDigitOf b c := by
  have hdigit (d : Nat) (hd : d < b) : isDigitOf b (Nat.digitChar d) := by
    simp [isDigitOf, digitValue?_digitChar d (by omega), hd]
  induction n using Nat.base_induction b hb with
  | single m hm =>
    rw [Nat.toDigits_of_lt_base hm] at h
    obtain rfl := List.mem_singleton.mp h
    exact hdigit m hm
  | digit m k hk hm ih =>
    rw [← Nat.toDigits_append_toDigits hb hm hk, Nat.toDigits_of_lt_base hk, List.mem_append] at h
    rcases h with h | h
    · exact ih h
    · obtain rfl := List.mem_singleton.mp h
      exact hdigit k hk

private theorem value_toDigits (hb : 1 < b) (hb16 : b ≤ 16) (n : Nat) :
    (Nat.toDigits b n).foldl (fun n c => b * n + (digitValue? c).getD 0) 0 = n := by
  induction n using Nat.base_induction b hb with
  | single m hm =>
    rw [Nat.toDigits_of_lt_base hm, List.foldl_cons, List.foldl_nil, digitValue?_digitChar m (by omega)]
    simp
  | digit m k hk hm ih =>
    rw [← Nat.toDigits_append_toDigits hb hm hk, List.foldl_append, ih, Nat.toDigits_of_lt_base hk,
      List.foldl_cons, List.foldl_nil, digitValue?_digitChar k (by omega)]
    rfl

private theorem readDigits_toDigits (hb : 1 < b) (hb16 : b ≤ 16) (n : Nat) {rest : List Char}
    (hrest : Stops b rest) : readDigits b (Nat.toDigits b n ++ rest) = (Nat.toDigits b n, n, rest) := by
  have hdigits : ∀ c ∈ Nat.toDigits b n, isDigitOf b c := fun c => isDigitOf_of_mem_toDigits hb hb16
  have htake : (Nat.toDigits b n ++ rest).takeWhile (isDigitOf b) = Nat.toDigits b n := by
    rw [List.takeWhile_append_of_pos hdigits]
    cases rest with
    | nil => simp
    | cons c rest => rw [List.takeWhile_cons_of_neg (by simp [hrest c rfl]), List.append_nil]
  have hdrop : (Nat.toDigits b n ++ rest).dropWhile (isDigitOf b) = rest := by
    rw [List.dropWhile_append_of_pos hdigits, Text.dropWhile_eq_self hrest]
  simp only [readDigits, htake, hdrop, value_toDigits hb hb16]

private theorem head?_toDigits {n : Nat} (hn : 0 < n) : (Nat.toDigits 10 n).head? ≠ some '0' := by
  induction n using Nat.base_induction 10 (by decide) with
  | single m hm =>
    rw [Nat.toDigits_of_lt_base hm]
    simp
    omega
  | digit m k hk hm ih =>
    rw [← Nat.toDigits_append_toDigits (by decide) hm hk, List.head?_append_of_ne_nil _ Nat.toDigits_ne_nil]
    exact ih hm

theorem readOctet_toDigits (byte : UInt8) {rest : List Char} (hrest : Stops 10 rest) :
    readOctet (Nat.toDigits 10 byte.toNat ++ rest) = some (byte, rest) := by
  have hlt : byte.toNat < 256 := byte.toNat_lt
  have hlength : (Nat.toDigits 10 byte.toNat).length ≤ 3 :=
    (Nat.length_toDigits_le_iff (by decide) (by decide)).mpr (by omega)
  have hzero : ((Nat.toDigits 10 byte.toNat).head? == some '0' &&
      decide (1 < (Nat.toDigits 10 byte.toNat).length)) = false := by
    by_cases h : byte.toNat < 10 ^ 1
    · have := (Nat.length_toDigits_le_iff (b := 10) (by decide) (by decide)).mpr h
      simp
      omega
    · have := head?_toDigits (n := byte.toNat) (by omega)
      simp [this]
  simp only [readOctet, readDigits_toDigits (by decide) (by decide) _ hrest, hzero]
  simp [Nat.not_lt.mpr hlength]
  omega

theorem readGroup_toDigits (word : UInt16) {rest : List Char} (hrest : Stops 16 rest) :
    readGroup (Nat.toDigits 16 word.toNat ++ rest) = some (word, rest) := by
  have hlt : word.toNat < 65536 := word.toNat_lt
  have hlength : (Nat.toDigits 16 word.toNat).length ≤ 4 :=
    (Nat.length_toDigits_le_iff (by decide) (by decide)).mpr (by omega)
  simp only [readGroup, readDigits_toDigits (by decide) (by decide) _ hrest]
  simp [Nat.not_lt.mpr hlength]

theorem readGroup_of_stops {cs : List Char} (h : Stops 16 cs) : readGroup cs = none := by
  have htake : cs.takeWhile (isDigitOf 16) = [] := by
    cases cs with
    | nil => rfl
    | cons c cs => rw [List.takeWhile_cons_of_neg (by simp [h c rfl])]
  simp [readGroup, readDigits, htake]

end TrafficPolicy.Address
