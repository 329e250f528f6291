import TrafficPolicy.Text.Percent

/-!
# The bytes of texts

A character takes one to four bytes, and the first of them says how many. The bytes of texts are in the order of their
characters.
-/

namespace TrafficPolicy.Text

variable {c d : Char} {cs ds : List Char} {b : UInt8} {m n : Nat} {bytes bytes' : List UInt8}

/-- A character in one, two, three or four bytes. -/
inductive Encoded (n : Nat) : List UInt8 → Prop
  | one : n < 0x80 → Encoded n [.ofNat n]
  | two : 0x80 ≤ n → n < 0x800 → Encoded n [.ofNat (n / 64 + 192), .ofNat (n % 64 + 128)]
  | three : 0x800 ≤ n → n < 0x10000 →
      Encoded n [.ofNat (n / 4096 + 224), .ofNat (n / 64 % 64 + 128), .ofNat (n % 64 + 128)]
  | four : 0x10000 ≤ n → n < 0x110000 → Encoded n
      [.ofNat (n / 262144 + 240), .ofNat (n / 4096 % 64 + 128), .ofNat (n / 64 % 64 + 128), .ofNat (n % 64 + 128)]

theorem encoded (c : Char) : Encoded c.toNat (String.utf8EncodeChar c) := by
  have hlt : c.toNat < 0x110000 := by
    rcases c.valid with h | h
    · exact Nat.lt_trans h (by decide)
    · exact h.2
  change Encoded c.toNat (if c.toNat ≤ 127 then _ else if c.toNat ≤ 2047 then [.ofNat (c.toNat / 64 % 32 + 192), _]
    else if c.toNat ≤ 65535 then [.ofNat (c.toNat / 4096 % 16 + 224), _, _]
    else [.ofNat (c.toNat / 262144 % 8 + 240), _, _, _])
  split
  · exact .one (by omega)
  split
  · rw [Nat.mod_eq_of_lt (by omega : c.toNat / 64 < 32)]
    exact .two (by omega) (by omega)
  split
  · rw [Nat.mod_eq_of_lt (by omega : c.toNat / 4096 < 16)]
    exact .three (by omega) (by omega)
  · rw [Nat.mod_eq_of_lt (by omega : c.toNat / 262144 < 8)]
    exact .four (by omega) (by omega)

theorem toNat_ofNat_of_lt (h : n < 256) : (UInt8.ofNat n).toNat = n := by
  rw [UInt8.toNat_ofNat', Nat.mod_eq_of_lt h]

theorem Encoded.exists_cons (h : Encoded n bytes) : ∃ first rest, bytes = first :: rest := by
  cases h <;> exact ⟨_, _, rfl⟩

/-- All bytes of a character beyond ASCII are beyond ASCII. -/
theorem Encoded.le_of_mem (h : Encoded n bytes) (hn : 0x80 ≤ n) (hb : b ∈ bytes) : 0x80 ≤ b.toNat := by
  have hbyte : ∀ k < 128, 128 ≤ (UInt8.ofNat (k + 128)).toNat := by
    intro k hk
    rw [toNat_ofNat_of_lt (by omega)]
    exact Nat.le_add_left 128 k
  cases h with
  | one hlt => omega
  | two h h' =>
    simp only [List.mem_cons, List.not_mem_nil, or_false] at hb
    rcases hb with rfl | rfl
    · exact hbyte (n / 64 + 64) (by omega)
    · exact hbyte _ (by omega)
  | three h h' =>
    simp only [List.mem_cons, List.not_mem_nil, or_false] at hb
    rcases hb with rfl | rfl | rfl
    · exact hbyte (n / 4096 + 96) (by omega)
    · exact hbyte _ (by omega)
    · exact hbyte _ (by omega)
  | four h h' =>
    simp only [List.mem_cons, List.not_mem_nil, or_false] at hb
    rcases hb with rfl | rfl | rfl | rfl
    · exact hbyte (n / 262144 + 112) (by omega)
    · exact hbyte _ (by omega)
    · exact hbyte _ (by omega)
    · exact hbyte _ (by omega)

/-- The bytes of a smaller character come first, whatever stands after them. -/
theorem Encoded.lt (h : Encoded m bytes) (h' : Encoded n bytes') (hlt : m < n) (rest rest' : List UInt8) :
    bytes ++ rest < bytes' ++ rest' := by
  have hcons : ∀ {a b : Nat}, a < 256 → b < 256 → ∀ {l l' : List UInt8},
      (UInt8.ofNat a :: l < UInt8.ofNat b :: l' ↔ a < b ∨ a = b ∧ l < l') := by
    intro a b ha hb l l'
    rw [List.cons_lt_cons_iff, UInt8.lt_iff_toNat_lt, ← UInt8.toNat_inj, toNat_ofNat_of_lt ha, toNat_ofNat_of_lt hb]
  cases h <;> cases h' <;> simp (disch := omega) only [List.cons_append, List.nil_append, hcons] <;> omega

/-- The bytes of texts are in the order of their characters. -/
theorem utf8_lt_utf8 (h : cs < ds) : utf8 cs < utf8 ds := by
  induction cs generalizing ds with
  | nil =>
    cases ds with
    | nil => exact absurd h (List.lt_irrefl _)
    | cons d ds =>
      obtain ⟨first, rest, hbytes⟩ := (encoded d).exists_cons
      rw [utf8, utf8, List.flatMap_nil, List.flatMap_cons, hbytes]
      exact List.nil_lt_cons _ _
  | cons c cs ih =>
    cases ds with
    | nil => exact absurd h (List.not_lt_nil _)
    | cons d ds =>
      rw [utf8, utf8, List.flatMap_cons, List.flatMap_cons]
      rcases List.cons_lt_cons_iff.mp h with hlt | ⟨rfl, hlt⟩
      · exact (encoded c).lt (encoded d) hlt _ _
      · exact List.append_left_lt (ih hlt)

end TrafficPolicy.Text
