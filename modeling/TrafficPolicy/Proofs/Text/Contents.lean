import Mathlib.Order.Bounds.Defs
import TrafficPolicy.Policy.TextValue
import TrafficPolicy.Proofs.Text.Escapes
import TrafficPolicy.Proofs.Text.Utf8

/-!
# Fixed contents

Contents are given by a text in which any byte may be an escape and all characters but the percent sign and the double
quote may stand for themselves. A text is refused for the first percent sign that no two digits follow when the bytes
are read from left to right. Nothing is assumed of a decoder but what it makes of escapes that are well formed and of
bytes that begin none.
-/

namespace TrafficPolicy.Text.Percent

inductive Denotes : List Char → List UInt8 → Prop
  | nil : Denotes [] []
  | escaped {byte : UInt8} {high low : Char} {cs : List Char} {bytes : List UInt8} :
      high ∈ hexDigits (byte.toNat / 16) → low ∈ hexDigits (byte.toNat % 16) → Denotes cs bytes →
        Denotes ('%' :: high :: low :: cs) (byte :: bytes)
  | literal {c : Char} {cs : List Char} {bytes : List UInt8} : c ≠ '%' → c ≠ '"' → Denotes cs bytes →
      Denotes (c :: cs) (String.utf8EncodeChar c ++ bytes)

def digitsFollow : List UInt8 → Bool
  | high :: low :: _ => (hexValue? high).isSome && (hexValue? low).isSome
  | _ => false

/-- Reading from left to right, which takes a byte or an escape at a time, comes to an index where some bytes are
left. -/
inductive Reaches : List UInt8 → Nat → List UInt8 → Prop
  | here (bytes : List UInt8) : Reaches bytes 0 bytes
  | byte {b : UInt8} {bytes left : List UInt8} {i : Nat} : (b = sign → digitsFollow bytes = false) →
      Reaches bytes i left → Reaches (b :: bytes) (i + 1) left
  | escape {bytes left : List UInt8} {i : Nat} : digitsFollow bytes = true →
      Reaches (bytes.drop 2) i left → Reaches (sign :: bytes) (i + 3) left

/-- The index of a percent sign that reading comes to and that no two digits follow. -/
def Malformed (bytes : List UInt8) (i : Nat) : Prop :=
  ∃ left, Reaches bytes i (sign :: left) ∧ digitsFollow left = false

/-- What is known of a decoder. -/
structure Decodes (decoder : List UInt8 → List UInt8) : Prop where
  nil : decoder [] = []
  escape : ∀ {high low byte : UInt8} (rest : List UInt8), escaped? high low = some byte →
    decoder (sign :: high :: low :: rest) = byte :: decoder rest
  byte : ∀ {b : UInt8} (rest : List UInt8), b ≠ sign → decoder (b :: rest) = b :: decoder rest

variable {decoder : List UInt8 → List UInt8} {b : UInt8} {bytes rest : List UInt8} {c : Char} {cs : List Char}
  {index i : Nat}

theorem decodes_decode : Decodes decode where
  nil := rfl
  escape rest h := by rw [decode, if_pos rfl, h]
  byte rest h := decode_cons h rest

/-! ## Reading from left to right -/

theorem exists_escaped? (h : digitsFollow bytes = true) :
    ∃ high low byte rest, bytes = high :: low :: rest ∧ escaped? high low = some byte := by
  match bytes with
  | [] => cases h
  | [_] => cases h
  | high :: low :: rest =>
    simp only [digitsFollow, Bool.and_eq_true, Option.isSome_iff_exists] at h
    obtain ⟨⟨m, hm⟩, n, hn⟩ := h
    exact ⟨high, low, UInt8.ofNat (16 * m + n), rest, rfl, by simp [escaped?, hm, hn]⟩

theorem digitsFollow_cons {high low byte : UInt8} (h : escaped? high low = some byte) (rest : List UInt8) :
    digitsFollow (high :: low :: rest) = true := by
  simp only [escaped?, Option.bind_eq_bind, Option.bind_eq_some_iff] at h
  obtain ⟨m, hm, n, hn, -⟩ := h
  simp [digitsFollow, hm, hn]

/-- Bytes are read to the end one by one and escape by escape, or up to a malformed escape. -/
theorem scan_induct {motive : List UInt8 → Prop} (nil : motive [])
    (byte : ∀ b bytes, b ≠ sign → motive bytes → motive (b :: bytes))
    (escape : ∀ bytes, digitsFollow bytes = true → motive (bytes.drop 2) → motive (sign :: bytes))
    (malformed : ∀ bytes, digitsFollow bytes = false → motive (sign :: bytes)) (bytes : List UInt8) :
    motive bytes := by
  induction hn : bytes.length using Nat.strongRecOn generalizing bytes with
  | _ n ih =>
    subst hn
    cases bytes with
    | nil => exact nil
    | cons b bytes =>
      by_cases hb : b = sign
      · subst hb
        cases hdigits : digitsFollow bytes with
        | true =>
          have hlt : (bytes.drop 2).length < (sign :: bytes).length := by
            rw [List.length_drop, List.length_cons]
            omega
          exact escape bytes hdigits (ih _ hlt _ rfl)
        | false => exact malformed bytes hdigits
      · exact byte b bytes hb (ih _ (Nat.lt_succ_self _) _ rfl)

theorem malformedFrom?_byte (h : b ≠ sign) (index : Nat) (bytes : List UInt8) :
    malformedFrom? index (b :: bytes) = malformedFrom? (index + 1) bytes := by
  match bytes with
  | [] => simp [malformedFrom?, h]
  | [c] => simp [malformedFrom?, h]
  | _ :: _ :: _ => simp [malformedFrom?, h]

theorem malformedFrom?_escape (h : digitsFollow bytes = true) (index : Nat) :
    malformedFrom? index (sign :: bytes) = malformedFrom? (index + 3) (bytes.drop 2) := by
  obtain ⟨high, low, byte, rest, rfl, hescaped⟩ := exists_escaped? h
  simp [malformedFrom?, hescaped]

theorem malformedFrom?_sign (h : digitsFollow bytes = false) (index : Nat) :
    malformedFrom? index (sign :: bytes) = some index := by
  match bytes with
  | [] => simp [malformedFrom?]
  | [_] => simp [malformedFrom?]
  | high :: low :: rest =>
    cases hescaped : escaped? high low with
    | none => simp [malformedFrom?, hescaped]
    | some byte => rw [digitsFollow_cons hescaped] at h; cases h

theorem not_malformed_nil : ¬Malformed [] i := by
  rintro ⟨left, hreaches, -⟩
  cases hreaches

theorem malformed_byte_iff (h : b ≠ sign) : Malformed (b :: bytes) i ↔ ∃ j, i = j + 1 ∧ Malformed bytes j := by
  constructor
  · rintro ⟨left, hreaches, hleft⟩
    cases hreaches with
    | here => exact absurd rfl h
    | byte _ hreaches => exact ⟨_, rfl, left, hreaches, hleft⟩
    | escape => exact absurd rfl h
  · rintro ⟨j, rfl, left, hreaches, hleft⟩
    exact ⟨left, .byte (fun heq => absurd heq h) hreaches, hleft⟩

theorem malformed_escape_iff (h : digitsFollow bytes = true) :
    Malformed (sign :: bytes) i ↔ ∃ j, i = j + 3 ∧ Malformed (bytes.drop 2) j := by
  constructor
  · rintro ⟨left, hreaches, hleft⟩
    cases hreaches with
    | here => rw [h] at hleft; cases hleft
    | byte hfalse _ => rw [h] at hfalse; cases hfalse rfl
    | escape _ hreaches => exact ⟨_, rfl, left, hreaches, hleft⟩
  · rintro ⟨j, rfl, left, hreaches, hleft⟩
    exact ⟨left, .escape h hreaches, hleft⟩

theorem malformed_sign (h : digitsFollow bytes = false) : Malformed (sign :: bytes) 0 :=
  ⟨bytes, .here _, h⟩

private theorem isLeast_add {P Q : Nat → Prop} {n j : Nat} (h : ∀ i, P i ↔ ∃ j, i = j + n ∧ Q j)
    (hj : IsLeast {i | Q i} j) : IsLeast {i | P i} (j + n) := by
  refine ⟨(h _).mpr ⟨j, rfl, hj.1⟩, fun i hi => ?_⟩
  obtain ⟨k, rfl, hk⟩ := (h i).mp hi
  exact Nat.add_le_add_right (hj.2 hk) n

/-- The index that is found is the first one of a malformed escape, and if none is found, there is none. -/
theorem malformedFrom?_spec (bytes : List UInt8) (index : Nat) :
    (∀ i, malformedFrom? index bytes = some i → ∃ j, i = index + j ∧ IsLeast {i | Malformed bytes i} j) ∧
      (malformedFrom? index bytes = none → ∀ j, ¬Malformed bytes j) := by
  induction bytes using scan_induct generalizing index with
  | nil => exact ⟨nofun, fun _ _ => not_malformed_nil⟩
  | byte b bytes hb ih =>
    rw [malformedFrom?_byte hb]
    obtain ⟨hsome, hnone⟩ := ih (index + 1)
    refine ⟨fun i h => ?_, fun h j hj => ?_⟩
    · obtain ⟨j, rfl, hj⟩ := hsome i h
      exact ⟨j + 1, by omega, isLeast_add (fun _ => malformed_byte_iff hb) hj⟩
    · obtain ⟨k, -, hk⟩ := (malformed_byte_iff hb).mp hj
      exact hnone h k hk
  | escape bytes hdigits ih =>
    rw [malformedFrom?_escape hdigits]
    obtain ⟨hsome, hnone⟩ := ih (index + 3)
    refine ⟨fun i h => ?_, fun h j hj => ?_⟩
    · obtain ⟨j, rfl, hj⟩ := hsome i h
      exact ⟨j + 3, by omega, isLeast_add (fun _ => malformed_escape_iff hdigits) hj⟩
    · obtain ⟨k, -, hk⟩ := (malformed_escape_iff hdigits).mp hj
      exact hnone h k hk
  | malformed bytes hdigits =>
    rw [malformedFrom?_sign hdigits]
    refine ⟨fun i h => ?_, nofun⟩
    obtain rfl := Option.some.inj h
    exact ⟨0, rfl, malformed_sign hdigits, fun _ _ => Nat.zero_le _⟩

/-! ## Characters -/

theorem sign_notMem_utf8EncodeChar (hc : c ≠ '%') : sign ∉ String.utf8EncodeChar c := by
  intro hmem
  by_cases hsize : c.toNat < 128
  · rw [utf8EncodeChar_of_lt hsize, List.mem_singleton] at hmem
    have hnat := congrArg UInt8.toNat hmem
    rw [UInt8.toNat_ofNat', Nat.mod_eq_of_lt (by omega)] at hnat
    exact hc (Char.toNat_inj.mp hnat.symm)
  · exact absurd ((encoded c).le_of_mem (Nat.not_lt.mp hsize) hmem) (by decide)

theorem utf8_cons (c : Char) (cs : List Char) : utf8 (c :: cs) = String.utf8EncodeChar c ++ utf8 cs :=
  List.flatMap_cons

theorem hexValue?_lt {n : Nat} (h : hexValue? b = some n) : n < 16 ∧ b.toNat < 128 := by
  unfold hexValue? at h
  dsimp only at h
  split at h
  · obtain rfl := Option.some.inj h
    omega
  · split at h
    · obtain rfl := Option.some.inj h
      omega
    · split at h
      · obtain rfl := Option.some.inj h
        omega
      · cases h

/-- A byte that is a digit is a character of its own. -/
theorem exists_digit {n : Nat} (h : utf8 cs = b :: rest) (hvalue : hexValue? b = some n) :
    ∃ c ds, cs = c :: ds ∧ c ∈ hexDigits n ∧ rest = utf8 ds := by
  have hdigits : ∀ k < 128, ∀ n ∈ hexValue? (UInt8.ofNat k), Char.ofNat k ∈ hexDigits n := by decide +kernel
  have hsmall := (hexValue?_lt hvalue).2
  cases cs with
  | nil => cases h
  | cons c ds =>
    rw [utf8_cons] at h
    by_cases hsize : c.toNat < 128
    · rw [utf8EncodeChar_of_lt hsize, List.singleton_append, List.cons.injEq] at h
      obtain ⟨rfl, rfl⟩ := h
      have hmem := hdigits c.toNat hsize n hvalue
      rw [Char.ofNat_toNat] at hmem
      exact ⟨c, ds, rfl, hmem, rfl⟩
    · obtain ⟨first, others, hbytes⟩ := (encoded c).exists_cons
      have hb : b ∈ String.utf8EncodeChar c := by
        rw [hbytes, List.cons_append, List.cons.injEq] at h
        rw [hbytes, ← h.1]
        exact List.mem_cons_self
      exact absurd ((encoded c).le_of_mem (Nat.not_lt.mp hsize) hb) (Nat.not_le.mpr hsmall)

theorem exists_digits (h : digitsFollow (utf8 cs) = true) :
    ∃ (byte : UInt8) (high low : Char) (ds : List Char), cs = high :: low :: ds ∧
      high ∈ hexDigits (byte.toNat / 16) ∧ low ∈ hexDigits (byte.toNat % 16) := by
  obtain ⟨high, low, byte, rest, hbytes, hescaped⟩ := exists_escaped? h
  simp only [escaped?, Option.bind_eq_bind, Option.bind_eq_some_iff] at hescaped
  obtain ⟨m, hm, n, hn, -⟩ := hescaped
  obtain ⟨c, cs', rfl, hc, hcs'⟩ := exists_digit hbytes hm
  obtain ⟨d, ds, rfl, hd, -⟩ := exists_digit hcs'.symm hn
  have hmlt := (hexValue?_lt hm).1
  have hnlt := (hexValue?_lt hn).1
  have hbyte : (UInt8.ofNat (16 * m + n)).toNat = 16 * m + n := by
    rw [UInt8.toNat_ofNat', Nat.mod_eq_of_lt (by omega)]
  have hdiv : (16 * m + n) / 16 = m := by omega
  have hmod : (16 * m + n) % 16 = n := by omega
  exact ⟨UInt8.ofNat (16 * m + n), c, d, ds, rfl, by rwa [hbyte, hdiv], by rwa [hbyte, hmod]⟩

/-! ## What a text stands for -/

theorem malformedFrom?_append (h : sign ∉ bytes) (rest : List UInt8) (index : Nat) :
    malformedFrom? index (bytes ++ rest) = malformedFrom? (index + bytes.length) rest := by
  induction bytes generalizing index with
  | nil => rfl
  | cons b bytes ih =>
    rw [List.mem_cons, not_or] at h
    rw [List.cons_append, malformedFrom?_byte (Ne.symm h.1), ih h.2, List.length_cons, Nat.add_right_comm,
      Nat.add_assoc]

theorem Decodes.append (hdecoder : Decodes decoder) (h : sign ∉ bytes) (rest : List UInt8) :
    decoder (bytes ++ rest) = bytes ++ decoder rest := by
  induction bytes with
  | nil => rfl
  | cons b bytes ih =>
    rw [List.mem_cons, not_or] at h
    rw [List.cons_append, hdecoder.byte _ (Ne.symm h.1), ih h.2, List.cons_append]

theorem Denotes.malformedFrom? (h : Denotes cs bytes) (index : Nat) : malformedFrom? index (utf8 cs) = none := by
  induction h generalizing index with
  | nil => rfl
  | escaped hhigh hlow _ ih =>
    rw [utf8_digits hhigh hlow, malformedFrom?_escape (digitsFollow_cons (escaped?_digits hhigh hlow) _)]
    exact ih (index + 3)
  | literal hc _ _ ih =>
    rw [utf8_cons, malformedFrom?_append (sign_notMem_utf8EncodeChar hc)]
    exact ih _

theorem Denotes.decoder_eq (h : Denotes cs bytes) (hdecoder : Decodes decoder) : decoder (utf8 cs) = bytes := by
  induction h with
  | nil => exact hdecoder.nil
  | escaped hhigh hlow _ ih => rw [utf8_digits hhigh hlow, hdecoder.escape _ (escaped?_digits hhigh hlow), ih]
  | literal hc _ _ ih => rw [utf8_cons, hdecoder.append (sign_notMem_utf8EncodeChar hc), ih]

theorem notMem_hexDigits {n : Nat} (h : n < 16) (hc : c ∈ hexDigits n) : c ≠ '%' ∧ c ≠ '"' := by
  have hall : ∀ n < 16, '%' ∉ hexDigits n ∧ '"' ∉ hexDigits n := by decide
  obtain ⟨hpercent, hquote⟩ := hall n h
  exact ⟨fun heq => hpercent (heq ▸ hc), fun heq => hquote (heq ▸ hc)⟩

theorem Denotes.quote_notMem (h : Denotes cs bytes) : '"' ∉ cs := by
  induction h with
  | nil => exact List.not_mem_nil
  | @escaped byte high low cs bytes hhigh hlow _ ih =>
    have hhigh' := (notMem_hexDigits (high_lt byte) hhigh).2
    have hlow' := (notMem_hexDigits (low_lt byte) hlow).2
    simp only [List.mem_cons, not_or]
    exact ⟨by decide, hhigh'.symm, hlow'.symm, ih⟩
  | literal _ hquote _ ih => exact fun hmem => (List.mem_cons.mp hmem).elim (fun heq => hquote heq.symm) ih

/-- Each escape takes three bytes of the text and stands for one. -/
theorem Denotes.length (h : Denotes cs bytes) : bytes.length + 2 * cs.count '%' = (utf8 cs).length := by
  induction h with
  | nil => rfl
  | @escaped byte high low cs bytes hhigh hlow _ ih =>
    have hhigh' := (notMem_hexDigits (high_lt byte) hhigh).1
    have hlow' := (notMem_hexDigits (low_lt byte) hlow).1
    rw [utf8_digits hhigh hlow, List.count_cons_self, List.count_cons_of_ne hhigh', List.count_cons_of_ne hlow']
    simp only [List.length_cons]
    omega
  | literal hc _ _ ih =>
    rw [utf8_cons, List.count_cons_of_ne hc, List.length_append, List.length_append, ← ih, Nat.add_assoc]

/-- A text in which no escape is malformed stands for the bytes that it is decoded to. -/
theorem denotes_decode (hvalid : malformedFrom? index (utf8 cs) = none) (hquote : '"' ∉ cs) :
    Denotes cs (decode (utf8 cs)) := by
  induction hn : cs.length using Nat.strongRecOn generalizing cs index with
  | _ n ih =>
    subst hn
    cases cs with
    | nil => exact .nil
    | cons c cs =>
      rw [List.mem_cons, not_or] at hquote
      by_cases hc : c = '%'
      · subst hc
        have hutf8 : utf8 ('%' :: cs) = sign :: utf8 cs := rfl
        rw [hutf8] at hvalid
        cases hdigits : digitsFollow (utf8 cs) with
        | false => rw [malformedFrom?_sign hdigits] at hvalid; cases hvalid
        | true =>
          obtain ⟨byte, high, low, ds, rfl, hhigh, hlow⟩ := exists_digits hdigits
          rw [malformedFrom?_escape hdigits] at hvalid
          have hbytes := utf8_digits hhigh hlow ds
          have hrest : (utf8 (high :: low :: ds)).drop 2 = utf8 ds :=
            congrArg (List.drop 3) hbytes
          rw [hrest] at hvalid
          rw [hbytes, decodes_decode.escape _ (escaped?_digits hhigh hlow)]
          have hquote' : '"' ∉ ds := fun hmem => hquote.2 (List.mem_cons_of_mem _ (List.mem_cons_of_mem _ hmem))
          have hlt : ds.length < ('%' :: high :: low :: ds).length := by
            simp only [List.length_cons]
            omega
          exact .escaped hhigh hlow (ih _ hlt hvalid hquote' rfl)
      · rw [utf8_cons, malformedFrom?_append (sign_notMem_utf8EncodeChar hc)] at hvalid
        rw [utf8_cons, decodes_decode.append (sign_notMem_utf8EncodeChar hc)]
        exact .literal hc (Ne.symm hquote.1) (ih _ (Nat.lt_succ_self _) hvalid hquote.2 rfl)

end TrafficPolicy.Text.Percent

namespace TrafficPolicy

open Text Text.Percent

variable {kind : TextKind} {value : String} {decoder : List UInt8 → List UInt8}

/-- Why a text is refused as contents. -/
theorem TextKind.refusal?_contents (hkind : kind = .rewrite ∨ kind = .tcpWrite) (hvalue : value ≠ "")
    (hquote : '"' ∉ value.toList) : kind.refusal? value = escapeRefusal? value := by
  have hempty : value.isEmpty = false := by simpa using hvalue
  have hquoted : value.toList.contains '"' = false := by simpa using hquote
  rcases hkind with rfl | rfl <;> simp only [refusal?, hempty, hquoted] <;> rfl

namespace TextValue

theorem read_of_refusal?_none (h : kind.refusal? value = none) : read kind value = .ok ⟨value, h⟩ := by
  unfold read
  split
  · rfl
  · rename_i hsome
    cases h.symm.trans hsome

theorem read_of_refusal?_some {reason : Reason} (h : kind.refusal? value = some reason) :
    read kind value = .error (.invalidValue kind.keyword value reason) := by
  unfold read
  split
  · rename_i hnone
    cases h.symm.trans hnone
  · rename_i hsome
    cases h.symm.trans hsome
    rfl

theorem value_of_read {t : TextValue kind} (h : read kind value = .ok t) : t.value = value := by
  unfold read at h
  split at h
  · cases h
    rfl
  · cases h

theorem read_of_denotes (hkind : kind = .rewrite ∨ kind = .tcpWrite) {bytes : List UInt8} (hbytes : bytes ≠ [])
    (h : Denotes value.toList bytes) : ∃ t : TextValue kind, read kind value = .ok t ∧ t.value = value := by
  have hvalue : value ≠ "" := by
    rintro rfl
    cases h
    exact hbytes rfl
  have hrefusal : kind.refusal? value = none := by
    rw [TextKind.refusal?_contents hkind hvalue h.quote_notMem, TextKind.escapeRefusal?, malformedAt?,
      h.malformedFrom?, Option.map_none]
  exact ⟨⟨value, hrefusal⟩, read_of_refusal?_none hrefusal, rfl⟩

theorem ne_empty (t : TextValue kind) : t.value ≠ "" := by
  intro hempty
  have hrefusal := t.accepted
  rw [hempty] at hrefusal
  cases hrefusal

theorem quote_notMem (t : TextValue kind) : '"' ∉ t.value.toList := by
  intro hmem
  have hrefusal := t.accepted
  unfold TextKind.refusal? at hrefusal
  rw [if_neg (by simpa using t.ne_empty), if_pos (by simpa using hmem)] at hrefusal
  cases hrefusal

theorem denotes_decoded (hkind : kind = .rewrite ∨ kind = .tcpWrite) (t : TextValue kind) :
    Denotes t.value.toList t.decoded := by
  have hrefusal := t.accepted
  rw [TextKind.refusal?_contents hkind t.ne_empty t.quote_notMem, TextKind.escapeRefusal?,
    Option.map_eq_none_iff] at hrefusal
  exact denotes_decode hrefusal t.quote_notMem

/-- A text is refused for the first malformed escape, and read if there is none. -/
theorem read_cases (hkind : kind = .rewrite ∨ kind = .tcpWrite) (hvalue : value ≠ "") (hquote : '"' ∉ value.toList) :
    ((∃ t, read kind value = .ok t) ∧ ∀ i, ¬Malformed (utf8 value.toList) i) ∨
      ∃ i, IsLeast {i | Malformed (utf8 value.toList) i} i ∧
        read kind value = .error (.invalidValue kind.keyword value (.malformedEscape i)) := by
  obtain ⟨hsome, hnone⟩ := malformedFrom?_spec (utf8 value.toList) 0
  have hrefusal := TextKind.refusal?_contents hkind hvalue hquote
  cases hfound : malformedAt? (utf8 value.toList) with
  | none =>
    rw [TextKind.escapeRefusal?, hfound, Option.map_none] at hrefusal
    exact .inl ⟨⟨_, read_of_refusal?_none hrefusal⟩, hnone hfound⟩
  | some i =>
    rw [TextKind.escapeRefusal?, hfound, Option.map_some] at hrefusal
    obtain ⟨j, rfl, hj⟩ := hsome i hfound
    rw [Nat.zero_add] at hrefusal
    exact .inr ⟨j, hj, read_of_refusal?_some hrefusal⟩

/-- Contents are read from each text that stands for some bytes, and decoding gives these bytes. A text that is neither
empty nor has a double quote in it is refused exactly if some percent sign that reading from left to right comes to is
not followed by two digits, and the first such sign is named. Whatever is accepted stands for the bytes that it is
decoded to, which are two less than its own for each escape. -/
theorem read_contents (hkind : kind = .rewrite ∨ kind = .tcpWrite) (hdecoder : Decodes decoder) :
    (∀ bytes value, bytes ≠ [] → Denotes value.toList bytes →
      ∃ t : TextValue kind, read kind value = .ok t ∧ t.value = value ∧ t.decoded = bytes ∧
        decoder (utf8 t.value.toList) = bytes) ∧
      (∀ value, value ≠ "" → '"' ∉ value.toList →
        ((∃ e, read kind value = .error e) ↔ ∃ i, Malformed (utf8 value.toList) i) ∧
          ∀ e, read kind value = .error e → ∃ i, IsLeast {i | Malformed (utf8 value.toList) i} i ∧
            e = .invalidValue kind.keyword value (.malformedEscape i) ∧
            e.message = s!"{kind.keyword}: invalid value '{value}': " ++ s!"malformed percent escape at byte {i}") ∧
      ∀ value t, read kind value = .ok t → t.value = value ∧ Denotes value.toList t.decoded ∧
        decoder (utf8 value.toList) = t.decoded ∧
        t.decoded.length + 2 * value.toList.count '%' = (utf8 value.toList).length := by
  refine ⟨fun bytes value hbytes h => ?_, fun value hvalue hquote => ?_, fun value t ht => ?_⟩
  · obtain ⟨t, hread, rfl⟩ := read_of_denotes hkind hbytes h
    exact ⟨t, hread, rfl, h.decoder_eq decodes_decode, h.decoder_eq hdecoder⟩
  · rcases read_cases hkind hvalue hquote with ⟨⟨t, hread⟩, hnone⟩ | ⟨i, hleast, hread⟩
    · rw [hread]
      exact ⟨⟨nofun, fun ⟨i, hi⟩ => absurd hi (hnone i)⟩, nofun⟩
    · rw [hread]
      refine ⟨⟨fun _ => ⟨i, hleast.1⟩, fun _ => ⟨_, rfl⟩⟩, fun e he => ?_⟩
      cases he
      exact ⟨i, hleast, rfl, rfl⟩
  · obtain rfl := value_of_read ht
    have hdenotes := t.denotes_decoded hkind
    exact ⟨rfl, hdenotes, hdenotes.decoder_eq hdecoder, hdenotes.length⟩

/-- Digits of both cases, a character of two bytes next to an escape, and two percent signs in a row. -/
theorem read_contents_cases :
    (∃ t : TextValue .rewrite, read .rewrite "é%c3%A9%41" = .ok t ∧ t.decoded = [0xc3, 0xa9, 0xc3, 0xa9, 0x41]) ∧
      (∃ e, read .rewrite "é%%41" = .error e) ∧
      ∀ e, read .rewrite "é%%41" = .error e →
        e.message = "rewrite: invalid value 'é%%41': malformed percent escape at byte 2" := by
  obtain ⟨hspelled, hrefused, -⟩ := read_contents (.inl rfl : TextKind.rewrite = .rewrite ∨ _) decodes_decode
  have hdenotes : Denotes "é%c3%A9%41".toList ([0xc3, 0xa9] ++ [0xc3, 0xa9, 0x41]) :=
    .literal (by decide) (by decide) (.escaped (by decide) (by decide) (.escaped (by decide) (by decide)
      (.escaped (by decide) (by decide) .nil)))
  obtain ⟨t, hread, -, hdecoded, -⟩ := hspelled _ _ (by decide) hdenotes
  -- The first percent sign is followed by the second one.
  have hreached : Reaches (utf8 "é%%41".toList) 2 [sign, sign, 0x34, 0x31] :=
    .byte (by decide) (.byte (by decide) (.here _))
  have hmalformed : Malformed (utf8 "é%%41".toList) 2 := ⟨_, hreached, by decide⟩
  obtain ⟨hexists, hnamed⟩ := hrefused "é%%41" (by decide) (by decide)
  refine ⟨⟨t, hread, hdecoded⟩, hexists.mpr ⟨2, hmalformed⟩, fun e he => ?_⟩
  obtain ⟨i, hleast, -, hmessage⟩ := hnamed e he
  obtain ⟨j, hj, hfirst⟩ := (malformedFrom?_spec (utf8 "é%%41".toList) 0).1 2 (by decide)
  have hle : i ≤ j := hleast.2 hfirst.1
  have hge : j ≤ i := hfirst.2 hleast.1
  obtain rfl : i = 2 := by omega
  rw [hmessage]
  decide

end TextValue

end TrafficPolicy
