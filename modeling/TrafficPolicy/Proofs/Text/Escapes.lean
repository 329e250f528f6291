import TrafficPolicy.Proofs.Text.Blank
import TrafficPolicy.Text.Percent

/-!
# Spellings of the parts of a query

There are several ways to write a text as a part of a query. Each byte of a character may be written as an escape, and
some characters have to be. A space may be a plus. All spellings of a text decode to it.
-/

namespace TrafficPolicy.Text.Percent

def hexDigits (n : Nat) : List Char := [Nat.digitChar n, (Nat.digitChar n).toUpper]

inductive Escapes : List UInt8 → List Char → Prop
  | nil : Escapes [] []
  | cons {byte : UInt8} {high low : Char} {bytes : List UInt8} {cs : List Char} :
      high ∈ hexDigits (byte.toNat / 16) → low ∈ hexDigits (byte.toNat % 16) → Escapes bytes cs →
        Escapes (byte :: bytes) ('%' :: high :: low :: cs)

def isSpecial (c : Char) : Bool :=
  ['&', '=', '+', '%'].contains c || isBlank c || 127 < c.toNat

inductive SpellsChar : Char → List Char → Prop
  | plain {c : Char} : isSpecial c = false → SpellsChar c [c]
  | plus : SpellsChar ' ' ['+']
  | escaped {c : Char} {cs : List Char} : Escapes (String.utf8EncodeChar c) cs → SpellsChar c cs

inductive Spells : List Char → List Char → Prop
  | nil : Spells [] []
  | cons {c : Char} {text word cs : List Char} : SpellsChar c word → Spells text cs → Spells (c :: text) (word ++ cs)

variable {c : Char} {text cs : List Char} {b byte : UInt8} {bytes : List UInt8}

/-! ## The characters of a spelling -/

theorem hexDigits_spec : ∀ n < 16, ∀ c ∈ hexDigits n,
    String.utf8EncodeChar c = [UInt8.ofNat c.toNat] ∧ hexValue? (UInt8.ofNat c.toNat) = some n ∧
      isBlank c = false ∧ c ∉ ['&', '=', '+'] := by
  intro n hn c hc
  rcases List.mem_pair.mp hc with rfl | rfl
  · clear hc
    revert n
    decide
  · clear hc
    revert n
    decide

theorem high_lt (byte : UInt8) : byte.toNat / 16 < 16 := by
  have := byte.toNat_lt
  omega

theorem low_lt (byte : UInt8) : byte.toNat % 16 < 16 := Nat.mod_lt _ (by decide)

theorem Escapes.mem (h : Escapes bytes cs) (hc : c ∈ cs) : isBlank c = false ∧ c ∉ ['&', '=', '+'] := by
  induction h with
  | nil => cases hc
  | @cons byte high low bytes cs hhigh hlow h ih =>
    simp only [List.mem_cons] at hc
    rcases hc with rfl | rfl | rfl | hc
    · decide
    · exact (hexDigits_spec _ (high_lt byte) _ hhigh).2.2
    · exact (hexDigits_spec _ (low_lt byte) _ hlow).2.2
    · exact ih hc

/-- No spelling has a blank or a separator in it. -/
theorem Spells.mem (h : Spells text cs) (hc : c ∈ cs) : isBlank c = false ∧ c ∉ ['&', '='] := by
  induction h with
  | nil => cases hc
  | cons hchar h ih =>
    rcases List.mem_append.mp hc with hc | hc
    · cases hchar with
      | plain hplain =>
        obtain rfl := List.mem_singleton.mp hc
        simp only [isSpecial, Bool.or_eq_false_iff] at hplain
        simp_all
      | plus =>
        obtain rfl := List.mem_singleton.mp hc
        decide
      | escaped hescapes =>
        have hmem := hescapes.mem hc
        simp_all
    · exact ih hc

/-! ## Decoding a spelling -/

theorem utf8EncodeChar_of_lt (h : c.toNat < 128) : String.utf8EncodeChar c = [UInt8.ofNat c.toNat] := by
  have hsize : c.val.toNat ≤ 127 := Nat.le_of_lt_succ h
  simp only [String.utf8EncodeChar, if_pos hsize]
  rfl

theorem ofUtf8?_utf8 (cs : List Char) : ofUtf8? (utf8 cs) = some cs := by
  have hvalid : (utf8 cs).toByteArray.IsValidUTF8 := ⟨cs, rfl⟩
  rw [ofUtf8?, String.fromUTF8?, dif_pos hvalid]
  exact congrArg some (String.toList_ofList (l := cs))

theorem utf8_append (cs ds : List Char) : utf8 (cs ++ ds) = utf8 cs ++ utf8 ds :=
  List.flatMap_append

theorem decode_cons (h : b ≠ sign) (bytes : List UInt8) : decode (b :: bytes) = b :: decode bytes := by
  match bytes with
  | [] => rfl
  | [_] => rfl
  | _ :: _ :: _ => rw [decode, if_neg h]

/-- A part of a query with its pluses read as spaces. -/
def spaced (cs : List Char) : List Char :=
  cs.map fun c => if c = '+' then ' ' else c

theorem spaced_append (cs ds : List Char) : spaced (cs ++ ds) = spaced cs ++ spaced ds :=
  List.map_append

theorem Escapes.spaced_eq (h : Escapes bytes cs) : spaced cs = cs := by
  refine (List.map_congr_left ?_).trans (List.map_id cs)
  intro c hc
  refine if_neg ?_
  rintro rfl
  exact (h.mem hc).2 (by decide)

theorem escaped?_digits {high low : Char} (hhigh : high ∈ hexDigits (byte.toNat / 16))
    (hlow : low ∈ hexDigits (byte.toNat % 16)) :
    escaped? (UInt8.ofNat high.toNat) (UInt8.ofNat low.toNat) = some byte := by
  have hvalue := (hexDigits_spec _ (high_lt byte) _ hhigh).2.1
  have hvalue' := (hexDigits_spec _ (low_lt byte) _ hlow).2.1
  have hbyte : UInt8.ofNat (16 * (byte.toNat / 16) + byte.toNat % 16) = byte := by
    rw [Nat.div_add_mod, UInt8.ofNat_toNat]
  simp only [escaped?, hvalue, hvalue', Option.bind_eq_bind, Option.bind_some, hbyte]
  rfl

theorem utf8_digits {high low : Char} (hhigh : high ∈ hexDigits (byte.toNat / 16))
    (hlow : low ∈ hexDigits (byte.toNat % 16)) (cs : List Char) :
    utf8 ('%' :: high :: low :: cs) = sign :: UInt8.ofNat high.toNat :: UInt8.ofNat low.toNat :: utf8 cs := by
  have hsign : String.utf8EncodeChar '%' = [sign] := by decide
  simp only [utf8, List.flatMap_cons, hsign, (hexDigits_spec _ (high_lt byte) _ hhigh).1,
    (hexDigits_spec _ (low_lt byte) _ hlow).1, List.singleton_append]

/-- Escapes give their bytes, whatever stands after them. -/
theorem Escapes.decode (h : Escapes bytes cs) (rest : List UInt8) :
    Percent.decode (utf8 cs ++ rest) = bytes ++ Percent.decode rest := by
  induction h with
  | nil => rfl
  | @cons byte high low bytes cs hhigh hlow h ih =>
    rw [utf8_digits hhigh hlow]
    simp only [List.cons_append, Percent.decode, if_pos, escaped?_digits hhigh hlow, ih]

/-- A spelled character gives its bytes, whatever stands after it. -/
theorem SpellsChar.decode {word : List Char} (h : SpellsChar c word) (rest : List UInt8) :
    Percent.decode (utf8 (spaced word) ++ rest) = String.utf8EncodeChar c ++ Percent.decode rest := by
  cases h with
  | plain hplain =>
    simp only [isSpecial, Bool.or_eq_false_iff, decide_eq_false_iff_not, Nat.not_lt] at hplain
    obtain ⟨⟨hmem, -⟩, hsize⟩ := hplain
    have hplus : c ≠ '+' := by
      rintro rfl
      cases hmem
    have hbyte := utf8EncodeChar_of_lt (Nat.lt_succ_of_le hsize)
    have hsign : UInt8.ofNat c.toNat ≠ sign := by
      intro heq
      have hc : c.toNat = 37 := by
        have := congrArg UInt8.toNat heq
        rw [UInt8.toNat_ofNat', Nat.mod_eq_of_lt (by omega)] at this
        exact this
      obtain rfl : c = '%' := Char.toNat_inj.mp hc
      cases hmem
    simp only [spaced, List.map_cons, List.map_nil, if_neg hplus, utf8, List.flatMap_cons, List.flatMap_nil,
      List.append_nil, hbyte, List.singleton_append]
    exact decode_cons hsign rest
  | plus =>
    have hspace : utf8 (spaced ['+']) = [0x20] := by decide
    have hspace' : String.utf8EncodeChar ' ' = [0x20] := by decide
    rw [hspace, hspace']
    exact decode_cons (by decide) rest
  | escaped hescapes => rw [hescapes.spaced_eq, hescapes.decode]

theorem Spells.decode (h : Spells text cs) : Percent.decode (utf8 (spaced cs)) = utf8 text := by
  induction h with
  | nil => rfl
  | cons hchar _ ih =>
    rw [spaced_append, utf8_append, hchar.decode, ih]
    rfl

/-- Each spelling of a text decodes to the text. -/
theorem Spells.decodeComponent (h : Spells text cs) : decodeComponent cs = text := by
  have hcomponent : Percent.decodeComponent cs = (ofUtf8? (Percent.decode (utf8 (spaced cs)))).getD (spaced cs) := rfl
  rw [hcomponent, h.decode, ofUtf8?_utf8, Option.getD_some]

end TrafficPolicy.Text.Percent
