import TrafficPolicy.Proofs.Address.Digits

/-!
# Addresses that are read as they were written

The text of every address is read as that address, whatever part of it was left out or shown in octets.
-/

namespace TrafficPolicy.Address

/-! ## Octets -/

private theorem octetsText_four (a b c d : UInt8) :
    (octetsText [a, b, c, d]).toList = Nat.toDigits 10 a.toNat ++ '.' :: (Nat.toDigits 10 b.toNat ++
      '.' :: (Nat.toDigits 10 c.toNat ++ '.' :: Nat.toDigits 10 d.toNat)) := by
  simp [octetsText, Text.joinWith]

private theorem readOctets_text (a b c d : UInt8) :
    readOctets (octetsText [a, b, c, d]).toList = some (#v[a, b, c, d], []) := by
  have hdot (rest : List Char) : Stops 10 ('.' :: rest) := by
    intro c hc
    obtain rfl := Option.some.inj hc
    decide
  have hend : Stops 10 [] := nofun
  have hlast : readOctet (Nat.toDigits 10 d.toNat) = some (d, []) := by
    simpa using readOctet_toDigits d hend
  rw [octetsText_four]
  simp [readOctets, readOctet_toDigits _ (hdot _), hlast, readChar]

private theorem mem_of_readOctets {cs : List Char} {result : Vector UInt8 4 × List Char}
    (h : readOctets cs = some result) : '.' ∈ cs := by
  simp only [readOctets, Option.bind_eq_bind] at h
  obtain ⟨⟨a, rest⟩, ha, h⟩ := Option.bind_eq_some_iff.mp h
  obtain ⟨⟨_, rest'⟩, hdot, -⟩ := Option.bind_eq_some_iff.mp h
  have hrest : rest = cs.dropWhile (isDigitOf 10) := by
    simp only [readOctet, readDigits] at ha
    obtain ⟨-, ha⟩ := Option.ite_none_left_eq_some.mp ha
    exact (congrArg Prod.snd (Option.some.inj ha)).symm
  have hmem : '.' ∈ rest := by
    cases rest with
    | nil => cases hdot
    | cons c rest =>
      simp only [readChar] at hdot
      split at hdot
      · rename_i hc
        exact hc ▸ List.mem_cons_self
      · cases hdot
  rw [hrest] at hmem
  exact (List.dropWhile_suffix _).subset hmem

private theorem readOctets_eq_none {cs : List Char} (h : '.' ∉ cs) : readOctets cs = none :=
  Option.eq_none_iff_forall_ne_some.mpr fun _ hsome => h (mem_of_readOctets hsome)

/-! ## Groups -/

/-- Groups in hexadecimal, each after a colon, which is left out at the first place. -/
private def groupChars : Bool → List UInt16 → List Char
  | _, [] => []
  | true, w :: ws => Nat.toDigits 16 w.toNat ++ groupChars false ws
  | false, w :: ws => ':' :: (Nat.toDigits 16 w.toNat ++ groupChars false ws)

private theorem toList_groupsText (words : List UInt16) : (groupsText words).toList = groupChars true words := by
  induction words with
  | nil => rfl
  | cons w ws ih =>
    cases ws with
    | nil => simp [groupsText, groupChars, Text.joinWith]
    | cons v ws =>
      have hcons : (groupsText (w :: v :: ws)).toList =
          Nat.toDigits 16 w.toNat ++ ':' :: (groupsText (v :: ws)).toList := by
        simp [groupsText, Text.joinWith]
      rw [hcons, ih]
      rfl

private theorem dot_not_mem_toDigits (n : Nat) : '.' ∉ Nat.toDigits 16 n := fun h =>
  absurd (isDigitOf_of_mem_toDigits (by decide) (by decide) h) (by decide)

private theorem dot_not_mem_groupChars (first : Bool) (words : List UInt16) : '.' ∉ groupChars first words := by
  induction words generalizing first with
  | nil => simp [groupChars]
  | cons w ws ih => cases first <;> simp [groupChars, dot_not_mem_toDigits, ih]

/-- Where groups end: with the text, or where groups are left out. -/
private def Ends (rest : List Char) : Prop := rest = [] ∨ ∃ later, rest = ':' :: ':' :: later

private theorem stops_colon (rest : List Char) : Stops 16 (':' :: rest) := by
  intro c hc
  obtain rfl := Option.some.inj hc
  decide

private theorem Ends.stops {rest : List Char} (h : Ends rest) : Stops 16 rest := by
  rcases h with rfl | ⟨later, rfl⟩
  · exact nofun
  · exact stops_colon _

private theorem stops_groupChars {rest : List Char} (h : Ends rest) (words : List UInt16) :
    Stops 16 (groupChars false words ++ rest) := by
  cases words with
  | nil => exact h.stops
  | cons w ws => exact stops_colon _

private theorem afterColon_none {α : Type} {reader : Reads α} {first : Bool} {cs : List Char}
    (h : ∀ rest, rest <:+ cs → reader rest = none) : afterColon first reader cs = none := by
  unfold afterColon
  split
  · exact h cs List.suffix_rfl
  · cases cs with
    | nil => rfl
    | cons c cs =>
      simp only [readChar]
      split
      · exact h cs (List.suffix_cons c cs)
      · rfl

private theorem readGroups_chars {words : List UInt16} {rest : List Char} (hrest : Ends rest)
    (hdot : '.' ∉ rest) (first : Bool) {n : Nat} (hn : words.length ≤ n) :
    readGroups first n (groupChars first words ++ rest) = (words, false, rest) := by
  have hoctets (first : Bool) (n : Nat) (words : List UInt16) :
      (if 1 ≤ n then afterColon first readOctets (groupChars first words ++ rest) else none) = none := by
    split
    · refine afterColon_none fun tail htail => readOctets_eq_none fun hmem => ?_
      rcases List.mem_append.mp (htail.subset hmem) with h | h
      · exact dot_not_mem_groupChars first words h
      · exact hdot h
    · rfl
  induction words generalizing first n with
  | nil =>
    have hgroup : afterColon first readGroup rest = none := by
      rcases hrest with rfl | ⟨later, rfl⟩
      · exact afterColon_none fun tail htail => by
          rw [List.suffix_nil.mp htail]
          rfl
      · have hgroup (tail : List Char) : readGroup (':' :: tail) = none :=
          readGroup_of_stops (stops_colon tail)
        cases first with
        | true => exact hgroup (':' :: later)
        | false => exact hgroup later
    cases n with
    | zero => rfl
    | succ n =>
      have ho := hoctets first n []
      simp only [groupChars, List.nil_append] at ho ⊢
      simp only [readGroups, ho, hgroup]
  | cons w ws ih =>
    cases n with
    | zero => simp at hn
    | succ n =>
      have hlen : ws.length ≤ n := by simpa using hn
      have hgroup : afterColon first readGroup (groupChars first (w :: ws) ++ rest) =
          some (w, groupChars false ws ++ rest) := by
        have hread := readGroup_toDigits w (stops_groupChars hrest ws)
        cases first with
        | true => simpa [afterColon, groupChars] using hread
        | false => simpa [afterColon, groupChars, readChar] using hread
      simp only [readGroups, hoctets, hgroup, ih false hlen]

/-! ## Groups that are left out -/

private theorem longestRun_spec (start : Nat) (words : List UInt16) :
    ∃ before after, words = before ++ List.replicate (longestRun start words).2 0 ++ after ∧
      (longestRun start words).1 = start + before.length := by
  induction words generalizing start with
  | nil => exact ⟨[], [], rfl, rfl⟩
  | cons w ws ih =>
    simp only [longestRun]
    split
    · refine ⟨[], (w :: ws).dropWhile (· == 0), ?_, rfl⟩
      have hzeros : (w :: ws).takeWhile (· == 0) = List.replicate (zeroRun (w :: ws)) 0 := by
        refine List.eq_replicate_iff.mpr ⟨rfl, fun x hx => ?_⟩
        simpa using List.all_eq_true.mp List.all_takeWhile x hx
      rw [List.nil_append, ← hzeros, List.takeWhile_append_dropWhile]
    · obtain ⟨before, after, hws, hstart⟩ := ih (start + 1)
      refine ⟨w :: before, after, ?_, ?_⟩
      · rw [List.cons_append, List.cons_append, ← hws]
      · rw [hstart, List.length_cons]
        omega

/-- What is written of groups, some of which may be left out, gives all of them. -/
private theorem readGroupAddress_chars {head tail : List UInt16} {count : Nat}
    (hlen : head.length + count + tail.length = 8) (hcount : 0 < count) :
    readGroupAddress (groupChars true head ++ ':' :: ':' :: groupChars true tail) =
      (ofGroups? (head ++ List.replicate count 0 ++ tail)).map (·, []) := by
  have hhead : readGroups true 8 (groupChars true head ++ ':' :: ':' :: groupChars true tail) =
      (head, false, ':' :: ':' :: groupChars true tail) := by
    refine readGroups_chars (.inr ⟨_, rfl⟩) ?_ true (by omega)
    simpa using dot_not_mem_groupChars true tail
  have htail : readGroups true (7 - head.length) (groupChars true tail) = (tail, false, []) := by
    simpa using @readGroups_chars tail [] (.inl rfl) (by simp) true (7 - head.length) (by omega)
  have hzeros : 8 - head.length - tail.length = count := by omega
  have hne : head.length ≠ 8 := by omega
  simp [readGroupAddress, hhead, htail, hzeros, hne, readChar]

private theorem readGroupAddress_all {words : List UInt16} (hlen : words.length = 8) :
    readGroupAddress (groupChars true words) = (ofGroups? words).map (·, []) := by
  have hread : readGroups true 8 (groupChars true words) = (words, false, []) := by
    simpa using @readGroups_chars words [] (.inl rfl) (by simp) true 8 (by omega)
  simp [readGroupAddress, hread, hlen]

private theorem joined_halves (word : UInt16) :
    (word >>> 8).toUInt8.toUInt16 <<< 8 ||| word.toUInt8.toUInt16 = word := by
  have hlt : word.toNat < 65536 := word.toNat_lt
  have hlow : word.toNat % 256 < 2 ^ 8 := Nat.mod_lt _ (by decide)
  rw [← UInt16.toNat_inj]
  simp only [UInt16.toNat_or, UInt16.toNat_shiftLeft, UInt8.toNat_toUInt16, UInt16.toNat_toUInt8,
    UInt16.toNat_shiftRight, UInt16.reduceToNat, Nat.reduceMod]
  have hhigh : (word.toNat >>> 8 % 2 ^ 8) <<< 8 % 2 ^ 16 = (word.toNat / 256) <<< 8 := by
    simp only [Nat.shiftRight_eq_div_pow, Nat.shiftLeft_eq]
    omega
  rw [hhigh, ← Nat.shiftLeft_add_eq_or_of_lt hlow, Nat.shiftLeft_eq]
  omega

private theorem groupsOfOctets_embedded (high low : UInt16) :
    groupsOfOctets #v[(high >>> 8).toUInt8, high.toUInt8, (low >>> 8).toUInt8, low.toUInt8] =
      [high, low] :=
  congrArg₂ (fun a b => [a, b]) (joined_halves high) (joined_halves low)

private theorem readOctets_of_stops {cs : List Char} (h : Stops 10 cs) : readOctets cs = none := by
  have htake : cs.takeWhile (isDigitOf 10) = [] := by
    cases cs with
    | nil => rfl
    | cons c cs => rw [List.takeWhile_cons_of_neg (by simp [h c rfl])]
  simp [readOctets, readOctet, readDigits, htake]

private theorem stops_of_head {c : Char} (hc : isDigitOf 10 c = false) (rest : List Char) :
    Stops 10 (c :: rest) := by
  intro d hd
  obtain rfl := Option.some.inj hd
  exact hc

private theorem readGroupAddress_embedded (a b c d : UInt8) :
    readGroupAddress ("::ffff:".toList ++ (octetsText [a, b, c, d]).toList) =
      (ofGroups? ([0, 0, 0, 0, 0, 0xFFFF] ++ groupsOfOctets #v[a, b, c, d])).map (·, []) := by
  have hchars : "::ffff:".toList = [':', ':', 'f', 'f', 'f', 'f', ':'] := rfl
  have hffff : Nat.toDigits 16 (0xFFFF : UInt16).toNat = ['f', 'f', 'f', 'f'] := by decide
  have hhead (rest : List Char) : readGroups true 8 (':' :: rest) = ([], false, ':' :: rest) := by
    simp [readGroups, afterColon, readOctets_of_stops (stops_of_head (c := ':') (by decide) rest),
      readGroup_of_stops (stops_colon rest)]
  have hgroup (rest : List Char) : readGroup ('f' :: 'f' :: 'f' :: 'f' :: ':' :: rest) =
      some (0xFFFF, ':' :: rest) := by
    have hread := readGroup_toDigits 0xFFFF (stops_colon rest)
    rw [hffff] at hread
    exact hread
  have htail : readGroups true 7 ('f' :: 'f' :: 'f' :: 'f' :: ':' :: (octetsText [a, b, c, d]).toList) =
      (0xFFFF :: groupsOfOctets #v[a, b, c, d], true, []) := by
    have hf (rest : List Char) := readOctets_of_stops (stops_of_head (c := 'f') (by decide) rest)
    simp [readGroups, afterColon, hf, hgroup, readChar, readOctets_text]
  have hlen : (groupsOfOctets #v[a, b, c, d]).length = 2 := rfl
  simp [hchars, readGroupAddress, hhead, readChar, htail, hlen]

private theorem ofGroups?_toList (words : Vector UInt16 8) : ofGroups? words.toList = some words := by
  obtain ⟨⟨list⟩, hlen⟩ := words
  have hlist : list.length = 8 := by simpa using hlen
  simp [ofGroups?, hlist]

private theorem embedded?_eq_some {list : List UInt16} {bytes : List UInt8} (h : embedded? list = some bytes) :
    ∃ high low, list = [0, 0, 0, 0, 0, 0xFFFF, high, low] ∧
      bytes = [(high >>> 8).toUInt8, high.toUInt8, (low >>> 8).toUInt8, low.toUInt8] := by
  unfold embedded? at h
  split at h
  · exact ⟨_, _, rfl, (Option.some.inj h).symm⟩
  · cases h

/-- Groups that are left out between others are read as zeros. -/
private theorem readAddress_chars {before after : List UInt16} {count : Nat}
    (hlen : before.length + count + after.length = 8) (hcount : 0 < count) {words : Vector UInt16 8}
    (hof : ofGroups? (before ++ List.replicate count 0 ++ after) = some words) :
    readAddress (groupsText before ++ "::" ++ groupsText after).toList = some (.groups words, []) := by
  have hread := readGroupAddress_chars hlen hcount
  rw [hof] at hread
  have hdot : '.' ∉ groupChars true before ++ ':' :: ':' :: groupChars true after := by
    simp [dot_not_mem_groupChars]
  have hcolons : groupChars true before ++ "::".toList ++ groupChars true after =
      groupChars true before ++ ':' :: ':' :: groupChars true after := by simp
  simp only [String.toList_append, toList_groupsText]
  rw [hcolons, readAddress, readOctets_eq_none hdot, hread]
  rfl

private theorem readAddress_groups (words : Vector UInt16 8) :
    readAddress (text (.groups words)).toList = some (.groups words, []) := by
  have hlen : words.toList.length = 8 := by simp
  have hof := ofGroups?_toList words
  revert hlen hof
  simp only [text]
  generalize words.toList = list
  intro hlen hof
  cases hembedded : embedded? list with
  | some bytes =>
    obtain ⟨high, low, rfl, rfl⟩ := embedded?_eq_some hembedded
    have hoctets (rest : List Char) := readOctets_of_stops (stops_of_head (c := ':') (by decide) rest)
    have hread := readGroupAddress_embedded (high >>> 8).toUInt8 high.toUInt8 (low >>> 8).toUInt8 low.toUInt8
    rw [groupsOfOctets_embedded] at hread
    have hchars : "::ffff:".toList = ':' :: ':' :: ['f', 'f', 'f', 'f', ':'] := rfl
    simp only [readAddress, String.toList_append, hread]
    rw [hchars, List.cons_append, hoctets]
    simp only [List.cons_append, List.nil_append] at hof ⊢
    rw [hof]
    rfl
  | none =>
    obtain ⟨before, after, hlist, hstart⟩ := longestRun_spec 0 list
    revert hlist hstart
    rcases longestRun 0 list with ⟨start, count⟩
    intro hlist hstart
    obtain rfl : start = before.length := by simpa using hstart
    dsimp only at hlist ⊢
    split
    · rename_i hlong
      rw [hlist] at hlen
      simp only [List.length_append, List.length_replicate] at hlen
      have hbefore : list.take before.length = before := by simp [hlist]
      have hafter : list.drop (before.length + count) = after := by simp [hlist]
      rw [hbefore, hafter]
      exact readAddress_chars hlen (by omega) (hlist ▸ hof)
    · have hread := readGroupAddress_all hlen
      rw [hof] at hread
      rw [toList_groupsText, readAddress, readOctets_eq_none (dot_not_mem_groupChars true list), hread]
      rfl

theorem read?_text (address : Address) : read? address.text = some address := by
  cases address with
  | octets bytes =>
    obtain ⟨⟨list⟩, hlen⟩ := bytes
    have hlist : list.length = 4 := by simpa using hlen
    match list, hlist with
    | [a, b, c, d], _ => simp [read?, whole?, text, readAddress, readOctets_text]
  | groups words => simp [read?, whole?, readAddress_groups]

/-! ## Characters -/

def IsAddressChar (c : Char) : Prop := isDigitOf 16 c ∨ c = '.' ∨ c = ':'

private theorem octetsText_chars {bytes : List UInt8} {c : Char} (h : c ∈ (octetsText bytes).toList) :
    IsAddressChar c := by
  rcases Text.mem_joinWith h with h | ⟨piece, hpiece, h⟩
  · exact .inr (.inl (List.mem_singleton.mp (show c ∈ ['.'] from h)))
  · obtain ⟨byte, -, rfl⟩ := List.mem_map.mp hpiece
    rw [Nat.toString_eq_repr, Nat.toList_repr] at h
    have hten := isDigitOf_of_mem_toDigits (by decide) (by decide) h
    left
    unfold isDigitOf at hten ⊢
    split at hten
    · simp only [decide_eq_true_eq] at hten ⊢
      omega
    · cases hten

private theorem groupsText_chars {words : List UInt16} {c : Char} (h : c ∈ (groupsText words).toList) :
    IsAddressChar c := by
  rcases Text.mem_joinWith h with h | ⟨piece, hpiece, h⟩
  · exact .inr (.inr (List.mem_singleton.mp (show c ∈ [':'] from h)))
  · obtain ⟨word, -, rfl⟩ := List.mem_map.mp hpiece
    rw [String.toList_ofList] at h
    exact .inl (isDigitOf_of_mem_toDigits (by decide) (by decide) h)

theorem text_chars {address : Address} {c : Char} (h : c ∈ address.text.toList) : IsAddressChar c := by
  have hfixed : ∀ c ∈ "::ffff:".toList, IsAddressChar c := by
    have hall : "::ffff:".toList.all fun c => isDigitOf 16 c || c == '.' || c == ':' := by decide
    intro c hc
    simpa [IsAddressChar, or_assoc] using List.all_eq_true.mp hall c hc
  cases address with
  | octets bytes => exact octetsText_chars h
  | groups words =>
    simp only [text] at h
    split at h
    · rw [String.toList_append, List.mem_append] at h
      exact h.elim (hfixed c) octetsText_chars
    · split at h
      · simp only [String.toList_append, List.mem_append] at h
        rcases h with (h | h) | h
        · exact groupsText_chars h
        · exact hfixed c (List.mem_of_mem_take (i := 2) h)
        · exact groupsText_chars h
      · exact groupsText_chars h

end TrafficPolicy.Address
