import TrafficPolicy.Proofs.Grammar.Spelled
import TrafficPolicy.Proofs.Grammar.UrlRule

/-!
# Url rules with several parts

The mode and three of the slots may be filled only once in a command, and the first part that fills one of them
again is in conflict with the part that has. Of the other slots the last part counts. So what a list of parts
says depends on their order only as far as parts for the same slot are concerned.
-/

namespace TrafficPolicy

open Text WordReader

/-! ## Parts and slots -/

namespace UrlPart

/-- The slot that a part fills; the mode is none of them. -/
def slot? : UrlPart → Option Slot
  | .mode _ => none
  | .occupant s _ => some s

def exclusiveName? : UrlPart → Option String
  | .mode _ => some "mode"
  | .occupant s _ => s.exclusiveName?

def command : UrlPart → String
  | .mode m => m.keyword
  | .occupant s value => s.command value

/-- The second part fills again what the first has filled, and may not. -/
def Clashes (first second : UrlPart) : Prop :=
  first.slot? = second.slot? ∧ second.exclusiveName?.isSome

instance (first second : UrlPart) : Decidable (first.Clashes second) := inferInstanceAs (Decidable (_ ∧ _))

/-- Of all parts that fill its slot a part is the last one. -/
def Last (part : UrlPart) (parts : List UrlPart) : Prop :=
  ∃ before later, parts = before ++ part :: later ∧ ∀ other ∈ later, other.slot? ≠ part.slot?

variable {part first second : UrlPart} {parts : List UrlPart}

theorem exclusiveName?_eq (h : first.slot? = second.slot?) : first.exclusiveName? = second.exclusiveName? := by
  cases first with
  | mode _ =>
    cases second with
    | mode _ => rfl
    | occupant _ _ => cases h
  | occupant s _ =>
    cases second with
    | mode _ => cases h
    | occupant t _ =>
      obtain rfl : s = t := Option.some.inj h
      rfl

theorem not_last_nil : ¬part.Last [] := by
  rintro ⟨before, later, hparts, -⟩
  exact absurd hparts (by simp)

theorem last_concat (new : UrlPart) :
    part.Last (parts ++ [new]) ↔ part = new ∨ (new.slot? ≠ part.slot? ∧ part.Last parts) := by
  constructor
  · rintro ⟨before, later, hparts, hlater⟩
    rcases List.eq_nil_or_concat later with rfl | ⟨later, last, rfl⟩
    · exact .inl (List.singleton_inj.mp (List.append_inj' hparts rfl).2).symm
    · rw [List.concat_eq_append, ← List.cons_append, ← List.append_assoc] at hparts
      obtain ⟨hinit, hlast⟩ := List.append_inj' hparts rfl
      obtain rfl : new = last := List.singleton_inj.mp hlast
      refine .inr ⟨hlater new (by simp), before, later, hinit, ?_⟩
      intro other hother
      exact hlater other (by simp [hother])
  · rintro (rfl | ⟨hne, before, later, rfl, hlater⟩)
    · exact ⟨parts, [], rfl, nofun⟩
    · refine ⟨before, later ++ [new], by simp, ?_⟩
      intro other hother
      rcases List.mem_append.mp hother with hmem | hmem
      · exact hlater other hmem
      · obtain rfl := List.mem_singleton.mp hmem
        exact hne

theorem Last.mem (h : part.Last parts) : part ∈ parts := by
  obtain ⟨before, later, rfl, -⟩ := h
  exact List.mem_append_right _ List.mem_cons_self

/-- Without a clash a part that may be there only once is the only one for its slot. -/
theorem last_iff_mem (hfree : parts.Pairwise fun a b => ¬a.Clashes b) (hname : part.exclusiveName?.isSome) :
    part.Last parts ↔ part ∈ parts := by
  refine ⟨Last.mem, fun hmem => ?_⟩
  obtain ⟨before, later, rfl⟩ := List.append_of_mem hmem
  refine ⟨before, later, rfl, ?_⟩
  intro other hother hslot
  have hclash : ¬part.Clashes other :=
    (List.pairwise_cons.mp (List.pairwise_append.mp hfree).2.1).1 other hother
  exact hclash ⟨hslot.symm, exclusiveName?_eq hslot.symm ▸ hname⟩

theorem last_iff_mem_of_nodup (h : (parts.map slot?).Nodup) : part.Last parts ↔ part ∈ parts := by
  refine ⟨Last.mem, fun hmem => ?_⟩
  obtain ⟨before, later, rfl⟩ := List.append_of_mem hmem
  refine ⟨before, later, rfl, ?_⟩
  intro other hother hslot
  rw [List.map_append, List.map_cons, List.nodup_append, List.nodup_cons] at h
  exact h.2.1.1 (hslot ▸ List.mem_map_of_mem hother)

theorem pairwise_of_nodup (h : (parts.map slot?).Nodup) : parts.Pairwise fun a b => ¬a.Clashes b :=
  (List.pairwise_map.mp h).imp fun hne hclash => hne hclash.1

end UrlPart

/-! ## Filling slots -/

namespace UrlRule

variable {rule next : UrlRule} {part : UrlPart} {parts done : List UrlPart}

def Has (rule : UrlRule) : UrlPart → Prop
  | .mode mode => rule.mode = some mode
  | .occupant s value => rule.slots.get s = some value

/-- A rule holds of each slot what the last part for it says. -/
def Holds (rule : UrlRule) (parts : List UrlPart) : Prop :=
  ∀ part, rule.Has part ↔ part.Last parts

theorem holds_nil : ({} : UrlRule).Holds [] := by
  intro part
  refine ⟨fun hhas => ?_, fun hlast => absurd hlast UrlPart.not_last_nil⟩
  cases part with
  | mode mode => cases hhas
  | occupant s value =>
    rw [Has, Slots.get_empty] at hhas
    cases hhas

/-- Two rules that hold the same are the same but for the target. -/
theorem Holds.unique (h : rule.Holds parts) (h' : next.Holds done)
    (hlast : ∀ part : UrlPart, part.Last parts ↔ part.Last done) (htarget : rule.target = next.target) :
    rule = next := by
  have hhas : ∀ part, rule.Has part ↔ next.Has part := fun part => (h part).trans ((hlast part).trans (h' part).symm)
  have hmode : rule.mode = next.mode := Option.ext fun mode => hhas (.mode mode)
  have hslots : rule.slots = next.slots := Slots.ext_get fun s => Option.ext fun value => hhas (.occupant s value)
  cases rule
  cases next
  simp_all

theorem has_place (h : rule.place part = .ok next) (other : UrlPart) :
    next.Has other ↔ other = part ∨ (part.slot? ≠ other.slot? ∧ rule.Has other) := by
  cases part with
  | mode mode =>
    simp only [place] at h
    split at h <;> cases h
    cases other with
    | mode mode' => simp [Has, UrlPart.slot?, eq_comm]
    | occupant s value => simp [Has, UrlPart.slot?]
  | occupant s value =>
    simp only [place] at h
    split at h <;> cases h
    cases other with
    | mode mode => simp [Has, UrlPart.slot?]
    | occupant t value' =>
      by_cases hst : s = t
      · subst hst
        simp [Has, UrlPart.slot?, eq_comm]
      · simp [Has, UrlPart.slot?, hst, Slots.get_put_of_ne _ _ (Ne.symm hst), Ne.symm hst]

theorem exists_place (h : ∀ first, rule.Has first → ¬first.Clashes part) :
    ∃ next, rule.place part = .ok next ∧ next.target = rule.target := by
  cases part with
  | mode mode =>
    cases hmode : rule.mode with
    | none => exact ⟨{ rule with mode := some mode }, by simp only [place, hmode], rfl⟩
    | some first => exact absurd ⟨rfl, rfl⟩ (h (.mode first) hmode)
  | occupant s value =>
    have hrival : rule.rival? s = none := by
      unfold rival?
      cases hname : s.exclusiveName? with
      | none => rfl
      | some name =>
        cases hget : rule.slots.get s with
        | none => rfl
        | some first =>
          have hsome : (UrlPart.occupant s value).exclusiveName?.isSome := by
            rw [UrlPart.exclusiveName?, hname]
            rfl
          exact absurd ⟨rfl, hsome⟩ (h (.occupant s first) hget)
    exact ⟨{ rule with slots := rule.slots.put s (some value) }, by simp only [place, hrival], rfl⟩

theorem place_conflict {first : UrlPart} {name : String} (hfirst : rule.Has first)
    (hslot : first.slot? = part.slot?) (hname : part.exclusiveName? = some name) :
    rule.place part = .error (.conflict name first.command part.command) := by
  cases part with
  | mode mode =>
    cases first with
    | mode mode' =>
      have hmode : rule.mode = some mode' := hfirst
      obtain rfl : "mode" = name := Option.some.inj hname
      simp only [place, hmode, UrlPart.command]
    | occupant _ _ => cases hslot
  | occupant s value =>
    cases first with
    | mode _ => cases hslot
    | occupant t first =>
      obtain rfl : t = s := Option.some.inj hslot
      have hrival : rule.rival? t = some (name, first) := by
        have hget : rule.slots.get t = some first := hfirst
        have hname : t.exclusiveName? = some name := hname
        simp only [rival?, hname, hget]
        rfl
      simp only [place, hrival, UrlPart.command]

theorem Holds.place (h : rule.Holds done) (hplace : rule.place part = .ok next) : next.Holds (done ++ [part]) := by
  intro other
  rw [has_place hplace, UrlPart.last_concat, h other]

theorem Holds.foldlM_place (h : rule.Holds done) (hfree : (done ++ parts).Pairwise fun a b => ¬a.Clashes b) :
    ∃ result, parts.foldlM UrlRule.place rule = .ok result ∧ result.Holds (done ++ parts) ∧
      result.target = rule.target := by
  -- A rule has nothing but parts that are done, and with none of these the next part clashes.
  induction parts generalizing rule done with
  | nil => exact ⟨rule, rfl, by rwa [List.append_nil], rfl⟩
  | cons part parts ih =>
    have hclash : ∀ first, rule.Has first → ¬first.Clashes part := by
      intro first hfirst
      have hmem : first ∈ done := ((h first).mp hfirst).mem
      exact (List.pairwise_append.mp hfree).2.2 first hmem part List.mem_cons_self
    obtain ⟨next, hplace, htarget⟩ := exists_place hclash
    rw [List.append_cons] at hfree ⊢
    obtain ⟨result, hresult, hholds, htarget'⟩ := ih (h.place hplace) hfree
    refine ⟨result, ?_, hholds, htarget'.trans htarget⟩
    rw [List.foldlM_cons, hplace]
    exact hresult

theorem foldlM_place_empty (hfree : parts.Pairwise fun a b => ¬a.Clashes b) :
    ∃ result, parts.foldlM UrlRule.place {} = .ok result ∧ result.Holds parts ∧ result.target = none := by
  have hplaced := holds_nil.foldlM_place (List.nil_append parts ▸ hfree)
  rwa [List.nil_append] at hplaced

/-- The first part that clashes with one in front of it is refused. -/
theorem foldlM_place_conflict {before later : List UrlPart} {first : UrlPart} {name : String}
    (hfree : before.Pairwise fun a b => ¬a.Clashes b) (hfirst : first ∈ before) (hclash : first.Clashes part)
    (hname : part.exclusiveName? = some name) :
    (before ++ part :: later).foldlM UrlRule.place {} = .error (.conflict name first.command part.command) := by
  obtain ⟨rule, hrule, hholds, -⟩ := foldlM_place_empty hfree
  have hlast : first.Last before := by
    apply (UrlPart.last_iff_mem hfree ?_).mpr hfirst
    rw [UrlPart.exclusiveName?_eq hclash.1, hname]
    rfl
  have hhas : rule.Has first := (hholds first).mpr hlast
  rw [List.foldlM_append, hrule]
  show (part :: later).foldlM UrlRule.place rule = _
  rw [List.foldlM_cons, place_conflict hhas hclash.1 hname]
  rfl

end UrlRule

/-! ## Reading parts -/

namespace Registry

variable {rule result : UrlRule} {words after : List String} {entries : List (List String × UrlPart)}

private theorem urlParts_part {registry : Registry} {keyword : String} {mid : List String} {policy : Policy}
    (hkeyword : keyword ∈ UrlRule.keywords) (hbuild : registry.Builds (keyword :: words) policy mid) :
    (registry.urlParts rule (keyword :: words)).1 =
      rule.placePolicy policy >>= fun next => (registry.urlParts next mid).1 := by
  have hk : UrlRule.keywords.contains keyword = true := by simpa using hkeyword
  simp only [urlParts, hk, if_true]
  revert hbuild
  unfold Builds
  rcases registry.build (keyword :: words) with ⟨_ | built, rest⟩ <;> intro hbuild
  · cases hbuild.1
  · obtain rfl : built = policy := Except.ok.inj hbuild.1
    obtain rfl : rest.val = mid := hbuild.2
    cases hplace : rule.placePolicy built <;> simp only [hplace] <;> rfl

private theorem placePolicy_eq {policy : Policy} {part : UrlPart} (h : policy.urlPart? = some part) :
    rule.placePolicy policy = rule.place part := by
  simp only [UrlRule.placePolicy, h]

theorem urlParts_spelled {part : UrlPart} (h : UrlPart.Spelled words part) (rest : List String) :
    (standard.urlParts rule (words ++ rest)).1 =
      rule.place part >>= fun next => (standard.urlParts next rest).1 := by
  obtain ⟨keyword, arguments, policy, rfl, hkeyword, hpart, hbuilds⟩ := h.builtFrom
  have hbuild : standard.Builds (keyword :: (arguments ++ rest)) policy rest := hbuilds rest
  rw [List.cons_append, urlParts_part hkeyword hbuild, placePolicy_eq hpart]

theorem reads_urlParts_spelled {part : UrlPart} {next : UrlRule} {rest left : List String}
    (h : UrlPart.Spelled words part) (hplace : rule.place part = .ok next)
    (hrest : WordReader.Reads (standard.urlParts next) rest result left) :
    WordReader.Reads (standard.urlParts rule) (words ++ rest) result left := by
  obtain ⟨keyword, arguments, policy, rfl, hkeyword, hpart, hbuilds⟩ := h.builtFrom
  exact (reads_urlParts_part hkeyword).mpr
    ⟨policy, rest, next, hbuilds rest, (placePolicy_eq hpart).trans hplace, hrest⟩

theorem reads_urlParts_after (hafter : ∀ text ∈ after.head?, text ∉ UrlRule.keywords) :
    WordReader.Reads (standard.urlParts rule) after rule after := by
  cases after with
  | nil => exact reads_urlParts_nil.mpr ⟨rfl, rfl⟩
  | cons text after => exact (reads_urlParts_target (hafter text rfl)).mpr ⟨rfl, rfl⟩

/-- The parts are placed as they are read, up to the first that is refused. -/
theorem urlParts_entries (hspelled : ∀ entry ∈ entries, UrlPart.Spelled entry.1 entry.2)
    (hafter : ∀ text ∈ after.head?, text ∉ UrlRule.keywords) :
    (standard.urlParts rule (entries.flatMap Prod.fst ++ after)).1 =
      (entries.map Prod.snd).foldlM UrlRule.place rule := by
  induction entries generalizing rule with
  | nil => exact (reads_urlParts_after hafter).1
  | cons entry entries ih =>
    obtain ⟨hentry, hrest⟩ := List.forall_mem_cons.mp hspelled
    rw [List.flatMap_cons, List.append_assoc, urlParts_spelled hentry, List.map_cons, List.foldlM_cons]
    exact bind_congr fun next => ih hrest

/-- Parts that can be placed are read, and what follows them is left. -/
theorem reads_urlParts_entries (hspelled : ∀ entry ∈ entries, UrlPart.Spelled entry.1 entry.2)
    (hafter : ∀ text ∈ after.head?, text ∉ UrlRule.keywords)
    (h : (entries.map Prod.snd).foldlM UrlRule.place rule = .ok result) :
    WordReader.Reads (standard.urlParts rule) (entries.flatMap Prod.fst ++ after) result after := by
  induction entries generalizing rule with
  | nil =>
    obtain rfl : rule = result := Except.ok.inj h
    exact reads_urlParts_after hafter
  | cons entry entries ih =>
    obtain ⟨hentry, hrest⟩ := List.forall_mem_cons.mp hspelled
    rw [List.flatMap_cons, List.append_assoc]
    rw [List.map_cons, List.foldlM_cons] at h
    cases hplace : rule.place entry.2 with
    | error e =>
      rw [hplace] at h
      cases h
    | ok next =>
      rw [hplace] at h
      exact reads_urlParts_spelled hentry hplace (ih hrest h)

/-- A url command that takes nothing away says what is read of its parts and of its target. -/
theorem policyOf_url (hremove : words.head? ≠ some "remove") (hdelete : words.head? ≠ some "delete") :
    standard.policyOf ("url" :: words) = (standard.urlParts {} words).1 >>= fun rule =>
      (rule.readTarget (standard.urlParts {} words).2.val).1 := by
  have hurl : standard.builder? "url" = some .url := Registry.builder?_standard_iff.mpr .url
  have hbuild : standard.build ("url" :: words) = standard.buildUrl words := by
    simp only [build, hurl]
    rfl
  have hparts : standard.buildUrl words = WordReader.resume (standard.urlParts {} words) UrlRule.readTarget := by
    rw [buildUrl]
    · rintro ws rfl
      exact hremove rfl
    · rintro ws rfl
      exact hdelete rfl
  unfold policyOf
  rw [hbuild, hparts]
  rcases standard.urlParts {} words with ⟨e | rule, rest⟩
  · rfl
  · -- The target is the last word that is read, so that there is nothing left to refuse.
    have hread : ∀ policy left, rule.readTarget.Reads rest.val policy left → left = [] :=
      fun policy left h => (UrlRule.reads_readTarget.mp h).1
    unfold WordReader.Reads at hread
    show (do
      let policy ← (rule.readTarget rest.val).1
      (WordReader.finish policy.keyword).run (rule.readTarget rest.val).2.val
      return policy) = (rule.readTarget rest.val).1
    revert hread
    rcases rule.readTarget rest.val with ⟨e | policy, left⟩ <;> intro hread
    · rfl
    · have hleft : left.val = [] := hread policy _ ⟨rfl, rfl⟩
      show (do
        (WordReader.finish policy.keyword).run left.val
        return policy) = Except.ok policy
      rw [hleft]
      rfl

end Registry

namespace UrlRule

theorem readTarget_extra (rule : UrlRule) {text extra : String} {more : List String} {pattern : UrlPattern}
    (h : UrlPattern.read text = .ok pattern) :
    (rule.readTarget (text :: extra :: more)).1 = .error (.tooManyArguments "url" extra) := by
  simp only [readTarget, bind, WordReader.andThen, WordReader.next?, WordReader.resume, liftM, monadLift,
    MonadLift.monadLift, WordReader.ofExcept, h]
  rfl

/-- A url command is put together from some parts, and from what follows them: nothing, or a target and perhaps
more words. -/
structure Composed (command : String) (entries : List (List String × UrlPart)) (after : List String) : Prop where
  words : Text.words command = "url" :: (entries.flatMap Prod.fst ++ after)
  spelled : ∀ entry ∈ entries, UrlPart.Spelled entry.1 entry.2
  pattern : ∀ text ∈ after.head?, ∃ pattern, UrlPattern.read text = .ok pattern
  not_keyword : ∀ text ∈ after.head?, text ∉ keywords
  /-- A target that follows `url` at once is not taken for a subcommand. -/
  bare : entries = [] → ∀ text ∈ after.head?, text ≠ "remove" ∧ text ≠ "delete"

namespace Composed

variable {command : String} {entries : List (List String × UrlPart)} {after : List String} {rule : UrlRule}

theorem head?_ne (h : Composed command entries after) (subcommand : String) (hkeyword : subcommand ∉ keywords)
    (hbare : entries = [] → ∀ text ∈ after.head?, text ≠ subcommand) :
    (entries.flatMap Prod.fst ++ after).head? ≠ some subcommand := by
  cases entries with
  | nil => exact fun hhead => hbare rfl subcommand hhead rfl
  | cons entry entries =>
    obtain ⟨keyword, arguments, -, hwords, hmem, -⟩ := (h.spelled entry List.mem_cons_self).builtFrom
    intro hhead
    rw [List.flatMap_cons, hwords] at hhead
    obtain rfl : keyword = subcommand := Option.some.inj hhead
    exact hkeyword hmem

theorem read_eq (h : Composed command entries after) :
    Registry.standard.read command =
      (Registry.standard.urlParts {} (entries.flatMap Prod.fst ++ after)).1 >>= fun rule =>
        (rule.readTarget (Registry.standard.urlParts {} (entries.flatMap Prod.fst ++ after)).2.val).1 := by
  have hremove := h.head?_ne "remove" (by decide) fun hnil text htext => (h.bare hnil text htext).1
  have hdelete := h.head?_ne "delete" (by decide) fun hnil text htext => (h.bare hnil text htext).2
  rw [Registry.read, h.words, Registry.policyOf_url hremove hdelete]

theorem read_error (h : Composed command entries after) {e : CommandError}
    (hplace : (entries.map Prod.snd).foldlM place {} = .error e) : Registry.standard.read command = .error e := by
  rw [h.read_eq, Registry.urlParts_entries h.spelled h.not_keyword, hplace]
  rfl

theorem read_placed (h : Composed command entries after)
    (hplace : (entries.map Prod.snd).foldlM place {} = .ok rule) :
    Registry.standard.read command = (rule.readTarget after).1 := by
  have hreads := Registry.reads_urlParts_entries h.spelled h.not_keyword hplace
  rw [h.read_eq, hreads.1]
  show (rule.readTarget (Registry.standard.urlParts {} (entries.flatMap Prod.fst ++ after)).2.val).1 = _
  rw [hreads.2]

theorem read_target (h : Composed command entries after)
    (hplace : (entries.map Prod.snd).foldlM place {} = .ok rule) (htarget : rule.target = none)
    (hafter : after.length ≤ 1) :
    ∃ target, Registry.standard.read command = .ok (.url { rule with target }) ∧
      target.map UrlPattern.text = after.head? := by
  rw [h.read_placed hplace]
  cases after with
  | nil =>
    refine ⟨none, ?_, rfl⟩
    rw [(reads_readTarget.mpr ⟨rfl, .inl ⟨rfl, rfl⟩⟩ : rule.readTarget.Reads [] (.url rule) []).1, ← htarget]
  | cons text more =>
    obtain rfl : more = [] := List.length_eq_zero_iff.mp (by simpa using hafter)
    obtain ⟨pattern, hpattern⟩ := h.pattern text rfl
    exact ⟨some pattern, (reads_readTarget.mpr ⟨rfl, .inr ⟨text, pattern, rfl, hpattern, rfl⟩⟩).1,
      congrArg some (UrlPattern.parts_of_read hpattern).1⟩

end Composed

/-- What a url command says that is put together from parts: it is refused at the first part that clashes with one
in front of it, and otherwise at the second word after the parts. Otherwise it is the rule that holds what the last
part for each slot says. The order of parts for different slots makes no difference. -/
theorem read_composed {command : String} {entries : List (List String × UrlPart)} {after : List String}
    (h : Composed command entries after) :
    (∀ before part later first name, entries.map Prod.snd = before ++ part :: later →
      (before.Pairwise fun a b => ¬a.Clashes b) → first ∈ before → first.Clashes part →
      part.exclusiveName? = some name →
      Registry.standard.read command = .error (.conflict name first.command part.command)) ∧
    (((entries.map Prod.snd).Pairwise fun a b => ¬a.Clashes b) →
      (∀ text extra more, after = text :: extra :: more →
        Registry.standard.read command = .error (.tooManyArguments "url" extra)) ∧
      (after.length ≤ 1 → ∃ rule, Registry.standard.read command = .ok (.url rule) ∧
        (∀ part, rule.Has part ↔ part.Last (entries.map Prod.snd)) ∧
        (∀ part, part.exclusiveName?.isSome → (rule.Has part ↔ part ∈ entries.map Prod.snd)) ∧
        rule.target.map UrlPattern.text = after.head?)) ∧
    ∀ other reordered, Composed other reordered after → reordered.Perm entries →
      ((entries.map Prod.snd).map UrlPart.slot?).Nodup →
      Registry.standard.read other = Registry.standard.read command := by
  refine ⟨?_, fun hfree => ?_, ?_⟩
  · intro before part later first name hparts hfree hfirst hclash hname
    apply h.read_error
    rw [hparts]
    exact foldlM_place_conflict hfree hfirst hclash hname
  · obtain ⟨rule, hplace, hholds, htarget⟩ := foldlM_place_empty hfree
    refine ⟨?_, fun hafter => ?_⟩
    · rintro text extra more rfl
      obtain ⟨pattern, hpattern⟩ := h.pattern text rfl
      rw [h.read_placed hplace, readTarget_extra rule hpattern]
    · obtain ⟨target, hread, htext⟩ := h.read_target hplace htarget hafter
      -- The target is none of the parts.
      have hhas : ∀ part, ({ rule with target } : UrlRule).Has part ↔ part.Last (entries.map Prod.snd) := by
        intro part
        rw [← hholds part]
        cases part <;> exact Iff.rfl
      exact ⟨_, hread, hhas, fun part hname => (hhas part).trans (UrlPart.last_iff_mem hfree hname), htext⟩
  · intro other reordered hother hperm hnodup
    have hparts : (reordered.map Prod.snd).Perm (entries.map Prod.snd) := hperm.map _
    have hnodup' : ((reordered.map Prod.snd).map UrlPart.slot?).Nodup := (hparts.map _).nodup_iff.mpr hnodup
    obtain ⟨rule, hplace, hholds, htarget⟩ := foldlM_place_empty (UrlPart.pairwise_of_nodup hnodup)
    obtain ⟨rule', hplace', hholds', htarget'⟩ := foldlM_place_empty (UrlPart.pairwise_of_nodup hnodup')
    have hlast : ∀ part : UrlPart, part.Last (reordered.map Prod.snd) ↔ part.Last (entries.map Prod.snd) := by
      intro part
      rw [UrlPart.last_iff_mem_of_nodup hnodup, UrlPart.last_iff_mem_of_nodup hnodup', hparts.mem_iff]
    have hrule : rule' = rule := hholds'.unique hholds hlast (htarget'.trans htarget.symm)
    rw [hother.read_placed hplace', h.read_placed hplace, hrule]

private def pluginEntry (value : TextValue .plugin) : List String × UrlPart :=
  (["plugin", value.value], .occupant (.setting .plugin) value)

private theorem spelled_pluginEntry (value : TextValue .plugin) :
    UrlPart.Spelled (pluginEntry value).1 (pluginEntry value).2 :=
  .text (Policy.read_text value)

/-- A second plugin replaces the first, and a second content is refused. The order of a plugin and of a content makes
no difference. -/
theorem read_composed_plugins_contents :
    Registry.standard.read "url plugin one cache plugin two status 404 g.cn" =
        .error (.conflict "content" "cache" "status 404") ∧
      Registry.standard.read "url cache plugin two g.cn" = Registry.standard.read "url plugin two cache g.cn" := by
  let first : TextValue .plugin := ⟨"one", by decide +kernel⟩
  let second : TextValue .plugin := ⟨"two", by decide +kernel⟩
  let cache : List String × UrlPart := (["cache"], .occupant .content .cache)
  let status : List String × UrlPart := (["status", "404"], .occupant .content (.status 404))
  have hcache : UrlPart.Spelled cache.1 cache.2 := .cache
  have hcode : Number.readInteger? "404".toList = some 404 := by decide +kernel
  have hstatus : UrlPart.Spelled status.1 status.2 := .status hcode (by decide) (by decide)
  have hpattern : ∀ text ∈ ["g.cn"].head?, ∃ pattern, UrlPattern.read text = .ok pattern := by
    rintro _ ⟨⟩
    exact ⟨_, rfl⟩
  have hkeyword : ∀ text ∈ ["g.cn"].head?, text ∉ keywords := by
    rintro _ ⟨⟩
    decide
  have hclash : Composed "url plugin one cache plugin two status 404 g.cn"
      [pluginEntry first, cache, pluginEntry second, status] ["g.cn"] := by
    refine ⟨by decide +kernel, ?_, hpattern, hkeyword, nofun⟩
    simp only [List.forall_mem_cons]
    exact ⟨spelled_pluginEntry first, hcache, spelled_pluginEntry second, hstatus, nofun⟩
  have hordered : Composed "url plugin two cache g.cn" [pluginEntry second, cache] ["g.cn"] := by
    refine ⟨by decide +kernel, ?_, hpattern, hkeyword, nofun⟩
    simp only [List.forall_mem_cons]
    exact ⟨spelled_pluginEntry second, hcache, nofun⟩
  have hreordered : Composed "url cache plugin two g.cn" [cache, pluginEntry second] ["g.cn"] := by
    refine ⟨by decide +kernel, ?_, hpattern, hkeyword, nofun⟩
    simp only [List.forall_mem_cons]
    exact ⟨hcache, spelled_pluginEntry second, nofun⟩
  constructor
  · have hconflict := (read_composed hclash).1 ([pluginEntry first, cache, pluginEntry second].map Prod.snd) status.2 []
      cache.2 "content" rfl (by decide) (by simp) (by decide) rfl
    exact hconflict.trans (by decide +kernel)
  · exact (read_composed hordered).2.2 _ _ hreordered (List.Perm.swap _ _ _) (by decide)

end UrlRule

end TrafficPolicy
