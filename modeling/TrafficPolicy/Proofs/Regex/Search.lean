import TrafficPolicy.Proofs.Regex.Runs

/-!
# The search follows all runs

The instructions that are seen while ways are followed are closed under the steps that take no character, up to the
ways that are still to be followed. So in the end a way waits for every run that accepts, and the search finds a match
exactly if there is one.
-/

namespace TrafficPolicy.Regex

variable {program : Program} {s : Spot} {at_ steps place : Nat} {t : Thread} {start todo : List Thread} {ts : Threads}
  {i : Instruction}

def Reaches (program : Program) (s : Spot) (place : Nat) : Prop :=
  ∃ n, Accepts program n place s

theorem Accepts.place_lt {n : Nat} (h : Accepts program n place s) : place < program.size := by
  cases h with
  | accept h => exact (Array.getElem?_eq_some_iff.mp h).1
  | take h _ _ => exact (Array.getElem?_eq_some_iff.mp h).1
  | move h _ _ => exact (Array.getElem?_eq_some_iff.mp h).1

/-! ## Following ways -/

def Instruction.waits : Instruction → Bool
  | .char _ | .take _ | .accept => true
  | _ => false

theorem Instruction.length_targets_le (i : Instruction) (place : Nat) (s : Spot) : (i.targets place s).length ≤ 2 := by
  unfold Instruction.targets
  split <;> try split
  all_goals simp

/-- A way has come to an instruction at this step. -/
def Threads.Seen (ts : Threads) (at_ place : Nat) : Prop :=
  ts.seen.getD place 0 = at_ + 1

def Threads.visit (ts : Threads) (at_ : Nat) (t : Thread) (i : Instruction) : Threads where
  waiting := if i.waits then t :: ts.waiting else ts.waiting
  seen := ts.seen.setIfInBounds t.place (at_ + 1)

/-- How many instructions no way has come to at this step. -/
def Threads.unseen (ts : Threads) (at_ : Nat) : Nat :=
  ts.seen.countP (· != at_ + 1)

theorem seen_visit (hplace : t.place < ts.seen.size) :
    (ts.visit at_ t i).Seen at_ place ↔ place = t.place ∨ ts.Seen at_ place := by
  unfold Threads.Seen Threads.visit
  rw [Array.getD_eq_getD_getElem?, Array.getElem?_setIfInBounds, Array.getD_eq_getD_getElem?]
  by_cases hsame : t.place = place
  · simp [hsame, hsame ▸ hplace]
  · simp [hsame, Ne.symm hsame]

theorem stamp_visit (h : ts.seen.getD place 0 ≤ at_ + 1) : (ts.visit at_ t i).seen.getD place 0 ≤ at_ + 1 := by
  rw [Array.getD_eq_getD_getElem?] at h
  unfold Threads.visit
  rw [Array.getD_eq_getD_getElem?, Array.getElem?_setIfInBounds]
  split
  · split <;> simp
  · exact h

theorem unseen_visit (hseen : ¬ts.Seen at_ t.place) (hplace : t.place < ts.seen.size) :
    (ts.visit at_ t i).unseen at_ + 1 = ts.unseen at_ := by
  have hne : ts.seen[t.place] ≠ at_ + 1 := by simpa [Threads.Seen, Array.getD, hplace] using hseen
  have hpos : 0 < ts.seen.countP (· != at_ + 1) :=
    Array.countP_pos_iff.mpr ⟨_, Array.getElem_mem hplace, by simpa using hne⟩
  unfold Threads.unseen Threads.visit
  rw [Array.setIfInBounds, dif_pos hplace, Array.countP_set]
  simp only [bne_iff_ne, hne, ne_eq, not_false_eq_true, if_true, not_true_eq_false, if_false]
  omega

theorem follow_nil (steps : Nat) : follow program s.before s.rest.head? at_ steps [] ts = ts := by
  cases steps <;> simp [follow]

theorem follow_seen (h : ts.Seen at_ t.place) :
    follow program s.before s.rest.head? at_ (steps + 1) (t :: todo) ts =
      follow program s.before s.rest.head? at_ steps todo ts := by
  rw [follow]
  exact if_pos h

theorem follow_outside (h : program[t.place]? = none) (hsize : ts.seen.size = program.size) :
    follow program s.before s.rest.head? at_ (steps + 1) (t :: todo) ts =
      follow program s.before s.rest.head? at_ steps todo ts := by
  have hplace : ts.seen.size ≤ t.place := hsize ▸ Array.getElem?_eq_none_iff.mp h
  rw [follow, if_neg (by simp [Array.getD_eq_getD_getElem?, Array.getElem?_eq_none hplace])]
  simp only [h, Array.setIfInBounds_eq_of_size_le hplace]

/-- A way that is followed makes room for those that it leads to. -/
theorem follow_fresh (s : Spot) (steps : Nat) (todo : List Thread) (hseen : ¬ts.Seen at_ t.place)
    (h : program[t.place]? = some i) :
    ∃ next : List Thread, next.map Thread.place = i.targets t.place s ∧
      follow program s.before s.rest.head? at_ (steps + 1) (t :: todo) ts =
        follow program s.before s.rest.head? at_ steps (next ++ todo) (ts.visit at_ t i) := by
  unfold Threads.Seen at hseen
  rw [follow, if_neg hseen]
  simp only [h]
  cases i with
  | char c => exact ⟨[], rfl, rfl⟩
  | take set => exact ⟨[], rfl, rfl⟩
  | accept => exact ⟨[], rfl, rfl⟩
  | require condition =>
    by_cases hholds : condition.holds s.before s.rest.head?
    · exact ⟨[{ t with place := t.place + 1 }], by simp [Instruction.targets, hholds], if_pos hholds⟩
    · exact ⟨[], by simp [Instruction.targets, hholds], if_neg hholds⟩
  | record slot => exact ⟨[⟨t.place + 1, t.slots.setIfInBounds slot (some at_)⟩], rfl, rfl⟩
  | fork preferred other => exact ⟨[{ t with place := preferred }, { t with place := other }], rfl, rfl⟩
  | jump target => exact ⟨[{ t with place := target }], rfl, rfl⟩

def Pending (at_ : Nat) (todo : List Thread) (ts : Threads) (place : Nat) : Prop :=
  ts.Seen at_ place ∨ place ∈ todo.map Thread.place

/-- What holds while the ways in `start` are followed, of which those in `todo` are left. -/
structure Explored (program : Program) (s : Spot) (at_ : Nat) (start todo : List Thread) (ts : Threads) : Prop where
  size : ts.seen.size = program.size
  stamps : ∀ place, ts.seen.getD place 0 ≤ at_ + 1
  started : ∀ t ∈ start, t.place < program.size → Pending at_ todo ts t.place
  /-- Whatever a way that is left or waits can come to, some way from the start can. -/
  sound : ∀ t, t ∈ todo ∨ t ∈ ts.waiting → Reaches program s t.place → ∃ u ∈ start, Reaches program s u.place
  waits : ∀ {place i}, ts.Seen at_ place → program[place]? = some i → i.waits →
    ∃ t ∈ ts.waiting, t.place = place
  closed : ∀ {place i}, ts.Seen at_ place → program[place]? = some i → ∀ next ∈ i.targets place s,
    next < program.size → Pending at_ todo ts next

theorem Explored.drop (h : Explored program s at_ start (t :: todo) ts)
    (hdrop : t.place < program.size → ts.Seen at_ t.place) : Explored program s at_ start todo ts := by
  have hpending {place : Nat} (hplace : place < program.size) (hp : Pending at_ (t :: todo) ts place) :
      Pending at_ todo ts place := by
    rcases hp with hseen | htodo
    · exact .inl hseen
    · rcases List.mem_cons.mp htodo with rfl | htodo
      · exact .inl (hdrop hplace)
      · exact .inr htodo
  exact { h with
    started := fun u hu hplace => hpending hplace (h.started u hu hplace)
    sound := fun u hu => h.sound u (hu.imp_left (List.mem_cons_of_mem _))
    closed := fun hseen hi next hnext hplace => hpending hplace (h.closed hseen hi next hnext hplace) }

theorem Explored.visit {next : List Thread} (h : Explored program s at_ start (t :: todo) ts)
    (hi : program[t.place]? = some i) (hnext : next.map Thread.place = i.targets t.place s) :
    Explored program s at_ start (next ++ todo) (ts.visit at_ t i) := by
  have hplace : t.place < ts.seen.size := h.size ▸ (Array.getElem?_eq_some_iff.mp hi).1
  have hwaiting {u : Thread} (hu : u ∈ (ts.visit at_ t i).waiting) : u = t ∨ u ∈ ts.waiting := by
    unfold Threads.visit at hu
    split at hu
    · exact List.mem_cons.mp hu
    · exact .inr hu
  have hpending {place : Nat} (hp : Pending at_ (t :: todo) ts place) :
      Pending at_ (next ++ todo) (ts.visit at_ t i) place := by
    unfold Pending at hp ⊢
    rw [seen_visit hplace, List.map_append, List.mem_append]
    rcases hp with hseen | htodo
    · exact .inl (.inr hseen)
    · rcases List.mem_cons.mp htodo with rfl | htodo
      · exact .inl (.inl rfl)
      · exact .inr (.inr htodo)
  refine { size := ?_, stamps := ?_, started := ?_, sound := ?_, waits := ?_, closed := ?_ }
  · simpa [Threads.visit] using h.size
  · exact fun place => stamp_visit (h.stamps place)
  · exact fun u hu hlt => hpending (h.started u hu hlt)
  · rintro u (hu | hu) hreach
    · rcases List.mem_append.mp hu with hu | hu
      · obtain ⟨n, hn⟩ := hreach
        have htarget : u.place ∈ i.targets t.place s := hnext ▸ List.mem_map_of_mem hu
        exact h.sound t (.inl List.mem_cons_self) ⟨n + 1, .move hi htarget hn⟩
      · exact h.sound u (.inl (List.mem_cons_of_mem _ hu)) hreach
    · rcases hwaiting hu with rfl | hu
      · exact h.sound u (.inl List.mem_cons_self) hreach
      · exact h.sound u (.inr hu) hreach
  · intro place j hseen hj hwaits
    unfold Threads.visit
    rcases (seen_visit hplace).mp hseen with rfl | hseen
    · obtain rfl := Option.some.inj (hi.symm.trans hj)
      exact ⟨t, by simp [hwaits], rfl⟩
    · obtain ⟨u, hu, huplace⟩ := h.waits hseen hj hwaits
      exact ⟨u, by split <;> simp [hu], huplace⟩
  · intro place j hseen hj target htarget hlt
    rcases (seen_visit hplace).mp hseen with rfl | hseen
    · obtain rfl := Option.some.inj (hi.symm.trans hj)
      exact .inr (by rw [List.map_append, hnext]; exact List.mem_append_left _ htarget)
    · exact hpending (h.closed hseen hj target htarget hlt)

/-- With enough steps all ways are followed to their end. -/
theorem explored_follow (steps : Nat) (h : Explored program s at_ start todo ts) (hsteps : 2 * ts.unseen at_ + todo.length ≤ steps) :
    Explored program s at_ start [] (follow program s.before s.rest.head? at_ steps todo ts) := by
  induction steps generalizing todo ts with
  | zero =>
    obtain rfl : todo = [] := List.eq_nil_of_length_eq_zero (by omega)
    exact h
  | succ steps ih =>
    cases todo with
    | nil => rwa [follow_nil]
    | cons t todo =>
      rw [List.length_cons] at hsteps
      by_cases hseen : ts.Seen at_ t.place
      · rw [follow_seen hseen]
        exact ih (h.drop fun _ => hseen) (by omega)
      · cases hi : program[t.place]? with
        | none =>
          rw [follow_outside hi h.size]
          exact ih (h.drop fun hlt => by simp [hlt] at hi) (by omega)
        | some i =>
          obtain ⟨next, hnext, hfollow⟩ := follow_fresh s steps todo hseen hi
          rw [hfollow]
          refine ih (h.visit hi hnext) ?_
          have hplace : t.place < ts.seen.size := h.size ▸ (Array.getElem?_eq_some_iff.mp hi).1
          have hunseen := unseen_visit (i := i) hseen hplace
          have hlength : next.length ≤ 2 := by
            rw [← List.length_map Thread.place, hnext]
            exact i.length_targets_le t.place s
          rw [List.length_append]
          omega

/-- A run accepts from an instruction without going on to another one at the same place in the text. -/
def ReachesHere (program : Program) (s : Spot) (place : Nat) : Prop :=
  program[place]? = some .accept ∨
    ∃ i c rest, program[place]? = some i ∧ s.rest = c :: rest ∧ i.takes (some c) ∧
      Reaches program ⟨some c, rest⟩ (place + 1)

theorem ReachesHere.reaches (h : ReachesHere program s place) : Reaches program s place := by
  obtain ⟨before, text⟩ := s
  rcases h with haccept | ⟨i, c, rest, hi, rfl, htakes, n, hn⟩
  · exact ⟨0, .accept haccept⟩
  · exact ⟨n + 1, .take hi htakes hn⟩

/-- Once all ways have been followed, one waits for each run that accepts from an instruction that has been seen. By
induction on the length of the run. -/
theorem Explored.waiting (h : Explored program s at_ start [] ts) (hseen : ts.Seen at_ place)
    (hreach : Reaches program s place) : ∃ t ∈ ts.waiting, ReachesHere program s t.place := by
  obtain ⟨n, hn⟩ := hreach
  induction hn with
  | accept hi =>
    obtain ⟨t, ht, rfl⟩ := h.waits hseen hi rfl
    exact ⟨t, ht, .inl hi⟩
  | @take _ place i before c text hi htakes hrest =>
    have hwaits : i.waits := by cases i <;> first | rfl | cases htakes
    obtain ⟨t, ht, rfl⟩ := h.waits hseen hi hwaits
    exact ⟨t, ht, .inr ⟨i, c, text, hi, rfl, htakes, _, hrest⟩⟩
  | move hi hnext hrest ih =>
    have hplace := hrest.place_lt
    rcases h.closed hseen hi _ hnext hplace with hseen | htodo
    · exact ih h hseen
    · cases htodo

/-- The ways that wait at a place of the text stand for all runs from it. -/
theorem waitingAt_spec (s : Spot) (going : List Thread) {seen : Array Nat} (slotCount : Nat) (hsize : seen.size = program.size)
    (hstamps : ∀ place, seen.getD place 0 ≤ at_) :
    let ts := waitingAt program slotCount s.before s.rest.head? at_ going none seen
    (ts.seen.size = program.size ∧ ∀ place, ts.seen.getD place 0 ≤ at_ + 1) ∧
      ((∃ t ∈ ts.waiting, ReachesHere program s t.place) ↔
        (∃ t ∈ going, Reaches program s t.place) ∨ Reaches program s 0) := by
  have hfresh (place : Nat) : ¬({ seen } : Threads).Seen at_ place := fun hseen =>
    Nat.not_succ_le_self at_ (Nat.le_trans (Nat.le_of_eq hseen.symm) (hstamps place))
  let starting : Thread := ⟨0, Array.replicate slotCount none⟩
  have hexplored : Explored program s at_ (going ++ [starting]) (going ++ [starting]) { seen } := {
    size := hsize
    stamps := fun place => Nat.le_succ_of_le (hstamps place)
    started := fun t ht _ => .inr (List.mem_map_of_mem ht)
    sound := fun t ht hreach => ⟨t, by simpa using ht, hreach⟩
    waits := fun hseen => absurd hseen (hfresh _)
    closed := fun hseen => absurd hseen (hfresh _) }
  have hunseen : ({ seen } : Threads).unseen at_ ≤ program.size := hsize ▸ Array.countP_le_size
  have hend := explored_follow (4 * program.size + 4 + going.length) hexplored
    (by rw [List.length_append, List.length_singleton]; omega)
  refine ⟨⟨hend.size, hend.stamps⟩, ?_⟩
  constructor
  · rintro ⟨t, ht, hreach⟩
    obtain ⟨u, hu, hreach⟩ := hend.sound t (.inr ht) hreach.reaches
    rcases List.mem_append.mp hu with hu | hu
    · exact .inl ⟨u, hu, hreach⟩
    · obtain rfl := List.mem_singleton.mp hu
      exact .inr hreach
  · intro hreach
    obtain ⟨t, ht, hreach⟩ : ∃ t ∈ going ++ [starting], Reaches program s t.place := by
      rcases hreach with ⟨t, ht, hreach⟩ | hreach
      · exact ⟨t, List.mem_append_left _ ht, hreach⟩
      · exact ⟨starting, by simp, hreach⟩
    obtain ⟨n, hn⟩ := hreach
    rcases hend.started t ht hn.place_lt with hseen | htodo
    · exact hend.waiting hseen ⟨n, hn⟩
    · cases htodo

/-! ## Taking characters -/

theorem advance_accepts (program : Program) (c : Option Char) (going threads : List Thread) :
    (advance program c going threads).2.isSome ↔ ∃ t ∈ threads, program[t.place]? = some .accept := by
  fun_induction advance program c going threads with
  | case1 => simp
  | case2 => simp_all
  | case3 => simp_all
  | case4 => simp_all
  | case5 => simp_all

/-- If no way accepts, those go on that take the character. -/
theorem advance_going {c : Option Char} {going threads : List Thread}
    (h : ∀ t ∈ threads, program[t.place]? ≠ some .accept) (p : Nat → Prop) :
    (∃ t ∈ (advance program c going threads).1, p t.place) ↔
      (∃ t ∈ going, p t.place) ∨
        ∃ t ∈ threads, (∃ i, program[t.place]? = some i ∧ i.takes c) ∧ p (t.place + 1) := by
  fun_induction advance program c going threads with
  | case1 => simp
  | case2 => simp_all
  | case3 going t rest i _ hi htakes ih =>
    have hgoes : ∃ i, program[t.place]? = some i ∧ i.takes c := ⟨i, hi, htakes⟩
    rw [ih fun u hu => h u (List.mem_cons_of_mem _ hu)]
    simp only [List.mem_cons, exists_eq_or_imp, hgoes, true_and]
    rw [or_comm (a := p (t.place + 1)), or_assoc]
  | case4 => simp_all
  | case5 => simp_all

/-! ## The whole search -/

section

variable {slotCount : Nat} {before : Option Char} {going : List Thread} {found : Option Slots} {seen : Array Nat}
  {text : List Char}

theorem searchFrom_cons {c : Char} :
    searchFrom program slotCount before at_ going found seen (c :: text) =
      let ts := waitingAt program slotCount before (some c) at_ going found seen
      let taken := advance program (some c) [] ts.waiting.reverse
      if taken.1.isEmpty && (taken.2 <|> found).isSome then taken.2 <|> found
      else searchFrom program slotCount (some c) (at_ + 1) taken.1 (taken.2 <|> found) ts.seen text :=
  rfl

theorem isSome_orElse {accepted : Option Slots} : (accepted <|> found).isSome ↔ accepted.isSome ∨ found.isSome := by
  cases accepted <;> simp

/-- A match that has been found is only replaced by another one. -/
theorem isSome_searchFrom_of_found (h : found.isSome) :
    (searchFrom program slotCount before at_ going found seen text).isSome := by
  induction text generalizing before at_ going found seen with
  | nil => exact isSome_orElse.mpr (.inr h)
  | cons c text ih =>
    rw [searchFrom_cons]
    dsimp only
    split
    · exact isSome_orElse.mpr (.inr h)
    · exact ih (isSome_orElse.mpr (.inr h))

/-- From a place on, the search finds a match exactly if a way that goes on accepts, or a run from a later place. By
induction on the text: a way that goes on has taken the next character, and a new one starts at each place. -/
theorem isSome_searchFrom (hsize : seen.size = program.size) (hstamps : ∀ place, seen.getD place 0 ≤ at_) :
    (searchFrom program slotCount before at_ going none seen text).isSome ↔
      (∃ t ∈ going, Reaches program ⟨before, text⟩ t.place) ∨
        ∃ s, Spot.Precedes ⟨before, text⟩ s ∧ Reaches program s 0 := by
  induction text generalizing before at_ going seen with
  | nil =>
    obtain ⟨-, hwaiting⟩ := waitingAt_spec ⟨before, []⟩ going slotCount hsize hstamps
    simp only [precedes_nil, exists_eq_left, ← hwaiting]
    simp [searchFrom, advance_accepts, ReachesHere]
  | cons c text ih =>
    obtain ⟨⟨hsize', hstamps'⟩, hwaiting⟩ :=
      waitingAt_spec ⟨before, c :: text⟩ going slotCount hsize hstamps
    simp only [precedes_cons, or_and_right, exists_or, exists_eq_left, ← or_assoc, ← hwaiting]
    rw [searchFrom_cons]
    dsimp only [List.head?_cons] at hsize' hstamps' hwaiting ⊢
    generalize waitingAt program slotCount before (some c) at_ going none seen = ts at hsize' hstamps' hwaiting ⊢
    have haccepts := advance_accepts program (some c) [] ts.waiting.reverse
    simp only [List.mem_reverse] at haccepts
    by_cases haccept : ∃ t ∈ ts.waiting, program[t.place]? = some .accept
    · have hfound : ((advance program (some c) [] ts.waiting.reverse).2 <|> none).isSome :=
        isSome_orElse.mpr (.inl (haccepts.mpr haccept))
      obtain ⟨t, ht, haccept⟩ := haccept
      refine iff_of_true ?_ (.inl ⟨t, ht, .inl haccept⟩)
      split
      · exact hfound
      · exact isSome_searchFrom_of_found hfound
    · have hnone : ((advance program (some c) [] ts.waiting.reverse).2 <|> none) = none := by
        rw [← Option.not_isSome_iff_eq_none, isSome_orElse]
        simpa using mt haccepts.mp haccept
      have hwaits (t : Thread) (ht : t ∈ ts.waiting.reverse) : program[t.place]? ≠ some .accept := fun h =>
        haccept ⟨t, List.mem_reverse.mp ht, h⟩
      rw [hnone, Option.isSome_none, Bool.and_false, if_neg Bool.false_ne_true, ih hsize' hstamps',
        advance_going hwaits (Reaches program ⟨some c, text⟩)]
      refine or_congr_left ?_
      simp only [List.not_mem_nil, false_and, exists_false, false_or, List.mem_reverse]
      refine exists_congr fun t => and_congr_right fun ht => ?_
      have hne := hwaits t (List.mem_reverse.mpr ht)
      constructor
      · rintro ⟨⟨i, hi, htakes⟩, hreach⟩
        exact .inr ⟨i, c, text, hi, rfl, htakes, hreach⟩
      · rintro (haccept | ⟨i, _, _, hi, heq, htakes, hreach⟩)
        · exact absurd haccept hne
        · cases heq
          exact ⟨⟨i, hi, htakes⟩, hreach⟩

end

/-- The search finds a match in a text exactly if there is one. -/
theorem isMatch_iff (e : Expression) (text : List Char) :
    e.isMatch text ↔ ∃ s t, Spot.Precedes ⟨none, text⟩ s ∧ e.body.Leads s t := by
  unfold Expression.isMatch Expression.search?
  rw [isSome_searchFrom Array.size_replicate fun place => by simp [Array.getD]]
  simp only [List.not_mem_nil, false_and, exists_false, false_or]
  refine exists_congr fun s => ?_
  rw [exists_and_left]
  exact and_congr_right fun _ => accepts_program_iff e s

end TrafficPolicy.Regex
