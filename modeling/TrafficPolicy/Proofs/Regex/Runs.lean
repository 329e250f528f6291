import Mathlib.Logic.Relation
import TrafficPolicy.Proofs.Regex.Meaning

/-!
# Runs of a program

A program accepts from an instruction and a place in the text if some run does. A piece of code stands for a
relation between places if the runs through it are those that the relation allows, and the code of an expression
stands for what the expression matches.
-/

namespace TrafficPolicy.Regex

open Relation (Comp)

/-- The instructions that may come next without a character being taken. -/
def Instruction.targets (i : Instruction) (place : Nat) (s : Spot) : List Nat :=
  match i with
  | .char _ | .take _ | .accept => []
  | .require condition => if condition.holds s.before s.rest.head? then [place + 1] else []
  | .record _ => [place + 1]
  | .fork preferred other => [preferred, other]
  | .jump target => [target]

/-- Some run of `steps` steps from an instruction and a place in the text accepts. -/
inductive Accepts (program : Program) : (steps place : Nat) → Spot → Prop where
  | accept {place : Nat} {s : Spot} (h : program[place]? = some .accept) : Accepts program 0 place s
  | take {steps place : Nat} {i : Instruction} {before : Option Char} {c : Char} {text : List Char}
      (h : program[place]? = some i) (htakes : i.takes (some c))
      (rest : Accepts program steps (place + 1) ⟨some c, text⟩) :
      Accepts program (steps + 1) place ⟨before, c :: text⟩
  | move {steps place next : Nat} {i : Instruction} {s : Spot} (h : program[place]? = some i)
      (hnext : next ∈ i.targets place s) (rest : Accepts program steps next s) :
      Accepts program (steps + 1) place s

/-- The code from one instruction to another one takes a run from a place in the text to another one exactly if the
relation holds between them. -/
structure Passes (program : Program) (first last : Nat) (r : Spot → Spot → Prop) : Prop where
  sound : ∀ {n s}, Accepts program n first s → ∃ t, r s t ∧ ∃ m ≤ n, Accepts program m last t
  complete : ∀ {s t m}, r s t → Accepts program m last t → ∃ n, Accepts program n first s

/-- From an instruction a run goes on at one of two others. -/
structure Forks (program : Program) (place left right : Nat) : Prop where
  sound : ∀ {n s}, Accepts program n place s → ∃ m < n, Accepts program m left s ∨ Accepts program m right s
  complete : ∀ {n s}, Accepts program n left s ∨ Accepts program n right s → ∃ m, Accepts program m place s

section

variable {program : Program} {first middle last place left right : Nat} {r q : Spot → Spot → Prop}

theorem Passes.refl : Passes program first first Eq where
  sound h := ⟨_, rfl, _, Nat.le_refl _, h⟩
  complete := by
    rintro s _ m rfl h
    exact ⟨m, h⟩

theorem Passes.comp (hr : Passes program first middle r) (hq : Passes program middle last q) :
    Passes program first last (Comp r q) where
  sound h := by
    obtain ⟨t, hrt, m, hm, hmiddle⟩ := hr.sound h
    obtain ⟨u, hqu, k, hk, hlast⟩ := hq.sound hmiddle
    exact ⟨u, ⟨t, hrt, hqu⟩, k, Nat.le_trans hk hm, hlast⟩
  complete := by
    rintro s u m ⟨t, hrt, hqu⟩ hlast
    obtain ⟨k, hmiddle⟩ := hq.complete hqu hlast
    exact hr.complete hrt hmiddle

/-- An instruction that takes a character. -/
theorem Passes.take {i : Instruction} (h : program[place]? = some i) (haccept : i ≠ .accept)
    (htargets : ∀ s, i.targets place s = []) :
    Passes program place (place + 1) fun s t => ∃ c, i.takes (some c) ∧ s.Spells [c] t where
  sound hrun := by
    cases hrun with
    | accept h' =>
      rw [h] at h'
      exact absurd (Option.some.inj h') haccept
    | take h' htakes hrest =>
      obtain rfl := Option.some.inj (h.symm.trans h')
      exact ⟨_, ⟨_, htakes, _, rfl, rfl⟩, _, Nat.le_succ _, hrest⟩
    | move h' hnext hrest =>
      obtain rfl := Option.some.inj (h.symm.trans h')
      simp [htargets] at hnext
  complete := by
    rintro ⟨before, _⟩ t m ⟨c, htakes, rest, rfl, rfl⟩ hrest
    exact ⟨m + 1, .take h htakes hrest⟩

/-- A run from an instruction that takes no character goes on at one of its targets. -/
theorem accepts_of_move {i : Instruction} {n : Nat} {s : Spot} (h : program[place]? = some i) (haccept : i ≠ .accept)
    (htakes : ∀ c, i.takes c = false) (hrun : Accepts program n place s) :
    ∃ next ∈ i.targets place s, ∃ m < n, Accepts program m next s := by
  cases hrun with
  | accept h' => exact absurd (Option.some.inj (h.symm.trans h')) haccept
  | take h' htakes' _ =>
    obtain rfl := Option.some.inj (h.symm.trans h')
    simp [htakes] at htakes'
  | move h' hnext hrest =>
    obtain rfl := Option.some.inj (h.symm.trans h')
    exact ⟨_, hnext, _, Nat.lt_succ_self _, hrest⟩

theorem Passes.require {condition : Look} (h : program[place]? = some (.require condition)) :
    Passes program place (place + 1) fun s t => condition.holds s.before s.rest.head? ∧ s = t where
  sound {n s} hrun := by
    obtain ⟨next, hnext, m, hm, hrest⟩ := accepts_of_move h (by simp) (fun _ => rfl) hrun
    have hholds : condition.holds s.before s.rest.head? ∧ next = place + 1 := by
      simpa [Instruction.targets] using hnext
    obtain ⟨hcondition, rfl⟩ := hholds
    exact ⟨s, ⟨hcondition, rfl⟩, m, Nat.le_of_lt hm, hrest⟩
  complete := by
    rintro s _ m ⟨hholds, rfl⟩ hrest
    exact ⟨m + 1, .move h (by simp [Instruction.targets, hholds]) hrest⟩

/-- An instruction with one target. -/
theorem Passes.goTo {i : Instruction} {target : Nat} (h : program[place]? = some i) (haccept : i ≠ .accept)
    (htakes : ∀ c, i.takes c = false) (htargets : ∀ s, i.targets place s = [target]) :
    Passes program place target Eq where
  sound {n s} hrun := by
    obtain ⟨next, hnext, m, hm, hrest⟩ := accepts_of_move h haccept htakes hrun
    obtain rfl : next = target := by simpa [htargets] using hnext
    exact ⟨s, rfl, m, Nat.le_of_lt hm, hrest⟩
  complete := by
    rintro s _ m rfl hrest
    exact ⟨m + 1, .move h (by simp [htargets]) hrest⟩

theorem forks_of_targets {i : Instruction} (h : program[place]? = some i) (haccept : i ≠ .accept)
    (htakes : ∀ c, i.takes c = false)
    (htargets : ∀ s next, next ∈ i.targets place s ↔ next = left ∨ next = right) :
    Forks program place left right where
  sound {n s} hrun := by
    obtain ⟨next, hnext, m, hm, hrest⟩ := accepts_of_move h haccept htakes hrun
    rcases (htargets s next).mp hnext with rfl | rfl
    · exact ⟨m, hm, .inl hrest⟩
    · exact ⟨m, hm, .inr hrest⟩
  complete {n s} := by
    rintro (hrest | hrest)
    · exact ⟨n + 1, .move h ((htargets s left).mpr (.inl rfl)) hrest⟩
    · exact ⟨n + 1, .move h ((htargets s right).mpr (.inr rfl)) hrest⟩

theorem forks_of_fork (h : program[place]? = some (.fork left right)) : Forks program place left right :=
  forks_of_targets h (by simp) (fun _ => rfl) (by simp [Instruction.targets])

/-- The order of preference does not matter for whether a run accepts. -/
theorem forks_of_forkInto {greedy : Bool} (h : program[place]? = some (forkInto greedy left right)) :
    Forks program place left right := by
  cases greedy with
  | true => exact forks_of_fork h
  | false => exact forks_of_targets h (by simp [forkInto]) (fun _ => rfl) (by simp [forkInto, Instruction.targets, or_comm])

/-- A jump to a fork is as good as the fork. -/
theorem Forks.of_jump {source : Nat} (hfork : Forks program place left right)
    (h : program[source]? = some (.jump place)) : Forks program source left right where
  sound hrun := by
    obtain ⟨_, hnext, m, hm, hplace⟩ := accepts_of_move h (by simp) (fun _ => rfl) hrun
    obtain rfl : _ = place := by simpa [Instruction.targets] using hnext
    obtain ⟨k, hk, hrest⟩ := hfork.sound hplace
    exact ⟨k, Nat.lt_trans hk hm, hrest⟩
  complete hrest := by
    obtain ⟨m, hplace⟩ := hfork.complete hrest
    exact ⟨m + 1, .move h (by simp [Instruction.targets]) hplace⟩

/-- Two ways to the same end. -/
theorem Forks.alt (hfork : Forks program place left right) (hr : Passes program left last r)
    (hq : Passes program right last q) : Passes program place last fun s t => r s t ∨ q s t where
  sound hrun := by
    obtain ⟨m, hm, hleft | hright⟩ := hfork.sound hrun
    · obtain ⟨t, ht, k, hk, hlast⟩ := hr.sound hleft
      exact ⟨t, .inl ht, k, by omega, hlast⟩
    · obtain ⟨t, ht, k, hk, hlast⟩ := hq.sound hright
      exact ⟨t, .inr ht, k, by omega, hlast⟩
  complete := by
    rintro s t m (ht | ht) hlast
    · obtain ⟨k, hleft⟩ := hr.complete ht hlast
      exact hfork.complete (.inl hleft)
    · obtain ⟨k, hright⟩ := hq.complete ht hlast
      exact hfork.complete (.inr hright)

/-- Code that is followed by a fork back to its start is run at least once. By induction on the length of the run,
which a fork makes shorter. -/
theorem Passes.loop (hbody : Passes program first place r) (hfork : Forks program place first last) :
    Passes program first last fun s t => ∃ more, Copies r (more + 1) s t where
  sound {n s} hrun := by
    induction n using Nat.strongRecOn generalizing s with
    | _ n ih =>
      obtain ⟨t, hst, m, hm, hplace⟩ := hbody.sound hrun
      obtain ⟨k, hk, hagain | hlast⟩ := hfork.sound hplace
      · obtain ⟨u, ⟨more, hmore⟩, j, hj, hlast⟩ := ih k (by omega) hagain
        exact ⟨u, ⟨more + 1, t, hst, hmore⟩, j, by omega, hlast⟩
      · exact ⟨t, ⟨0, by rwa [Nat.zero_add, copies_one]⟩, k, by omega, hlast⟩
  complete {s t m} := by
    rintro ⟨more, hmore⟩ hlast
    induction more generalizing s with
    | zero =>
      rw [Nat.zero_add, copies_one] at hmore
      obtain ⟨k, hplace⟩ := hfork.complete (.inr hlast)
      exact hbody.complete hmore hplace
    | succ more ih =>
      obtain ⟨u, hsu, hut⟩ := hmore
      obtain ⟨k, hagain⟩ := ih hut
      obtain ⟨j, hplace⟩ := hfork.complete (.inl hagain)
      exact hbody.complete hsu hplace

theorem Passes.congr (h : Passes program first last r) (hiff : ∀ s t, r s t ↔ q s t) : Passes program first last q := by
  have heq : r = q := funext fun s => funext fun t => propext (hiff s t)
  exact heq ▸ h

end

/-! ## The code of an expression -/

/-- A layer puts `count` instructions at the end of a program. -/
structure Appends (lay : Program → Program) (count : Nat) : Prop where
  size : ∀ p, (lay p).size = p.size + count
  keeps : ∀ p, p.toList <+: (lay p).toList

/-- The instructions of a layer stand for a relation in every longer program. -/
structure Lays (lay : Program → Program) (count : Nat) (r : Spot → Spot → Prop) : Prop extends Appends lay count where
  passes : ∀ p program, (lay p).toList <+: program.toList → Passes program p.size (p.size + count) r

section

variable {p program : Program} {lay lay' : Program → Program} {m n : Nat} {r q : Spot → Spot → Prop}

theorem getElem?_of_push {i : Instruction} (h : (p.push i).toList <+: program.toList) : program[p.size]? = some i := by
  obtain ⟨rest, hrest⟩ := h
  rw [← Array.getElem?_toList, ← hrest, Array.toList_push, List.append_assoc, List.getElem?_append_right (by simp)]
  simp

theorem toList_prefix_push (p : Program) (i : Instruction) : p.toList <+: (p.push i).toList := by
  rw [Array.toList_push]
  exact List.prefix_append _ _

theorem Appends.push (i : Program → Instruction) : Appends (fun p => p.push (i p)) 1 where
  size _ := Array.size_push _
  keeps p := toList_prefix_push p _

theorem Appends.id : Appends (fun p => p) 0 where
  size _ := rfl
  keeps _ := List.prefix_rfl

theorem Appends.comp (h : Appends lay m) (h' : Appends lay' n) : Appends (fun p => lay' (lay p)) (m + n) where
  size p := by rw [h'.size, h.size, Nat.add_assoc]
  keeps p := (h.keeps p).trans (h'.keeps _)

theorem Appends.copies (h : Appends lay n) (count : Nat) : Appends (Regex.copies lay count) (count * n) := by
  induction count with
  | zero =>
    rw [Nat.zero_mul]
    exact .id
  | succ count ih =>
    rw [Nat.succ_mul, Nat.add_comm (count * n)]
    exact h.comp ih

theorem Lays.push {i : Instruction}
    (h : ∀ program place, program[place]? = some i → Passes program place (place + 1) r) : Lays (·.push i) 1 r where
  toAppends := .push _
  passes p program hp := h program p.size (getElem?_of_push hp)

theorem Lays.record (slot : Nat) : Lays (·.push (.record slot)) 1 Eq :=
  .push fun _ _ h => .goTo h (by simp) (fun _ => rfl) fun _ => rfl

theorem Lays.id : Lays (fun p => p) 0 Eq where
  toAppends := .id
  passes _ _ _ := .refl

theorem Lays.comp (h : Lays lay m r) (h' : Lays lay' n q) : Lays (fun p => lay' (lay p)) (m + n) (Comp r q) where
  toAppends := h.toAppends.comp h'.toAppends
  passes p program hp := by
    have hfirst := h.passes p program ((h'.keeps _).trans hp)
    have hsecond := h'.passes (lay p) program hp
    rw [h.size, Nat.add_assoc] at hsecond
    exact hfirst.comp hsecond

theorem Lays.congr (h : Lays lay n r) (hiff : ∀ s t, r s t ↔ q s t) : Lays lay n q where
  toAppends := h.toAppends
  passes p program hp := (h.passes p program hp).congr hiff

theorem Lays.copies (h : Lays lay n r) (count : Nat) : Lays (Regex.copies lay count) (count * n) (Copies r count) := by
  induction count with
  | zero =>
    rw [Nat.zero_mul]
    exact .id
  | succ count ih =>
    rw [Nat.succ_mul, Nat.add_comm (count * n)]
    exact h.comp ih

theorem Lays.text (word : List Char) :
    Lays (fun p => word.foldl (fun p c => p.push (.char c)) p) word.length fun s t => s.Spells word t := by
  induction word with
  | nil => exact .id
  | cons c word ih =>
    have hchar : Lays (·.push (.char c)) 1 fun s t => s.Spells [c] t := by
      refine .push fun program place h => (Passes.take h (by simp) fun _ => rfl).congr fun s t => ?_
      simp [Instruction.takes]
    rw [List.length_cons, Nat.add_comm]
    exact (hchar.comp ih).congr fun s t => (@spells_append s t [c] word).symm

/-- A choice: a fork, the first way with a jump past the second one, and the second way. -/
theorem Lays.alt (h : Lays lay m r) (h' : Lays lay' n q) :
    Lays (fun p => lay' ((lay (p.push (.fork (p.size + 1) (p.size + m + 2)))).push (.jump (p.size + (m + n + 2)))))
      (m + n + 2) fun s t => r s t ∨ q s t where
  size p := by
    simp only [h.size, h'.size, Array.size_push]
    omega
  keeps p :=
    (((toList_prefix_push p _).trans (h.keeps _)).trans (toList_prefix_push _ _)).trans (h'.keeps _)
  passes p program hp := by
    have hjump := (h'.keeps _).trans hp
    have hfirst := (toList_prefix_push _ _).trans hjump
    have hfork := forks_of_fork (getElem?_of_push ((h.keeps _).trans hfirst))
    have hleft := h.passes _ program hfirst
    have hright := h'.passes _ program hp
    have hpast := Passes.goTo (getElem?_of_push hjump) (by simp) (fun _ => rfl) fun _ => rfl
    simp only [h.size, Array.size_push] at hleft hright hpast
    rw [show p.size + 1 + m + 1 = p.size + m + 2 by omega] at hright
    rw [show p.size + m + 2 + n = p.size + (m + n + 2) by omega] at hright
    exact hfork.alt (by simpa only [Relation.comp_eq] using hleft.comp hpast) hright

/-- Any number of copies: a fork into a loop or past it, and at the end of the loop another one or a jump back. -/
theorem Lays.star (h : Lays lay n r) (greedy jumps : Bool) :
    Lays (fun p => (lay (p.push (forkInto greedy (p.size + 1) (p.size + n + 2)))).push
        (if jumps then .jump p.size else forkInto greedy (p.size + 1) (p.size + n + 2)))
      (n + 2) fun s t => ∃ more, Copies r more s t where
  size p := by
    simp only [h.size, Array.size_push]
    omega
  keeps p := ((toList_prefix_push p _).trans (h.keeps _)).trans (toList_prefix_push _ _)
  passes p program hp := by
    have hbody := (toList_prefix_push _ _).trans hp
    have hhead := forks_of_forkInto (getElem?_of_push ((h.keeps _).trans hbody))
    have hback : Forks program (p.size + 1 + n) (p.size + 1) (p.size + n + 2) := by
      have hlast := getElem?_of_push hp
      rw [h.size, Array.size_push] at hlast
      cases jumps with
      | true => exact hhead.of_jump hlast
      | false => exact forks_of_forkInto hlast
    have hloop := h.passes _ program hbody
    rw [Array.size_push] at hloop
    refine (hhead.alt (hloop.loop hback) .refl).congr fun s t => ?_
    constructor
    · rintro (⟨more, hmore⟩ | rfl)
      · exact ⟨more + 1, hmore⟩
      · exact ⟨0, rfl⟩
    · rintro ⟨more, hmore⟩
      cases more with
      | zero => exact .inr hmore
      | succ more => exact .inl ⟨more, hmore⟩

theorem copies_succ (lay : Program → Program) (count : Nat) (p : Program) :
    Regex.copies lay (count + 1) p = lay (Regex.copies lay count p) := by
  induction count generalizing p with
  | zero => rfl
  | succ count ih => exact ih (lay p)

/-- At least one copy: behind the last one a fork goes back to its start. -/
theorem Lays.plus (h : Lays lay n r) (least : Nat) (greedy : Bool) :
    Lays (fun p => (Regex.copies lay (least + 1) p).push
        (forkInto greedy ((Regex.copies lay (least + 1) p).size - n) ((Regex.copies lay (least + 1) p).size + 1)))
      ((least + 1) * n + 1) fun s t => ∃ more, Copies r (least + 1 + more) s t where
  toAppends := (h.copies (least + 1)).toAppends.comp
    (.push fun p => forkInto greedy (p.size - n) (p.size + 1))
  passes p program hp := by
    have hcopies := (toList_prefix_push _ _).trans hp
    have hfork := forks_of_forkInto (getElem?_of_push hp)
    rw [copies_succ] at hcopies hfork
    have hbefore := (h.copies least).passes p program ((h.keeps _).trans hcopies)
    have hlast := h.passes _ program hcopies
    simp only [h.size, (h.copies least).size, Nat.add_sub_cancel_right] at hlast hfork
    rw [Nat.succ_mul, ← Nat.add_assoc, ← Nat.add_assoc]
    refine (hbefore.comp (hlast.loop hfork)).congr fun s t => ?_
    simp only [Nat.add_right_comm least 1, Nat.add_assoc least, copies_add (m := least)]
    exact ⟨fun ⟨u, hu, more, hmore⟩ => ⟨more, u, hu, hmore⟩, fun ⟨more, u, hu, hmore⟩ => ⟨u, hu, more, hmore⟩⟩

/-- Copies each of which may be the first one that is left out: a fork in front of each goes past all that are left. -/
theorem Lays.upTo (h : Lays lay n r) (greedy : Bool) (count : Nat) :
    Lays (fun p => Regex.copies
        (fun p' => lay (p'.push (forkInto greedy (p'.size + 1) (p.size + count * (n + 1))))) count p)
      (count * (n + 1)) fun s t => ∃ more ≤ count, Copies r more s t := by
  have happends (finish : Nat) :
      Appends (fun p => lay (p.push (forkInto greedy (p.size + 1) finish))) (n + 1) := by
    rw [Nat.add_comm]
    exact (Appends.push _).comp h.toAppends
  refine ⟨⟨fun p => ((happends _).copies count).size p, fun p => ((happends _).copies count).keeps p⟩, ?_⟩
  intro p program
  generalize hfinish : p.size + count * (n + 1) = finish
  intro hp
  induction count generalizing p with
  | zero =>
    rw [Nat.zero_mul, Nat.add_zero] at hfinish
    subst hfinish
    exact Passes.refl.congr fun s t => by simp [Copies]
  | succ count ih =>
    rw [Nat.succ_mul] at hfinish
    have hfirst := ((happends finish).copies count).keeps _ |>.trans hp
    have hfork := forks_of_forkInto (getElem?_of_push ((h.keeps _).trans hfirst))
    have hbody := h.passes _ program hfirst
    have hrest := ih _ (by rw [(happends finish).size]; omega) hp
    rw [(happends finish).size, Nat.add_comm n, ← Nat.add_assoc] at hrest
    rw [Array.size_push] at hbody
    refine (hfork.alt (hbody.comp hrest) .refl).congr fun s t => ?_
    constructor
    · rintro (⟨u, hu, more, hle, hmore⟩ | rfl)
      · exact ⟨more + 1, Nat.succ_le_succ hle, u, hu, hmore⟩
      · exact ⟨0, Nat.zero_le _, rfl⟩
    · rintro ⟨more, hle, hmore⟩
      cases more with
      | zero => exact .inr hmore
      | succ more =>
        obtain ⟨u, hu, hmore⟩ := hmore
        exact .inl ⟨u, hu, more, Nat.le_of_succ_le_succ hle, hmore⟩

end

namespace Node

/-- The place after a choice is where its code ends. -/
theorem lay_some (node : Node) (p : Program) : node.lay (some (p.size + node.size)) p = node.lay none p := by
  cases node with
  | rep body least most greedy => cases least <;> cases most <;> rfl
  | _ => rfl

/-- The code of an expression stands for what the expression matches. -/
theorem lays_lay (node : Node) : Lays (node.lay none) node.size node.Leads := by
  induction node with
  | empty => exact .id
  | text word => exact .text word
  | chars set => exact .push fun program place h => Passes.take h (by simp) fun _ => rfl
  | look condition => exact .push fun program place h => .require h
  | capture index body ih =>
    have hgroup := ((Lays.record (2 * index)).comp ih).comp (.record (2 * index + 1))
    rw [Relation.eq_comp, Relation.comp_eq, Nat.add_comm 1] at hgroup
    exact hgroup
  | cat first rest ihfirst ihrest => exact ihfirst.comp ihrest
  | alt first rest ihfirst ihrest =>
    have hlay : (first.alt rest).lay none = fun p => rest.lay none
        ((first.lay none (p.push (.fork (p.size + 1) (p.size + first.size + 2)))).push
          (.jump (p.size + (first.size + rest.size + 2)))) := by
      funext p
      rw [← lay_some rest, Array.size_push, ihfirst.size, Array.size_push,
        show p.size + 1 + first.size + 1 + rest.size = p.size + (first.size + rest.size + 2) by omega]
      rfl
    rw [hlay]
    exact ihfirst.alt ihrest
  | rep body least most greedy ih =>
    cases most with
    | none =>
      cases least with
      | zero => exact (ih.star greedy body.mustAdvance).congr fun s t => by simp [Leads]
      | succ least => exact (ih.plus least greedy).congr fun s t => by simp [Leads]
    | some most =>
      have hlay : (rep body least (some most) greedy).lay none = fun p =>
          Regex.copies (fun p' => body.lay none (p'.push (forkInto greedy (p'.size + 1)
            ((Regex.copies (body.lay none) least p).size + (most - least) * (body.size + 1)))))
            (most - least) (Regex.copies (body.lay none) least p) := by
        cases least <;> rfl
      have hsize : (rep body least (some most) greedy).size =
          least * body.size + (most - least) * (body.size + 1) := by
        cases least <;> rfl
      rw [hlay, hsize]
      refine ((ih.copies least).comp (ih.upTo greedy (most - least))).congr fun s t => ?_
      simp only [Leads, Option.mem_def, Option.some.injEq, forall_eq', copies_add]
      constructor
      · rintro ⟨u, hu, more, hle, hmore⟩
        exact ⟨more, hle, u, hu, hmore⟩
      · rintro ⟨more, hle, u, hu, hmore⟩
        exact ⟨u, hu, more, hle, hmore⟩

end Node

/-- The program for an expression accepts from a place in a text exactly if a match begins there. -/
theorem accepts_program_iff (e : Expression) (s : Spot) :
    (∃ n, Accepts e.program n 0 s) ↔ ∃ t, e.body.Leads s t := by
  have hlays := ((Lays.record 0).comp (Node.lays_lay e.body)).comp (.record 1)
  rw [Relation.eq_comp, Relation.comp_eq] at hlays
  have hpasses := hlays.passes #[] e.program (toList_prefix_push _ _)
  have haccept : e.program[Array.size (#[] : Program) + (1 + e.body.size + 1)]? = some .accept := by
    rw [← hlays.size]
    exact getElem?_of_push List.prefix_rfl
  constructor
  · rintro ⟨n, hrun⟩
    obtain ⟨t, ht, -⟩ := hpasses.sound hrun
    exact ⟨t, ht⟩
  · rintro ⟨t, ht⟩
    exact hpasses.complete ht (.accept haccept)

end TrafficPolicy.Regex
