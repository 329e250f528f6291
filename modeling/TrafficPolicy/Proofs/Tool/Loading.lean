import TrafficPolicy.Proofs.Grammar.Standard
import TrafficPolicy.Proofs.Grammar.UrlRule
import TrafficPolicy.Proofs.Profile.WellLinked
import TrafficPolicy.Tool.Report

/-!
# Two passes over a command file

A file is loaded up to the first command that is refused, and what stands before it stays applied. A file is checked to
its end, and the first command that is not understood is reported. What is not understood is refused, so that checking
never reports an earlier line than loading.
-/

namespace TrafficPolicy

open Text

/-! ## The lines of a file -/

namespace CommandFile

/-- The commands in some lines, the first of which has a number. -/
def numbered : Nat → List (List Char) → List NumberedCommand
  | _, [] => []
  | first, line :: lines => ((command? line).map (NumberedCommand.mk first)).toList ++ numbered (first + 1) lines

theorem commands_eq_numbered (text : String) : commands text = numbered 1 (splitOn '\n' text.toList) := by
  have hlines : ∀ (lines : List (List Char)) (first : Nat),
      ((lines.zipIdx first).filterMap fun entry => (command? entry.1).map (NumberedCommand.mk entry.2)) =
        numbered first lines := by
    intro lines
    induction lines with
    | nil => exact fun _ => rfl
    | cons line lines ih =>
      intro first
      rw [List.zipIdx_cons, List.filterMap_cons, ih (first + 1), numbered]
      cases command? line <;> rfl
  exact hlines _ 1

/-- A command is the first in some lines of which something does not hold. The lines before it are given. -/
structure FirstFailing (P : String → Prop) (lines before : List (List Char)) (command : String) : Prop where
  here : ∃ line after, lines = before ++ line :: after ∧ command? line = some command
  fails : ¬P command
  others : ∀ other ∈ before.filterMap command?, P other

variable {P Q : String → Prop} {lines before before' : List (List Char)} {line : List Char} {command command' : String}

theorem FirstFailing.head (hline : command? line = some command) (h : ¬P command) :
    FirstFailing P (line :: lines) [] command :=
  ⟨⟨line, lines, rfl, hline⟩, h, by simp⟩

theorem forall_commands_cons (hline : ∀ other ∈ command? line, P other)
    (hlines : ∀ other ∈ lines.filterMap command?, P other) : ∀ other ∈ (line :: lines).filterMap command?, P other := by
  intro other hother
  obtain ⟨found, hfound, hcommand⟩ := List.mem_filterMap.mp hother
  rcases List.mem_cons.mp hfound with rfl | hfound
  · exact hline other hcommand
  · exact hlines other (List.mem_filterMap.mpr ⟨found, hfound, hcommand⟩)

theorem FirstFailing.cons (h : FirstFailing P lines before command) (hline : ∀ other ∈ command? line, P other) :
    FirstFailing P (line :: lines) (line :: before) command := by
  obtain ⟨⟨found, after, rfl, hfound⟩, hfails, hothers⟩ := h
  exact ⟨⟨found, after, rfl, hfound⟩, hfails, forall_commands_cons hline hothers⟩

theorem FirstFailing.mem (h : FirstFailing P lines before command) : command ∈ lines.filterMap command? := by
  obtain ⟨line, after, rfl, hline⟩ := h.here
  exact List.mem_filterMap.mpr ⟨line, by simp, hline⟩

/-- What is asked for more comes first at the latest. -/
theorem FirstFailing.length_le (hPQ : ∀ command, P command → Q command) (h : FirstFailing P lines before command)
    (h' : FirstFailing Q lines before' command') : before.length ≤ before'.length := by
  obtain ⟨line, after, rfl, hline⟩ := h.here
  obtain ⟨line', after', heq, hline'⟩ := h'.here
  refine Nat.not_lt.mp fun hlt => ?_
  -- The later pass would have stopped in a line that the earlier one has gone through.
  obtain ⟨rest, rfl⟩ : ∃ rest, before = before' ++ line' :: rest := by
    rcases List.append_eq_append_iff.mp heq with ⟨mid, rfl, -⟩ | ⟨mid, rfl, hmid⟩
    · rw [List.length_append] at hlt
      omega
    · cases mid with
      | nil => simp at hlt
      | cons first mid => exact ⟨mid, by simp_all⟩
  exact h'.fails (hPQ _ (h.others command' (List.mem_filterMap.mpr ⟨line', by simp, hline'⟩)))

/-- There is only one that is the first. -/
theorem FirstFailing.unique (h : FirstFailing P lines before command) (h' : FirstFailing P lines before' command') :
    before' = before ∧ command' = command := by
  have hlength : before.length = before'.length :=
    Nat.le_antisymm (h.length_le (fun _ => id) h') (h'.length_le (fun _ => id) h)
  obtain ⟨line, after, rfl, hline⟩ := h.here
  obtain ⟨line', after', heq, hline'⟩ := h'.here
  obtain ⟨rfl, hrest⟩ := List.append_inj heq hlength
  obtain ⟨rfl, -⟩ := List.cons_eq_cons.mp hrest
  exact ⟨rfl, Option.some.inj (hline'.symm.trans hline)⟩

end CommandFile

/-! ## Loading -/

def Policy.IsForProfile : Policy → Prop
  | .url _ | .remove _ | .delete _ | .domain _ => True
  | _ => False

/-- A command is read as a policy for a profile. -/
def Registry.Takes (registry : Registry) (command : String) : Prop :=
  ∃ policy, registry.read command = .ok policy ∧ policy.IsForProfile

def Registry.Understands (registry : Registry) (command : String) : Prop :=
  ∃ policy, registry.read command = .ok policy

namespace Profile

open CommandFile

variable {registry : Registry} {shuffler : Shuffler} {path : String} {p q : Profile} {command : String}

theorem applyPolicy_ok_iff (p : Profile) (shuffler : Shuffler) {policy : Policy} :
    (∃ q, p.applyPolicy shuffler policy = .ok q) ↔ policy.IsForProfile := by
  cases policy <;> simp [applyPolicy, Policy.IsForProfile]

theorem apply_ok_iff_takes (p : Profile) (shuffler : Shuffler) :
    (∃ q, p.apply registry shuffler command = .ok q) ↔ registry.Takes command := by
  simp only [apply_eq_ok_iff, Registry.Takes, ← applyPolicy_ok_iff p shuffler]
  exact ⟨fun ⟨q, policy, hread, happly⟩ => ⟨policy, hread, q, happly⟩,
    fun ⟨policy, hread, q, happly⟩ => ⟨q, policy, hread, happly⟩⟩

def historyOf (shuffler : Shuffler) (lines : List (List Char)) : History :=
  (lines.filterMap command?).map fun command => (shuffler, command)

theorem follow_historyOf_cons_none {line : List Char} (hline : command? line = none) (lines : List (List Char)) :
    p.follow registry (historyOf shuffler (line :: lines)) = p.follow registry (historyOf shuffler lines) := by
  rw [historyOf, List.filterMap_cons_none hline]
  rfl

theorem follow_historyOf_cons_some {line : List Char} (hline : command? line = some command)
    (h : p.apply registry shuffler command = .ok q) (lines : List (List Char)) :
    p.follow registry (historyOf shuffler (line :: lines)) = q.follow registry (historyOf shuffler lines) := by
  rw [historyOf, List.filterMap_cons_some hline, follow, List.map_cons, List.foldlM_cons, h]
  rfl

/-- How the lines of a file are loaded: all commands are applied, or those before the first that is refused. -/
inductive Loaded (registry : Registry) (shuffler : Shuffler) (path : String) (first : Nat) (p : Profile)
    (lines : List (List Char)) : Except Failure Unit × Profile → Prop
  | all {q : Profile} : (∀ command ∈ lines.filterMap command?, registry.Takes command) →
      p.follow registry (historyOf shuffler lines) = .ok q → Loaded registry shuffler path first p lines (.ok (), q)
  | upTo {q : Profile} {before : List (List Char)} {command : String} {e : CommandError} :
      FirstFailing registry.Takes lines before command → p.follow registry (historyOf shuffler before) = .ok q →
        q.apply registry shuffler command = .error e →
          Loaded registry shuffler path first p lines (.error (.line path (first + before.length) e), q)

theorem Loaded.cons {first : Nat} {line : List Char} {lines : List (List Char)} {loaded : Except Failure Unit × Profile}
    (h : Loaded registry shuffler path (first + 1) q lines loaded)
    (htakes : ∀ other ∈ command? line, registry.Takes other)
    (hfollow : ∀ lines, p.follow registry (historyOf shuffler (line :: lines)) =
      q.follow registry (historyOf shuffler lines)) :
    Loaded registry shuffler path first p (line :: lines) loaded := by
  cases h with
  | all hall hq => exact .all (forall_commands_cons htakes hall) ((hfollow lines).trans hq)
  | @upTo _ before _ e hfirst hq happly =>
    rw [Nat.add_assoc, Nat.add_comm 1]
    exact .upTo (hfirst.cons htakes) ((hfollow before).trans hq) happly

theorem loaded_applyLines (registry : Registry) (shuffler : Shuffler) (path : String) (first : Nat) (p : Profile)
    (lines : List (List Char)) :
    Loaded registry shuffler path first p lines (p.applyLines registry shuffler path (numbered first lines)) := by
  induction lines generalizing first p with
  | nil => exact .all (by simp) rfl
  | cons line lines ih =>
    cases hline : command? line with
    | none =>
      simp only [numbered, hline, Option.map_none, Option.toList_none, List.nil_append]
      exact (ih (first + 1) p).cons (by simp [hline]) (follow_historyOf_cons_none hline)
    | some command =>
      simp only [numbered, hline, Option.map_some, Option.toList_some, List.singleton_append, applyLines]
      cases happly : p.apply registry shuffler command with
      | ok q =>
        have htakes : registry.Takes command := (apply_ok_iff_takes p shuffler).mp ⟨q, happly⟩
        exact (ih (first + 1) q).cons (by simpa [hline] using htakes) (follow_historyOf_cons_some hline happly)
      | error e =>
        have hrefused : ¬registry.Takes command := by
          rw [← apply_ok_iff_takes p shuffler, happly]
          simp
        exact .upTo (.head hline hrefused) rfl happly

end Profile

/-! ## Checking -/

namespace Report

open CommandFile

variable {registry : Registry} {path : String} {report : Report}

theorem result_append (first second : Report) :
    (first.append second).result = match first.result with
      | .error failure => .error failure
      | .ok _ => second.result := rfl

/-- The first failure is the result. -/
theorem result_foldl_of_error {failure : Failure} (h : report.result = .error failure) (reports : List Report) :
    (reports.foldl append report).result = .error failure := by
  induction reports generalizing report with
  | nil => exact h
  | cons next reports ih =>
    refine ih ?_
    rw [result_append, h]

/-- How the lines of a file are checked: all commands are understood, or there is a first that is not. -/
inductive Checked (registry : Registry) (path : String) (first : Nat) (lines : List (List Char)) :
    Except Failure Unit → Prop
  | all : (∀ command ∈ lines.filterMap command?, registry.Understands command) →
      Checked registry path first lines (.ok ())
  | not {before : List (List Char)} {command : String} {e : CommandError} :
      FirstFailing registry.Understands lines before command → registry.read command = .error e →
        Checked registry path first lines (.error (.line path (first + before.length) e))

theorem Checked.cons {first : Nat} {line : List Char} {lines : List (List Char)} {result : Except Failure Unit}
    (h : Checked registry path (first + 1) lines result)
    (hunderstands : ∀ other ∈ command? line, registry.Understands other) :
    Checked registry path first (line :: lines) result := by
  cases h with
  | all hall => exact .all (forall_commands_cons hunderstands hall)
  | @not before _ e hfirst hread =>
    rw [Nat.add_assoc, Nat.add_comm 1]
    exact .not (hfirst.cons hunderstands) hread

theorem checked_foldl (registry : Registry) (path : String) (first : Nat) (lines : List (List Char))
    (h : report.result = .ok ()) :
    Checked registry path first lines
      (((numbered first lines).map (ofLine registry path)).foldl append report).result := by
  induction lines generalizing first report with
  | nil =>
    rw [numbered, List.map_nil, List.foldl_nil, h]
    exact .all (by simp)
  | cons line lines ih =>
    cases hline : command? line with
    | none =>
      simp only [numbered, hline, Option.map_none, Option.toList_none, List.nil_append]
      exact (ih (first + 1) h).cons (by simp [hline])
    | some command =>
      simp only [numbered, hline, Option.map_some, Option.toList_some, List.singleton_append, List.map_cons,
        List.foldl_cons]
      cases hread : registry.read command with
      | ok policy =>
        have hnext : (report.append (ofLine registry path ⟨first, command⟩)).result = .ok () := by
          simp [result_append, h, ofLine, hread, success]
        exact (ih (first + 1) hnext).cons (by simpa [hline] using ⟨policy, hread⟩)
      | error e =>
        have hnext : (report.append (ofLine registry path ⟨first, command⟩)).result =
            .error (.line path first e) := by
          simp [result_append, h, ofLine, hread]
        rw [result_foldl_of_error hnext]
        exact .not (.head hline fun ⟨policy, hpolicy⟩ => by simp [hread] at hpolicy) hread

theorem checked_check {files : Files} {text : String} (h : files path = .ok text) :
    Checked registry path 1 (splitOn '\n' text.toList) (check registry files [path]).result := by
  have hresult : (check registry files [path]).result =
      (((numbered 1 (splitOn '\n' text.toList)).map (ofLine registry path)).foldl append (success [])).result := by
    simp [check, ofFile, CommandFile.read, h, append, success, Except.map, Except.mapError, commands_eq_numbered]
  rw [hresult]
  exact checked_foldl registry path 1 _ rfl

end Report

/-! ## Files -/

structure FileTree.LeadsTo (tree : FileTree) (path : String) (bytes : List UInt8) : Prop where
  noNull : path.contains '\x00' = false
  nonempty : path.isEmpty = false
  short : path.utf8ByteSize ≤ maxPath
  place : ∃ place, tree.follow path = .ok place ∧ tree.content? place = some bytes

theorem FileTree.read_of_leadsTo {tree : FileTree} {path : String} {bytes : List UInt8} (h : tree.LeadsTo path bytes) :
    tree.read path = match Text.ofUtf8? bytes with
      | none => .error .notText
      | some text => .ok (String.ofList text) := by
  obtain ⟨place, hplace, hbytes⟩ := h.place
  cases htext : Text.ofUtf8? bytes <;>
    simp only [read, h.noNull, h.nonempty, Bool.false_eq_true, if_false, Nat.not_lt.mpr h.short, hplace, hbytes, htext]

namespace Profile

open CommandFile

variable {registry : Registry} {shuffler : Shuffler} {files : Files} {path text : String} {p : Profile}

theorem load_of_error {fault : FileFault} (h : files path = .error fault) :
    p.load registry shuffler files path = (.error (.file fault), p) := by
  simp [load, CommandFile.read, h, Except.map, Except.mapError]

theorem loaded_load (h : files path = .ok text) :
    Loaded registry shuffler path 1 p (splitOn '\n' text.toList) (p.load registry shuffler files path) := by
  have hload : p.load registry shuffler files path =
      p.applyLines registry shuffler path (numbered 1 (splitOn '\n' text.toList)) := by
    simp [load, CommandFile.read, h, Except.map, Except.mapError, commands_eq_numbered]
  rw [hload]
  exact loaded_applyLines registry shuffler path 1 p _

theorem Loaded.result_eq_ok_iff {first : Nat} {lines : List (List Char)} {loaded : Except Failure Unit × Profile}
    (h : Loaded registry shuffler path first p lines loaded) :
    loaded.1 = .ok () ↔ ∀ command ∈ lines.filterMap command?, registry.Takes command := by
  cases h with
  | all hall hq => exact iff_of_true rfl hall
  | upTo hfirst hq happly => exact iff_of_false nofun fun hall => hfirst.fails (hall _ hfirst.mem)

end Profile

theorem Report.Checked.isLine_iff {registry : Registry} {path : String} {first : Nat} {lines : List (List Char)}
    {result : Except Failure Unit} (h : Checked registry path first lines result) :
    (∃ number e, result = .error (.line path number e)) ↔
      ∃ command ∈ lines.filterMap CommandFile.command?, ¬registry.Understands command := by
  cases h with
  | all hall => exact iff_of_false nofun fun ⟨command, hcommand, hnot⟩ => hnot (hall command hcommand)
  | not hfirst hread => exact iff_of_true ⟨_, _, rfl⟩ ⟨_, hfirst.mem, hfirst.fails⟩

theorem Report.Checked.first_of_ne_ok {registry : Registry} {path : String} {first : Nat} {lines : List (List Char)}
    {result : Except Failure Unit} (h : Checked registry path first lines result) (hresult : result ≠ .ok ()) :
    ∃ before command e, CommandFile.FirstFailing registry.Understands lines before command ∧
      registry.read command = .error e ∧ result = .error (.line path (first + before.length) e) := by
  cases h with
  | all hall => exact absurd rfl hresult
  | not hfirst hread => exact ⟨_, _, _, hfirst, hread, rfl⟩

namespace CommandFile

/-- What cannot be read leaves the profile as it is, and what is not UTF-8 cannot be read. Otherwise a file is loaded
exactly if all its commands are read as policies for a profile, and else up to the first that is not, with the number
of its line. It is checked without a fault exactly if all its commands are read as policies, and if not, the line that
is reported is that of the first such command, and loading fails there or before. -/
theorem load_and_check (registry : Registry) (shuffler : Shuffler) (path : String) (p : Profile) :
    (∀ files fault, files path = .error fault → p.load registry shuffler files path = (.error (.file fault), p)) ∧
    (∀ (tree : FileTree) bytes, tree.LeadsTo path bytes →
      (Text.ofUtf8? bytes = none → p.load registry shuffler tree.read path = (.error (.file .notText), p)) ∧
      ∀ text, Text.ofUtf8? bytes = some text → tree.read path = .ok (String.ofList text)) ∧
    ∀ files text, files path = .ok text →
      let lines := splitOn '\n' text.toList
      let loaded := p.load registry shuffler files path
      let checked := (Report.check registry files [path]).result
      (loaded.1 = .ok () ↔ ∀ command ∈ lines.filterMap command?, registry.Takes command) ∧
      (loaded.1 = .ok () → p.follow registry (Profile.historyOf shuffler lines) = .ok loaded.2) ∧
      (loaded.1 ≠ .ok () → ∃ before command e, FirstFailing registry.Takes lines before command ∧
        loaded.1 = .error (.line path (before.length + 1) e) ∧ loaded.2.apply registry shuffler command = .error e ∧
          p.follow registry (Profile.historyOf shuffler before) = .ok loaded.2) ∧
      ((∃ number e, checked = .error (.line path number e)) ↔
        ∃ command ∈ lines.filterMap command?, ¬registry.Understands command) ∧
      (checked ≠ .ok () → ∃ before command e, FirstFailing registry.Understands lines before command ∧
        registry.read command = .error e ∧ checked = .error (.line path (before.length + 1) e)) ∧
      ∀ number e, checked = .error (.line path number e) →
        ∃ number' ≤ number, ∃ e', loaded.1 = .error (.line path number' e') := by
  refine ⟨fun files fault => Profile.load_of_error, fun tree bytes htree => ⟨fun hnone => ?_, fun text htext => ?_⟩,
    fun files text hfile => ?_⟩
  · apply Profile.load_of_error
    rw [FileTree.read_of_leadsTo htree, hnone]
  · rw [FileTree.read_of_leadsTo htree, htext]
  intro lines loaded checked
  have hload : Profile.Loaded registry shuffler path 1 p lines loaded := Profile.loaded_load hfile
  have hcheck : Report.Checked registry path 1 lines checked := Report.checked_check hfile
  clear_value loaded checked
  refine ⟨hload.result_eq_ok_iff, ?_, ?_, hcheck.isLine_iff, ?_, ?_⟩
  · cases hload with
    | all hall hq => exact fun _ => hq
    | upTo hfirst hq happly => nofun
  · cases hload with
    | all hall hq => exact fun hnot => absurd rfl hnot
    | upTo hfirst hq happly => exact fun _ => ⟨_, _, _, hfirst, by rw [Nat.add_comm], happly, hq⟩
  · simpa only [Nat.add_comm] using hcheck.first_of_ne_ok
  · intro number e hline
    cases hcheck with
    | all hall => cases hline
    | not hnot hread =>
      cases hline
      -- The command that is not understood is refused, so loading stops there at the latest.
      cases hload with
      | all hall hq =>
        obtain ⟨policy, hpolicy, -⟩ := hall _ hnot.mem
        exact absurd ⟨policy, hpolicy⟩ hnot.fails
      | upTo hfirst hq happly =>
        have hle := hfirst.length_le (fun command ⟨policy, hpolicy, _⟩ => ⟨policy, hpolicy⟩) hnot
        exact ⟨_, Nat.add_le_add_left hle 1, _, rfl⟩

private theorem builder?_cache : Registry.standard.builder? "cache" = some (.leaf (.marker .cache)) :=
  Registry.builder?_standard_iff.mpr (.marker .cache)

private theorem read_cache : Registry.standard.read "cache" = .ok (.marker .cache) := by
  have hwords : Text.words "cache" = ["cache"] := by decide
  rw [Registry.read_eq_ok_iff, hwords, Registry.builds_leaf builder?_cache]
  exact ⟨rfl, rfl⟩

private def cached : UrlRule := { slots := { content := some .cache } }

private theorem read_cached : Registry.standard.read "url cache" = .ok (.url cached) := by
  have hwords : Text.words "url cache" = ["url", "cache"] := by decide
  exact UrlRule.read_part hwords (by decide) ((Registry.builds_leaf builder?_cache).mpr ⟨rfl, rfl⟩) rfl

private def mixed : List (List Char) := ["# note", "url cache", "cache", "warp"].map String.toList

private theorem firstFailing_part : FirstFailing Registry.standard.Takes mixed (mixed.take 2) "cache" where
  here := ⟨"cache".toList, ["warp".toList], by decide, by decide⟩
  fails := by
    rintro ⟨policy, hread, hpolicy⟩
    obtain rfl := Except.ok.inj (read_cache.symm.trans hread)
    exact hpolicy
  others := by
    rw [show (mixed.take 2).filterMap command? = ["url cache"] by decide, List.forall_mem_singleton]
    exact ⟨_, read_cached, trivial⟩

private theorem firstFailing_unknown : FirstFailing Registry.standard.Understands mixed (mixed.take 3) "warp" where
  here := ⟨"warp".toList, [], by decide, by decide⟩
  fails := by
    rintro ⟨policy, hread⟩
    have hwords : Text.words "warp" = ["warp"] := by decide
    rw [Registry.read_eq_ok_iff, hwords] at hread
    exact Registry.not_builds_of_unknown (by decide +kernel) hread
  others := by
    rw [show (mixed.take 3).filterMap command? = ["url cache", "cache"] by decide, List.forall_mem_cons,
      List.forall_mem_singleton]
    exact ⟨⟨_, read_cached⟩, ⟨_, read_cache⟩⟩

/-- What is only a part of a command stops loading, and what is no command is found in the line after that. -/
theorem load_and_check_part :
    let files : Files := fun _ => .ok "# note\nurl cache\ncache\nwarp"
    ∃ e e' q, ({} : Profile).load .standard .inOrder files "a.txt" = (.error (.line "a.txt" 3 e), q) ∧
      q.commands = ["url cache"] ∧ (Report.check .standard files ["a.txt"]).result = .error (.line "a.txt" 4 e') := by
  intro files
  obtain ⟨-, -, hfile⟩ := load_and_check .standard .inOrder "a.txt" {}
  obtain ⟨hok, -, hstop, hline, hcheck, -⟩ := hfile files _ rfl
  have hlines : splitOn '\n' "# note\nurl cache\ncache\nwarp".toList = mixed := by decide
  rw [hlines] at hok hstop hline hcheck
  obtain ⟨before, command, e, hfirst, hresult, -, hfollow⟩ :=
    hstop fun hall => firstFailing_part.fails (hok.mp hall _ firstFailing_part.mem)
  obtain ⟨rfl, rfl⟩ := firstFailing_part.unique hfirst
  obtain ⟨number, fault, hfault⟩ := hline.mpr ⟨_, firstFailing_unknown.mem, firstFailing_unknown.fails⟩
  obtain ⟨before, command, e', hfirst', -, hresult'⟩ := hcheck (by rw [hfault]; simp)
  obtain ⟨rfl, rfl⟩ := firstFailing_unknown.unique hfirst'
  have happly : ({} : Profile).follow .standard [(.inOrder, "url cache")] = .ok (Profile.applyUrl {} cached) :=
    Profile.follow_cons_eq_ok_iff.mpr ⟨_, Profile.apply_eq_ok_iff.mpr ⟨_, read_cached, rfl⟩, rfl⟩
  have hhistory : Profile.historyOf .inOrder (mixed.take 2) = [(.inOrder, "url cache")] := by
    rw [Profile.historyOf, show (mixed.take 2).filterMap command? = ["url cache"] by decide]
    rfl
  rw [hhistory, happly] at hfollow
  exact ⟨e, e', _, Prod.ext hresult (Except.ok.inj hfollow).symm, by decide, hresult'⟩

end CommandFile

end TrafficPolicy
