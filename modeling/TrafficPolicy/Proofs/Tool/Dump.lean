import TrafficPolicy.Proofs.Profile.SoundRules
import TrafficPolicy.Proofs.Text.Lines
import TrafficPolicy.Tool.Report

/-!
# Profiles that are read from a file again

A profile is printed as a line with its name and a line for each command. A command file is read line by line,
so that a command with a line break in it is read as several. The name stands behind a number sign, but only
its first line does.
-/

namespace TrafficPolicy

open Text

/-! ## Sets of profiles -/

namespace Profile

variable {p q : Profile}

theorem sound_apply {shuffler : Shuffler} {command : String} (hp : p.ledger.Sound)
    (h : p.apply .standard shuffler command = .ok q) : q.ledger.Sound := by
  obtain ⟨policy, hread, happly⟩ := apply_eq_ok_iff.mp h
  have hledger := ledger_applyPolicy p shuffler policy
  rw [happly] at hledger
  exact hp.applyPolicy (Registry.sound_of_read hread) hledger.symm

/-- Every command begins with one of two keywords. -/
theorem exists_line_of_mem_commands (hp : p.ledger.Sound) {command : String} (h : command ∈ p.commands) :
    ∃ keyword arguments, (keyword = "url" ∨ keyword = "domain") ∧ command = line (keyword :: arguments) := by
  rw [← commands_ledger, Ledger.commands] at h
  rcases List.mem_append.mp h with h | h
  · obtain ⟨rule, hrule, rfl⟩ := List.mem_map.mp h
    exact ⟨"url", _, .inl rfl, (hp.urls rule hrule).command_eq⟩
  · obtain ⟨rule, hrule, rfl⟩ := List.mem_map.mp h
    have hsound : rule.Sound := by
      rcases List.mem_append.mp hrule with hrule | hrule
      · exact (hp.defaultDomain rule (Option.mem_toList.mp hrule)).1
      · exact (hp.domains rule hrule).1
    exact ⟨"domain", _, .inr rfl, hsound.command_eq⟩

end Profile

namespace ProfileSet

/-- The sets that there can be: profiles are created, commands are applied to them, and clients are bound. -/
inductive Reached : ProfileSet → Prop
  | fresh : Reached {}
  | create {set : ProfileSet} (name : String) : Reached set → Reached (set.create name)
  | apply {set : ProfileSet} {name command : String} {p q : Profile} {shuffler : Shuffler} :
      Reached set → set.get? name = some p → p.apply .standard shuffler command = .ok q → Reached (set.put name q)
  | bind {set next : ProfileSet} {client : Address} {name : String} :
      Reached set → set.bind? client name = some next → Reached next

def Every (P : Profile → Prop) (set : ProfileSet) : Prop :=
  P set.default ∧ ∀ entry ∈ set.named, P entry.2

variable {P : Profile → Prop} {set : ProfileSet} {name : String} {p : Profile}

theorem Every.of_get? (h : set.Every P) (hp : set.get? name = some p) : P p := by
  unfold get? at hp
  split at hp
  · exact Option.some.inj hp ▸ h.1
  · obtain ⟨before, after, hnamed, -⟩ := List.lookup_eq_some_iff.mp hp
    exact h.2 (name, p) (hnamed ▸ List.mem_append_right _ List.mem_cons_self)

theorem Every.create (h : set.Every P) (hfresh : P {}) (name : String) : (set.create name).Every P := by
  unfold ProfileSet.create
  split
  · exact h
  · refine ⟨h.1, fun entry hentry => ?_⟩
    rcases List.mem_append.mp hentry with hold | hnew
    · exact h.2 entry hold
    · obtain rfl := List.mem_singleton.mp hnew
      exact hfresh

theorem Every.put (h : set.Every P) (hp : P p) (name : String) : (set.put name p).Every P := by
  unfold ProfileSet.put
  split
  · exact ⟨hp, h.2⟩
  · refine ⟨h.1, fun entry hentry => ?_⟩
    obtain ⟨old, hold, rfl⟩ := List.mem_map.mp hentry
    split
    · exact hp
    · exact h.2 old hold

theorem Every.forClient (h : set.Every P) (client : Option Address) : P (set.forClient client) := by
  unfold ProfileSet.forClient
  cases hp : set.get? (set.nameFor client) with
  | none => exact h.1
  | some p => exact h.of_get? hp

theorem Reached.sound (h : set.Reached) : set.Every fun p => p.ledger.Sound := by
  induction h with
  | fresh => exact ⟨Ledger.sound_empty, List.forall_mem_nil _⟩
  | create name _ ih => exact ih.create Ledger.sound_empty name
  | apply _ hget happly ih => exact ih.put (Profile.sound_apply (ih.of_get? hget) happly) _
  | bind _ hbind ih =>
    unfold bind? at hbind
    split at hbind
    · obtain rfl := Option.some.inj hbind
      exact ih
    · cases hbind

end ProfileSet

/-! ## Texts of command files -/

namespace CommandFile

def textsOf (lines : List (List Char)) : List String := lines.filterMap command?

/-- The commands in a text, without the numbers of their lines. -/
def texts (text : List Char) : List String := textsOf (splitOn '\n' text)

theorem textsOf_append (lines more : List (List Char)) : textsOf (lines ++ more) = textsOf lines ++ textsOf more :=
  List.filterMap_append

theorem textsOf_eq_nil_iff {lines : List (List Char)} :
    textsOf lines = [] ↔ ∀ line ∈ lines, isPassedOver (trim line) = true := by
  simp [textsOf, command?]

/-- The commands in texts that each end a line. -/
theorem texts_lines (lines : List String) :
    texts (lines.flatMap fun line => line.toList ++ ['\n']) = lines.flatMap fun line => texts line.toList := by
  induction lines with
  | nil => rfl
  | cons line lines ih =>
    have hcons : (line :: lines).flatMap (fun line => line.toList ++ ['\n']) =
        line.toList ++ '\n' :: lines.flatMap fun line => line.toList ++ ['\n'] := by simp
    rw [hcons, texts, splitOn_append_cons, textsOf_append, List.flatMap_cons, ← ih]
    rfl

theorem newline_not_mem_of_mem_texts {text : List Char} {command : String} (h : command ∈ texts text) :
    '\n' ∉ command.toList := by
  obtain ⟨piece, hpiece, hcommand⟩ := List.mem_filterMap.mp h
  obtain ⟨-, hpiece'⟩ := Option.ite_none_left_eq_some.mp hcommand
  rw [← Option.some.inj hpiece', String.toList_ofList]
  exact fun hmem => not_mem_of_mem_splitOn hpiece (mem_of_mem_trim hmem)

/-- A command without a line break is the one command of its line. -/
theorem texts_of_line {keyword : String} {arguments : List String} (hkeyword : keyword = "url" ∨ keyword = "domain")
    (hline : '\n' ∉ (line (keyword :: arguments)).toList) :
    texts (line (keyword :: arguments)).toList = [line (keyword :: arguments)] := by
  have hedged := edged_line (List.cons_ne_nil keyword arguments)
  have hhead : (line (keyword :: arguments)).toList.head? ≠ some '#' := by
    rcases hkeyword with rfl | rfl
    · rw [head?_line (by decide)]
      decide
    · rw [head?_line (by decide)]
      decide
  have hpassed : isPassedOver (line (keyword :: arguments)).toList = false := by
    simp only [isPassedOver, Bool.or_eq_false_iff, List.isEmpty_eq_false_iff, beq_eq_false_iff_ne]
    exact ⟨hedged.nonempty, hhead⟩
  rw [texts, splitOn_of_not_mem hline]
  simp [textsOf, command?, hedged.trim_eq, hpassed]

/-- Of a text behind a number sign only the first line is passed over for that. -/
theorem texts_comment {mark : List Char} (hline : '\n' ∉ mark) (text : List Char) :
    texts ('#' :: mark ++ text) = textsOf (splitOn '\n' text).tail := by
  obtain ⟨piece, pieces, hpieces⟩ := List.exists_cons_of_ne_nil (splitOn_ne_nil '\n' text)
  have hmark : '\n' ∉ '#' :: mark := by simpa using hline
  have hpassed : isPassedOver (trim ('#' :: mark ++ piece)) = true := by
    rw [List.cons_append, trim_cons (by decide)]
    rfl
  rw [texts, splitOn_append_left hmark hpieces, hpieces]
  show textsOf ([('#' :: mark ++ piece)] ++ pieces) = textsOf pieces
  rw [textsOf_append, textsOf_eq_nil_iff.mpr (by simpa using hpassed), List.nil_append]

end CommandFile

namespace Report

theorem toList_text (r : Report) : r.text.toList = r.lines.flatMap fun line => line.toList ++ ['\n'] := by
  rw [text, String.toList_join, List.flatMap_map]
  exact List.flatMap_congr fun line _ => String.toList_append

variable {set : ProfileSet}

/-- What is read from a printed profile: the commands in later lines of the name, and those in the commands. -/
theorem texts_dump (set : ProfileSet) (client : Option Address) :
    CommandFile.texts (dump set client).text.toList =
      CommandFile.textsOf (splitOn '\n' (set.nameFor client).toList).tail ++
        (set.forClient client).commands.flatMap fun command => CommandFile.texts command.toList := by
  have hmark : ("# profile " ++ set.nameFor client).toList =
      '#' :: " profile ".toList ++ (set.nameFor client).toList := String.toList_append
  have hlines : (dump set client).lines = ("# profile " ++ set.nameFor client) :: (set.forClient client).commands :=
    rfl
  rw [toList_text, CommandFile.texts_lines, hlines, List.flatMap_cons, hmark,
    CommandFile.texts_comment (by decide)]

theorem flatMap_texts {commands : List String} (hwritten : ∀ command ∈ commands,
      ∃ keyword arguments, (keyword = "url" ∨ keyword = "domain") ∧ command = line (keyword :: arguments))
    (hline : ∀ command ∈ commands, '\n' ∉ command.toList) :
    (commands.flatMap fun command => CommandFile.texts command.toList) = commands := by
  have hsingle : ∀ command ∈ commands, CommandFile.texts command.toList = [command] := by
    intro command hcommand
    obtain ⟨keyword, arguments, hkeyword, rfl⟩ := hwritten command hcommand
    exact CommandFile.texts_of_line hkeyword (hline _ hcommand)
  rw [List.flatMap_congr hsingle, List.flatMap_singleton']

/-- A printed profile is read again exactly if there is no line break in a command and no command in a later line
of the name. -/
theorem read_dump_iff (hset : set.Reached) (client : Option Address) {files : Files} {path : String}
    (hfile : files path = .ok (dump set client).text) :
    (CommandFile.read files path).map (fun lines => lines.map NumberedCommand.command) =
        .ok (set.forClient client).commands ↔
      (∀ command ∈ (set.forClient client).commands, '\n' ∉ command.toList) ∧
        ∀ line ∈ (splitOn '\n' (set.nameFor client).toList).tail, CommandFile.isPassedOver (trim line) = true := by
  have hsound : (set.forClient client).ledger.Sound := hset.sound.forClient client
  have hwritten : ∀ command ∈ (set.forClient client).commands,
      ∃ keyword arguments, (keyword = "url" ∨ keyword = "domain") ∧ command = line (keyword :: arguments) :=
    fun command => Profile.exists_line_of_mem_commands hsound
  have hread : (CommandFile.read files path).map (fun lines => lines.map NumberedCommand.command) =
      .ok (CommandFile.texts (dump set client).text.toList) := by
    rw [CommandFile.texts, CommandFile.textsOf, ← CommandFile.map_command_commands]
    simp only [CommandFile.read, hfile, Except.map, Except.mapError]
  rw [hread, Except.ok.injEq, ← CommandFile.textsOf_eq_nil_iff]
  constructor
  · intro h
    have hline : ∀ command ∈ (set.forClient client).commands, '\n' ∉ command.toList := by
      intro command hcommand
      rw [← h] at hcommand
      exact CommandFile.newline_not_mem_of_mem_texts hcommand
    refine ⟨hline, ?_⟩
    rw [texts_dump, flatMap_texts hwritten hline] at h
    exact List.append_left_eq_self.mp h
  · rintro ⟨hline, hname⟩
    rw [texts_dump, flatMap_texts hwritten hline, hname, List.nil_append]

private def plugged (value : TextValue .plugin) : UrlRule :=
  { slots := { plugin := some value }, target := some ⟨"g.cn", some .host, "", []⟩ }

private theorem read_plugged (value : TextValue .plugin) :
    Registry.standard.read (line ["url", "plugin", value.value, "g.cn"]) = .ok (.url (plugged value)) := by
  have hplain : ∀ word ∈ ["url", "plugin", value.value, "g.cn"], Plain word := by
    simp only [List.forall_mem_cons]
    exact ⟨by decide, by decide, Policy.plain_text value, by decide, List.forall_mem_nil _⟩
  have hplugin : Registry.standard.Builds ["plugin", value.value, "g.cn"] (.text .plugin value) ["g.cn"] :=
    (Registry.builds_leaf (Policy.builder?_text .plugin)).mpr
      (Leaf.reads_text.mpr ⟨_, _, rfl, Policy.read_text value, rfl⟩)
  exact UrlRule.read_part_target (words_line hplain) (by decide) hplugin rfl (by decide) (by decide)

private def pluggedSet (value : TextValue .plugin) : ProfileSet :=
  { default := { urls := [⟨plugged value, []⟩] } }

private theorem reached_pluggedSet (value : TextValue .plugin) : (pluggedSet value).Reached := by
  have happly : ({} : Profile).apply .standard .inOrder (line ["url", "plugin", value.value, "g.cn"]) =
      .ok { urls := [⟨plugged value, []⟩] } := Profile.apply_eq_ok_iff.mpr ⟨_, read_plugged value, rfl⟩
  have hget : ({} : ProfileSet).get? ProfileSet.defaultName = some {} := rfl
  exact ProfileSet.Reached.fresh.apply hget happly

/-- A plugin whose name has a blank in it is read again. -/
theorem read_dump_blank :
    ∃ set : ProfileSet, set.Reached ∧ (dump set none).lines = ["# profile default", "url plugin \"a b\" g.cn"] ∧
      (CommandFile.read (fun _ => .ok (dump set none).text) "dump.txt").map
        (fun lines => lines.map NumberedCommand.command) = .ok ["url plugin \"a b\" g.cn"] := by
  let set := pluggedSet ⟨"a b", by decide +kernel⟩
  have hset : set.Reached := reached_pluggedSet _
  have hcommands : (set.forClient none).commands = ["url plugin \"a b\" g.cn"] := by decide +kernel
  have hline : ∀ command ∈ (set.forClient none).commands, '\n' ∉ command.toList := by
    rw [hcommands]
    decide
  refine ⟨set, hset, by decide +kernel, ?_⟩
  rw [← hcommands]
  exact (read_dump_iff hset none rfl).mpr ⟨hline, by decide +kernel⟩

/-- A plugin whose name has a line break in it is printed in two lines, and neither is the command. -/
theorem not_read_dump_newline :
    ¬∀ (set : ProfileSet) (client : Option Address) (files : Files) (path : String), set.Reached →
      files path = .ok (dump set client).text →
      (CommandFile.read files path).map (fun lines => lines.map NumberedCommand.command) =
        .ok (set.forClient client).commands := by
  intro h
  let set := pluggedSet ⟨"a\nb", by decide +kernel⟩
  have hread := h set none (fun _ => .ok (dump set none).text) "dump.txt" (reached_pluggedSet _) rfl
  exact absurd hread (by decide +kernel)

end Report

end TrafficPolicy
