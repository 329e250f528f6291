import TrafficPolicy.Proofs.Profile.Ledger
import TrafficPolicy.Proofs.Tool.Loading
import TrafficPolicy.Tool.Setup

/-!
# What is asked of a profile

A command is refused or not whatever profile it is applied to. Setting a profile up is a sequence of items, commands and
files that cannot be read. It ends with the first item that fails, and the commands of items that do not fail are a
history of the profile.
-/

namespace TrafficPolicy

/-! ## The first refusal -/

private theorem findSome?_cons_eq_or {α β : Type} (f : α → Option β) (a : α) (items : List α) :
    (a :: items).findSome? f = (f a).or (items.findSome? f) := by
  rw [List.findSome?_cons]
  cases f a <;> rfl

private theorem findSome?_flatMap {α β γ : Type} (f : β → Option γ) (g : α → List β) (items : List α) :
    (items.flatMap g).findSome? f = items.findSome? fun a => (g a).findSome? f := by
  induction items with
  | nil => rfl
  | cons a items ih => rw [List.flatMap_cons, List.findSome?_append, ih, findSome?_cons_eq_or]

/-- A step has come to an end, or it has been refused. -/
inductive Settles {ε σ : Type} : Except ε σ → Option ε → Prop
  | ok (s : σ) : Settles (.ok s) none
  | error (e : ε) : Settles (.error e) (some e)

namespace Settles

variable {ε ε' σ τ α : Type} {result : Except ε σ} {refusal : Option ε} {e : ε}

theorem eq_error_iff (h : Settles result refusal) : result = .error e ↔ refusal = some e := by
  cases h with
  | ok s => exact ⟨nofun, nofun⟩
  | error e' => rw [Except.error.injEq, Option.some.injEq]

theorem mapError (h : Settles result refusal) (f : ε → ε') : Settles (result.mapError f) (refusal.map f) := by
  cases h with
  | ok s => exact .ok s
  | error e => exact .error (f e)

theorem bind {next : σ → Except ε τ} {later : Option ε} (h : Settles result refusal)
    (hnext : ∀ s, Settles (next s) later) : Settles (result >>= next) (refusal.or later) := by
  cases h with
  | ok s => exact hnext s
  | error e => exact .error e

/-- Steps that are refused in any state or in none are refused one after the other up to the first. -/
theorem foldlM {step : σ → α → Except ε σ} {refusal? : α → Option ε} (h : ∀ s a, Settles (step s a) (refusal? a))
    (items : List α) (s : σ) : Settles (items.foldlM step s) (items.findSome? refusal?) := by
  induction items generalizing s with
  | nil => exact .ok s
  | cons a items ih =>
    rw [List.foldlM_cons, findSome?_cons_eq_or]
    exact (h s a).bind ih

theorem foldlM_flatMap {β : Type} {step : σ → α → Except ε σ} {refusal? : β → Option ε} {parts : α → List β}
    (h : ∀ s a, Settles (step s a) ((parts a).findSome? refusal?)) (items : List α) (s : σ) :
    Settles (items.foldlM step s) ((items.flatMap parts).findSome? refusal?) := by
  rw [findSome?_flatMap]
  exact foldlM h items s

end Settles

def Policy.refusal? : Policy → Option CommandError
  | .url _ | .remove _ | .delete _ | .domain _ => none
  | other => some (.notApplicable other.command)

def Registry.refusal? (registry : Registry) (command : String) : Option CommandError :=
  match registry.read command with
  | .ok policy => policy.refusal?
  | .error e => some e

/-- A command is refused by all profiles or by none. -/
theorem Profile.settles_apply (p : Profile) (registry : Registry) (shuffler : Shuffler) (command : String) :
    Settles (p.apply registry shuffler command) (registry.refusal? command) := by
  unfold apply Registry.refusal?
  cases registry.read command with
  | error e => exact .error e
  | ok policy =>
    change Settles (p.applyPolicy shuffler policy) policy.refusal?
    cases policy <;> first | exact .ok _ | exact .error _

/-! ## What is asked of one profile -/

/-- A step in setting up a profile. -/
inductive Item where
  /-- Applies a command; it is said how its error is reported. -/
  | command (text : String) (report : CommandError → Failure)
  /-- Opens a file that cannot be read. -/
  | unreadable (fault : FileFault)

namespace Item

def ofFile (files : Files) (path : String) : List Item :=
  match files path with
  | .error fault => [.unreadable fault]
  | .ok text => (CommandFile.commands text).map fun line => .command line.command (.line path line.number)

def command? : Item → Option String
  | .command text _ => some text
  | .unreadable _ => none

def failure? (registry : Registry) : Item → Option Failure
  | .command text report => (registry.refusal? text).map report
  | .unreadable fault => some (.file fault)

def run (registry : Registry) (shuffler : Shuffler) (p : Profile) : Item → Except Failure Profile
  | .command text report => (p.apply registry shuffler text).mapError report
  | .unreadable fault => .error (.file fault)

variable {registry : Registry} {shuffler : Shuffler} {files : Files} {p q : Profile} {path : String}

theorem settles_run (p : Profile) (item : Item) : Settles (run registry shuffler p item) (failure? registry item) := by
  cases item with
  | command text report => exact (p.settles_apply registry shuffler text).mapError report
  | unreadable fault => exact .error _

/-- The commands of items that do not fail are a history. -/
theorem follow_of_foldlM {items : List Item} (h : items.foldlM (run registry shuffler) p = .ok q) :
    p.follow registry ((items.filterMap command?).map fun command => (shuffler, command)) = .ok q := by
  induction items generalizing p with
  | nil =>
    obtain rfl := Except.ok.inj h
    rfl
  | cons item items ih =>
    rw [List.foldlM_cons] at h
    cases item with
    | unreadable fault => cases h
    | command text report =>
      cases happly : p.apply registry shuffler text with
      | error e =>
        rw [run, happly] at h
        cases h
      | ok next =>
        rw [run, happly] at h
        exact Profile.follow_cons_eq_ok_iff.mpr ⟨next, happly, ih h⟩

theorem foldlM_lines (lines : List NumberedCommand) (p : Profile) :
    ((p.applyLines registry shuffler path lines).1.map fun _ => (p.applyLines registry shuffler path lines).2) =
      (lines.map fun line => command line.command (.line path line.number)).foldlM (run registry shuffler) p := by
  induction lines generalizing p with
  | nil => rfl
  | cons line lines ih =>
    rw [List.map_cons, List.foldlM_cons, run, Profile.applyLines]
    cases p.apply registry shuffler line.command with
    | error e => rfl
    | ok next => exact ih next

theorem foldlM_ofFile (p : Profile) :
    ((p.load registry shuffler files path).1.map fun _ => (p.load registry shuffler files path).2) =
      (ofFile files path).foldlM (run registry shuffler) p := by
  unfold Profile.load CommandFile.read ofFile
  cases files path with
  | error fault => rfl
  | ok text => exact foldlM_lines _ p

end Item

/-- What an entry asks for: its commands, and then what is in its files. -/
def ProfileConfig.items (entry : ProfileConfig) (files : Files) (base : String) : List Item :=
  entry.commands.map (fun command => .command command .command) ++
    entry.files.flatMap fun file => Item.ofFile files (joinPath base file)

namespace Profile

variable {registry : Registry} {shuffler : Shuffler} {files : Files} {base : String}

theorem applyAll_eq_foldlM (p : Profile) (commands : List String) : p.applyAll registry shuffler commands =
    (commands.map fun command => Item.command command .command).foldlM (Item.run registry shuffler) p := by
  induction commands generalizing p with
  | nil => rfl
  | cons command commands ih =>
    rw [applyAll, List.foldlM_cons, List.map_cons, List.foldlM_cons, Item.run]
    cases p.apply registry shuffler command with
    | error e => rfl
    | ok next => exact ih next

theorem loadAll_eq_foldlM (p : Profile) (paths : List String) : p.loadAll registry shuffler files paths =
    (paths.flatMap (Item.ofFile files)).foldlM (Item.run registry shuffler) p := by
  induction paths generalizing p with
  | nil => rfl
  | cons path paths ih =>
    rw [loadAll, List.foldlM_cons, List.flatMap_cons, List.foldlM_append, ← Item.foldlM_ofFile]
    refine bind_congr fun next => ?_
    exact ih next

/-- A profile is set up item by item. -/
theorem foldlM_items (p : Profile) (entry : ProfileConfig) :
    (p.applyAll registry shuffler entry.commands >>= fun p =>
      p.loadAll registry shuffler files (entry.files.map (joinPath base))) =
      (entry.items files base).foldlM (Item.run registry shuffler) p := by
  rw [ProfileConfig.items, List.foldlM_append, ← applyAll_eq_foldlM]
  refine bind_congr fun next => ?_
  rw [loadAll_eq_foldlM, List.flatMap_map]

end Profile

namespace Profile

/-- Profiles that write the same commands and in which policies with the same commands count for every url and every
domain. -/
structure Interchangeable (p q : Profile) : Prop where
  commands : p.commands = q.commands
  urls : ∀ url, (p.resolveUrl url).map (fun policy => policy.rule.command) =
    (q.resolveUrl url).map fun policy => policy.rule.command
  domains : ∀ domain, (p.resolveDomain domain).map (fun policy => policy.rule.command) =
    (q.resolveDomain domain).map fun policy => policy.rule.command

variable {registry : Registry} {p q : Profile} {history history' : History}

theorem interchangeable_of_ledger (h : p.ledger = q.ledger) : p.Interchangeable q where
  commands := by rw [← commands_ledger, h, commands_ledger]
  urls url := by rw [urlCommand?_ledger, h, urlCommand?_ledger]
  domains domain := by rw [domainCommand?_ledger, h, domainCommand?_ledger]

/-- By which shufflers the addresses are put into order makes no difference to the commands. -/
theorem exists_interchangeable (h : p.follow registry history = .ok q)
    (hcommands : history'.map Prod.snd = history.map Prod.snd) :
    ∃ q', p.follow registry history' = .ok q' ∧ q.Interchangeable q' := by
  obtain ⟨policies, hreads, hrun⟩ := exists_follow_iff.mp ⟨q, h, rfl⟩
  rw [← hcommands] at hreads
  obtain ⟨q', hq', hledger⟩ := exists_follow_iff.mpr ⟨policies, hreads, hrun⟩
  exact ⟨q', hq', interchangeable_of_ledger hledger.symm⟩

end Profile

end TrafficPolicy
