import TrafficPolicy.Proofs.Text.Utf8
import TrafficPolicy.Proofs.Tool.Items
import TrafficPolicy.Proofs.Tool.Sessions

/-!
# What a configuration sets up

Setting profiles up ends with the first item that fails, in the order of the entries, and each profile is what its own
entry makes of an empty one. A client that is listed more than once is served by the last profile that lists it.
-/

namespace TrafficPolicy

/-! ## One entry -/

namespace ProfileSet

variable {registry : Registry} {shuffler : Shuffler} {files : Files} {base name : String} {entry : ProfileConfig}
  {set next : ProfileSet} {p : Profile}

/-- What has been set up: the profile of one name, to which the clients in a list are bound, and nothing else. -/
structure Configured (set next : ProfileSet) (name : String) (p : Profile) (clients : List Address) : Prop where
  get?_eq : ∀ other, next.get? other = if other = name then some p else set.get? other
  lookup_eq : ∀ client, next.clients.lookup client = if client ∈ clients then some name else set.clients.lookup client

/-- Profiles can be bound to a name that is there. -/
theorem exists_bound (hname : set.get? name = some p) (clients : List Address) :
    ∃ next, clients.foldlM (fun (set : ProfileSet) client => set.bind client name) set = .ok next ∧
      Configured set next name p clients := by
  induction clients generalizing set with
  | nil =>
    refine ⟨set, rfl, fun other => ?_, fun client => (if_neg List.not_mem_nil).symm⟩
    split
    · rename_i heq
      rw [heq, hname]
    · rfl
  | cons client clients ih =>
    have hsome : (set.get? name).isSome := by rw [hname]; rfl
    let bound : ProfileSet :=
      { set with clients := (client, name) :: set.clients.filter fun entry => entry.1 != client }
    have hbound : bound.get? name = some p := hname
    obtain ⟨next, hnext, hconfigured⟩ := ih hbound
    refine ⟨next, ?_, hconfigured.get?_eq, fun other => ?_⟩
    · rw [List.foldlM_cons, bind, bind?_eq_some hsome]
      exact hnext
    · rw [hconfigured.lookup_eq, show bound.clients = _ from rfl, lookup_cons_filter]
      by_cases hother : other = client
      · simp [hother]
      · simp [hother]

/-- An entry fails with its first item that fails, and otherwise its profile is what the items make of the one that was
there. -/
theorem configure_spec (set : ProfileSet) (name : String) (entry : ProfileConfig) :
    Settles (set.configure registry shuffler files base name entry)
        ((entry.items files base).findSome? (Item.failure? registry)) ∧
      ∀ next, set.configure registry shuffler files base name entry = .ok next → ∃ p,
        (entry.items files base).foldlM (Item.run registry shuffler) ((set.get? name).getD {}) = .ok p ∧
          Configured set next name p entry.clients := by
  have hstart : ((set.create name).get? name).getD {} = (set.get? name).getD {} := by
    rw [get?_create, if_pos rfl]
    cases set.get? name <;> rfl
  have hconfigure : set.configure registry shuffler files base name entry =
      (entry.items files base).foldlM (Item.run registry shuffler) ((set.get? name).getD {}) >>= fun p =>
        entry.clients.foldlM (fun (set : ProfileSet) client => set.bind client name)
          ((set.create name).put name p) := by
    rw [← Profile.foldlM_items, ← hstart, bind_assoc]
    rfl
  have hput : ∀ p, ((set.create name).put name p).get? name = some p := by
    intro p
    rw [get?_put, if_pos rfl, get?_create, if_pos rfl]
    cases set.get? name <;> rfl
  have hrun : ∀ p item, Settles (Item.run registry shuffler p item) (Item.failure? registry item) := Item.settles_run
  have hitems := Settles.foldlM hrun (entry.items files base) ((set.get? name).getD {})
  rw [hconfigure]
  refine ⟨?_, fun next hnext => ?_⟩
  · rw [← @Option.or_none _ ((entry.items files base).findSome? _)]
    refine hitems.bind fun p => ?_
    obtain ⟨next, hnext, -⟩ := exists_bound (hput p) entry.clients
    rw [hnext]
    exact .ok next
  · cases hp : (entry.items files base).foldlM (Item.run registry shuffler) ((set.get? name).getD {}) with
    | error e =>
      rw [hp] at hnext
      cases hnext
    | ok p =>
      obtain ⟨bound, hbound, hconfigured⟩ := exists_bound (hput p) entry.clients
      rw [hp] at hnext
      obtain rfl := Except.ok.inj (hbound.symm.trans hnext)
      refine ⟨p, rfl, fun other => ?_, fun client => ?_⟩
      · rw [hconfigured.get?_eq]
        by_cases hother : other = name
        · rw [if_pos hother, if_pos hother]
        · rw [if_neg hother, if_neg hother, get?_put, if_neg hother, get?_create, if_neg hother, Option.or_none]
      · rw [hconfigured.lookup_eq, clients_put, clients_create]

/-! ## All entries -/

def configureAll (set : ProfileSet) (registry : Registry) (shuffler : Shuffler) (files : Files) (base : String)
    (entries : List (String × ProfileConfig)) : Except Failure ProfileSet :=
  entries.foldlM (fun (set : ProfileSet) entry => set.configure registry shuffler files base entry.1 entry.2) set

variable {entries before after : List (String × ProfileConfig)} {client : Address}

theorem settles_configureAll (set : ProfileSet) (entries : List (String × ProfileConfig)) :
    Settles (set.configureAll registry shuffler files base entries)
      ((entries.flatMap fun entry => entry.2.items files base).findSome? (Item.failure? registry)) := by
  have hstep : ∀ (set : ProfileSet) (entry : String × ProfileConfig),
      Settles (set.configure registry shuffler files base entry.1 entry.2)
        ((entry.2.items files base).findSome? (Item.failure? registry)) :=
    fun set entry => (configure_spec set entry.1 entry.2).1
  exact Settles.foldlM_flatMap hstep entries set

theorem configureAll_cons_eq_ok_iff {entry : String × ProfileConfig} :
    set.configureAll registry shuffler files base (entry :: entries) = .ok next ↔
      ∃ mid, set.configure registry shuffler files base entry.1 entry.2 = .ok mid ∧
        mid.configureAll registry shuffler files base entries = .ok next := by
  rw [configureAll, List.foldlM_cons]
  cases set.configure registry shuffler files base entry.1 entry.2 with
  | error e => exact ⟨nofun, fun ⟨_, h, _⟩ => nomatch h⟩
  | ok mid => exact ⟨fun h => ⟨mid, rfl, h⟩, fun ⟨_, h, hnext⟩ => by cases h; exact hnext⟩

theorem configureAll_append_eq_ok_iff : set.configureAll registry shuffler files base (before ++ after) = .ok next ↔
      ∃ mid, set.configureAll registry shuffler files base before = .ok mid ∧
        mid.configureAll registry shuffler files base after = .ok next := by
  induction before generalizing set with
  | nil => exact ⟨fun h => ⟨set, rfl, h⟩, fun ⟨_, h, hnext⟩ => by cases h; exact hnext⟩
  | cons entry before ih =>
    simp only [List.cons_append, configureAll_cons_eq_ok_iff, ih]
    exact ⟨fun ⟨mid, hmid, last, hlast, hnext⟩ => ⟨last, ⟨mid, hmid, hlast⟩, hnext⟩,
      fun ⟨last, ⟨mid, hmid, hlast⟩, hnext⟩ => ⟨mid, hmid, last, hlast, hnext⟩⟩

/-- A profile stays as it is while no entry has its name, and so does the binding of a client while no entry lists
it. -/
theorem kept_of_configureAll (h : set.configureAll registry shuffler files base entries = .ok next) :
    (∀ name, (∀ entry ∈ entries, entry.1 ≠ name) → next.get? name = set.get? name) ∧
      ∀ client, (∀ entry ∈ entries, client ∉ entry.2.clients) →
        next.clients.lookup client = set.clients.lookup client := by
  induction entries generalizing set with
  | nil =>
    obtain rfl := Except.ok.inj h
    exact ⟨fun _ _ => rfl, fun _ _ => rfl⟩
  | cons entry entries ih =>
    obtain ⟨mid, hmid, hnext⟩ := configureAll_cons_eq_ok_iff.mp h
    obtain ⟨p, -, hconfigured⟩ := (configure_spec set entry.1 entry.2).2 mid hmid
    obtain ⟨hget, hlookup⟩ := ih hnext
    refine ⟨fun name hname => ?_, fun client hclient => ?_⟩
    · rw [List.forall_mem_cons] at hname
      rw [hget name hname.2, hconfigured.get?_eq, if_neg (Ne.symm hname.1)]
    · rw [List.forall_mem_cons] at hclient
      rw [hlookup client hclient.2, hconfigured.lookup_eq, if_neg hclient.1]

/-- The profile of an entry whose name no other has is what its items make of the one that was there before, and serves
the clients that no later entry lists. -/
theorem configured_of_configureAll
    (h : set.configureAll registry shuffler files base (before ++ (name, entry) :: after) = .ok next)
    (hbefore : ∀ other ∈ before, other.1 ≠ name) (hafter : ∀ other ∈ after, other.1 ≠ name) :
    ∃ p, (entry.items files base).foldlM (Item.run registry shuffler) ((set.get? name).getD {}) = .ok p ∧
      next.get? name = some p ∧
      ∀ client ∈ entry.clients, (∀ other ∈ after, client ∉ other.2.clients) →
        next.clients.lookup client = some name := by
  obtain ⟨mid, hmid, hrest⟩ := configureAll_append_eq_ok_iff.mp h
  obtain ⟨mid', hmid', hnext⟩ := configureAll_cons_eq_ok_iff.mp hrest
  obtain ⟨p, hp, hconfigured⟩ := (configure_spec mid name entry).2 mid' hmid'
  obtain ⟨hget, hlookup⟩ := kept_of_configureAll hnext
  rw [(kept_of_configureAll hmid).1 name hbefore] at hp
  refine ⟨p, hp, ?_, fun client hclient hlater => ?_⟩
  · rw [hget name hafter, hconfigured.get?_eq, if_pos rfl]
  · rw [hlookup client hlater, hconfigured.lookup_eq, if_pos hclient]

end ProfileSet

/-! ## Configurations -/

namespace Config

/-- The order of names by their bytes. -/
def Precedes (a b : String) : Prop := Text.utf8 a.toList < Text.utf8 b.toList

theorem not_precedes_self (name : String) : ¬Precedes name name := List.lt_irrefl _

/-- The last of the names whose entries list a client. -/
structure LastListing (config : Config) (client : Address) (name : String) : Prop where
  listed : ∃ entry, (name, entry) ∈ config.profiles.entries ∧ client ∈ entry.clients
  last : ∀ entry ∈ config.profiles.entries, client ∈ entry.2.clients → entry.1 = name ∨ Precedes entry.1 name

variable {config : Config} {before after : List (String × ProfileConfig)} {entry : String × ProfileConfig}

theorem precedes_of_lt {a b : String} (h : a < b) : Precedes a b :=
  Text.utf8_lt_utf8 h

/-- The names before an entry precede its name, and no other entry has its name. -/
theorem names_around (hsplit : config.profiles.entries = before ++ entry :: after) :
    (∀ other ∈ before, Precedes other.1 entry.1) ∧ (∀ other ∈ before, other.1 ≠ entry.1) ∧
      ∀ other ∈ after, other.1 ≠ entry.1 := by
  have hordered := config.profiles.ordered
  rw [hsplit, List.pairwise_append, List.pairwise_cons] at hordered
  obtain ⟨-, ⟨hafter, -⟩, hbefore⟩ := hordered
  have hfront : ∀ other ∈ before, other.1 < entry.1 :=
    fun other hother => hbefore other hother entry List.mem_cons_self
  refine ⟨fun other hother => precedes_of_lt (hfront other hother), fun other hother heq => ?_,
    fun other hother heq => ?_⟩
  · exact String.lt_irrefl _ (heq ▸ hfront other hother)
  · exact String.lt_irrefl _ (heq ▸ hafter other hother)

end Config

/-- Some member of a list is the last of which something holds, or it holds of none. -/
private theorem exists_last_or_forall_not {α : Type} (P : α → Prop) (items : List α) :
    (∃ before item after, items = before ++ item :: after ∧ P item ∧ ∀ other ∈ after, ¬P other) ∨
      ∀ item ∈ items, ¬P item := by
  induction items with
  | nil => exact .inr (List.forall_mem_nil _)
  | cons first items ih =>
    rcases ih with ⟨before, item, after, rfl, hitem, hafter⟩ | hnone
    · exact .inl ⟨first :: before, item, after, rfl, hitem, hafter⟩
    · by_cases hfirst : P first
      · exact .inl ⟨[], first, items, rfl, hfirst, hnone⟩
      · exact .inr (List.forall_mem_cons.mpr ⟨hfirst, hnone⟩)

namespace Setup

variable {registry : Registry} {shuffler : Shuffler} {files : Files} {base : String} {config : Config} {setup : Setup}

theorem settles_ofConfig (registry : Registry) (shuffler : Shuffler) (files : Files) (base : String) (config : Config) :
    Settles (ofConfig registry shuffler files base config)
      ((config.profiles.entries.flatMap fun entry => entry.2.items files base).findSome? (Item.failure? registry)) := by
  have hall : Settles (({} : ProfileSet).configureAll registry shuffler files base config.profiles.entries) _ :=
    ProfileSet.settles_configureAll {} config.profiles.entries
  rw [← @Option.or_none _ (List.findSome? _ _)]
  exact hall.bind fun profiles => .ok _

theorem configureAll_of_ofConfig (h : ofConfig registry shuffler files base config = .ok setup) :
    ({} : ProfileSet).configureAll registry shuffler files base config.profiles.entries = .ok setup.profiles := by
  change ({} : ProfileSet).configureAll registry shuffler files base config.profiles.entries >>= _ = _ at h
  cases hall : ({} : ProfileSet).configureAll registry shuffler files base config.profiles.entries with
  | error e =>
    rw [hall] at h
    cases h
  | ok profiles =>
    rw [hall] at h
    obtain rfl := Except.ok.inj h
    rfl

theorem get?_start (name : String) :
    ({} : ProfileSet).get? name = if name = ProfileSet.defaultName then some {} else none := rfl

/-- The profile of an entry is what its items make of an empty one. -/
theorem profile_of_entry (hsetup : ofConfig registry shuffler files base config = .ok setup)
    {entry : String × ProfileConfig} (hentry : entry ∈ config.profiles.entries) :
    ∃ p, setup.profiles.get? entry.1 = some p ∧
      ({} : Profile).follow registry
        (((entry.2.items files base).filterMap Item.command?).map fun command => (shuffler, command)) = .ok p := by
  have hall := configureAll_of_ofConfig hsetup
  obtain ⟨before, after, hsplit⟩ := List.append_of_mem hentry
  obtain ⟨-, hbefore, hafter⟩ := Config.names_around hsplit
  rw [hsplit] at hall
  obtain ⟨p, hp, hget, -⟩ := ProfileSet.configured_of_configureAll hall hbefore hafter
  have hstart : (({} : ProfileSet).get? entry.1).getD {} = {} := by
    rw [get?_start]
    split <;> rfl
  rw [hstart] at hp
  exact ⟨p, hget, Item.follow_of_foldlM hp⟩

/-- A client is served by the profile of the last entry that lists it, and by the default if there is none. -/
theorem served_by_last (hsetup : ofConfig registry shuffler files base config = .ok setup) (client : Address) :
    (∃ name, config.LastListing client name ∧
      setup.profiles.get? name = some (setup.profiles.forClient (some client))) ∨
    ((∀ entry ∈ config.profiles.entries, client ∉ entry.2.clients) ∧
      setup.profiles.forClient (some client) = setup.profiles.default) := by
  have hall := configureAll_of_ofConfig hsetup
  have hserved := ProfileSet.get?_nameFor setup.profiles (some client)
  rw [ProfileSet.nameFor_eq, Option.bind_some] at hserved
  rcases exists_last_or_forall_not (fun entry : String × ProfileConfig => client ∈ entry.2.clients) config.profiles.entries
    with ⟨before, entry, after, hsplit, hlists, hnot⟩ | hnot
  · obtain ⟨hprecedes, hbefore, hafter⟩ := Config.names_around hsplit
    rw [hsplit] at hall
    obtain ⟨p, -, hget, hbound⟩ := ProfileSet.configured_of_configureAll hall hbefore hafter
    rw [hbound client hlists hnot, Option.filter_some, hget, Option.isSome_some, if_pos rfl] at hserved
    refine .inl ⟨entry.1, ⟨⟨entry.2, ?_, hlists⟩, fun other hother hclient => ?_⟩, hserved⟩
    · rw [hsplit]
      exact List.mem_append_right _ List.mem_cons_self
    · rw [hsplit, List.mem_append, List.mem_cons] at hother
      rcases hother with hother | rfl | hother
      · exact .inr (hprecedes other hother)
      · exact .inl rfl
      · exact absurd hclient (hnot other hother)
  · rw [(ProfileSet.kept_of_configureAll hall).2 client hnot] at hserved
    exact .inr ⟨hnot, (Option.some.inj hserved).symm⟩

/-- A configuration is set up entry by entry. The profile of each name is, apart from the order of addresses, what the
commands of its entry and then those in its files make of an empty one, and no other profile is made. A client is
served by the profile of the last name whose entry lists it, and by the default if there is none. Setting up fails
exactly if some item does, and then with the first one that does, entry after entry, the commands before the files. -/
theorem ofConfig_by_entries (registry : Registry) (shuffler : Shuffler) (files : Files) (base : String)
    (config : Config) :
    (∀ setup, ofConfig registry shuffler files base config = .ok setup →
      (∀ entry ∈ config.profiles.entries, ∃ p, setup.profiles.get? entry.1 = some p ∧
        ∀ history : History, history.map Prod.snd = (entry.2.items files base).filterMap Item.command? →
          ∃ fresh, ({} : Profile).follow registry history = .ok fresh ∧ p.Interchangeable fresh) ∧
      (∀ name, (∀ entry ∈ config.profiles.entries, entry.1 ≠ name) →
        setup.profiles.get? name = if name = ProfileSet.defaultName then some {} else none) ∧
      ∀ client,
        (∃ name, config.LastListing client name ∧
          setup.profiles.get? name = some (setup.profiles.forClient (some client))) ∨
        ((∀ entry ∈ config.profiles.entries, client ∉ entry.2.clients) ∧
          setup.profiles.forClient (some client) = setup.profiles.default)) ∧
      ∀ failure, ofConfig registry shuffler files base config = .error failure ↔
        ∃ before item after, (config.profiles.entries.flatMap fun entry => entry.2.items files base) = before ++ item :: after ∧
          item.failure? registry = some failure ∧ ∀ earlier ∈ before, earlier.failure? registry = none := by
  refine ⟨fun setup hsetup => ⟨fun entry hentry => ?_, fun name hname => ?_, served_by_last hsetup⟩,
    fun failure => ?_⟩
  · obtain ⟨p, hget, hfollow⟩ := profile_of_entry hsetup hentry
    refine ⟨p, hget, fun history hhistory => Profile.exists_interchangeable hfollow ?_⟩
    rw [hhistory, List.map_map]
    exact (List.map_id _).symm
  · rw [(ProfileSet.kept_of_configureAll (configureAll_of_ofConfig hsetup)).1 name hname, get?_start]
  · rw [(settles_ofConfig registry shuffler files base config).eq_error_iff, List.findSome?_eq_some_iff]

/-- A client that two entries list is served by the profile of the second one, the commands of which are in a file. -/
theorem ofConfig_by_entries_listed_twice :
    let client : Address := .octets #v[10, 0, 0, 2]
    let files : Files := fun _ => .ok "# note\nurl cache"
    let config : Config :=
      { profiles := ⟨[("a", { clients := [client] }), ("b", { files := ["b.txt"], clients := [client] })], by decide⟩ }
    ∃ setup, ofConfig .standard .inOrder files "conf" config = .ok setup ∧
      (setup.profiles.forClient (some client)).commands = ["url cache"] := by
  intro client files config
  have hwords : Text.words "url cache" = ["url", "cache"] := by decide
  have hcache : Registry.standard.builder? "cache" = some (.leaf (.marker .cache)) :=
    Registry.builder?_standard_iff.mpr (.marker .cache)
  have hread : Registry.standard.read "url cache" = .ok (.url { slots := { content := some .cache } }) :=
    UrlRule.read_part hwords (by decide) ((Registry.builds_leaf hcache).mpr ⟨rfl, rfl⟩) rfl
  have hlines : CommandFile.commands "# note\nurl cache" = [⟨2, "url cache"⟩] := by decide
  have hitems : ({ files := ["b.txt"], clients := [client] } : ProfileConfig).items files "conf" =
      [.command "url cache" (.line (joinPath "conf" "b.txt") 2)] := by
    simp only [ProfileConfig.items, List.map_nil, List.nil_append, List.flatMap_cons, List.flatMap_nil,
      List.append_nil, Item.ofFile, files, hlines, List.map_cons]
  have hsecond : ("b", { files := ["b.txt"], clients := [client] }) ∈ config.profiles.entries :=
    List.mem_cons_of_mem _ List.mem_cons_self
  obtain ⟨hserves, hfails⟩ := ofConfig_by_entries .standard .inOrder files "conf" config
  cases hsetup : ofConfig .standard .inOrder files "conf" config with
  | error failure =>
    obtain ⟨before, item, after, hsplit, hitem, -⟩ := (hfails failure).mp hsetup
    have hmem : item ∈ config.profiles.entries.flatMap fun entry => entry.2.items files "conf" := by
      rw [hsplit]
      exact List.mem_append_right _ List.mem_cons_self
    rw [List.flatMap_cons, List.flatMap_cons, hitems] at hmem
    obtain rfl : item = .command "url cache" (.line (joinPath "conf" "b.txt") 2) := List.mem_singleton.mp hmem
    simp only [Item.failure?, Registry.refusal?, hread] at hitem
    cases hitem
  | ok setup =>
    refine ⟨setup, rfl, ?_⟩
    obtain ⟨hprofiles, -, hclients⟩ := hserves setup hsetup
    obtain ⟨p, hp, hhistory⟩ := hprofiles _ hsecond
    rw [hitems] at hhistory
    obtain ⟨fresh, hfresh, hsame⟩ := hhistory [(.inOrder, "url cache")] rfl
    have happly : ({} : Profile).follow .standard [(.inOrder, "url cache")] =
        .ok (Profile.applyUrl {} { slots := { content := some .cache } }) :=
      Profile.follow_cons_eq_ok_iff.mpr ⟨_, Profile.apply_eq_ok_iff.mpr ⟨_, hread, rfl⟩, rfl⟩
    obtain rfl := Except.ok.inj (happly.symm.trans hfresh)
    have hcommands : p.commands = ["url cache"] := hsame.commands.trans (by decide)
    rcases hclients client with ⟨name, hlast, hserved⟩ | ⟨hnot, -⟩
    · obtain rfl : "b" = name := by
        refine (hlast.last _ hsecond List.mem_cons_self).resolve_right fun hprecedes => ?_
        obtain ⟨entry, hentry, -⟩ := hlast.listed
        rcases List.mem_pair.mp hentry with heq | heq
        · obtain ⟨rfl, -⟩ := Prod.mk.inj heq
          exact absurd hprecedes (by unfold Config.Precedes; decide)
        · obtain ⟨rfl, -⟩ := Prod.mk.inj heq
          exact Config.not_precedes_self _ hprecedes
      rw [← Option.some.inj (hp.symm.trans hserved), hcommands]
    · exact absurd List.mem_cons_self (hnot _ hsecond)

end Setup

end TrafficPolicy
