import TrafficPolicy.Proofs.Grammar.DomainRule
import TrafficPolicy.Proofs.Grammar.Standard
import TrafficPolicy.Proofs.Grammar.UrlRule
import TrafficPolicy.Proofs.Profile.WellLinked
import TrafficPolicy.Proofs.Tool.Untimed

/-!
# Profiles are kept apart

What is done with other profiles is not seen through a profile, but for the time that it takes: all profiles share one
clock, and a question under one of them may hold all that comes after it.
-/

namespace TrafficPolicy

/-! ## Ways to look at a profile -/

/-- What of a profile, and of what is seen of it, depends on no more of the profile itself, at times that agree. -/
structure View (registry : Registry) where
  profile : Profile → Profile
  observation : Observation → Observation
  agree : Nat → Nat → Prop
  used {p q : Profile} {now now' : Nat} (hprofile : profile p = profile q) (hagree : agree now now') (use : Use) :
    observation (p.used registry now use).1 = observation (q.used registry now' use).1 ∧
      profile (p.used registry now use).2.1 = profile (q.used registry now' use).2.1

namespace View

def whole (registry : Registry) : View registry where
  profile := id
  observation := id
  agree now now' := now = now'
  used := by
    rintro p _ now _ rfl rfl use
    exact ⟨rfl, rfl⟩

/-- What does not depend on the time, at any times. -/
def untimed (registry : Registry) : View registry where
  profile := Profile.untimed
  observation := Observation.untimed
  agree _ _ := True
  used {p q now now'} hprofile _ use := by
    obtain ⟨hseen, hnext⟩ := Profile.untimed_used p registry 0 now use
    obtain ⟨hseen', hnext'⟩ := Profile.untimed_used q registry 0 now' use
    rw [← hseen, ← hseen', ← hnext, ← hnext', hprofile]
    exact ⟨rfl, rfl⟩

end View

/-! ## Sets that are alike for one profile -/

/-- Two sets have the same names and bindings, and one of their profiles looks the same. -/
structure ProfileSet.Alike (look : Profile → Profile) (name : String) (a b : ProfileSet) : Prop where
  clients : a.clients = b.clients
  known : ∀ other, (a.get? other).isSome = (b.get? other).isSome
  same : (a.get? name).map look = (b.get? name).map look

namespace ProfileSet.Alike

variable {look : Profile → Profile} {name other : String} {a b : ProfileSet}

theorem refl (look : Profile → Profile) (name : String) (a : ProfileSet) : Alike look name a a :=
  ⟨rfl, fun _ => rfl, rfl⟩

theorem symm (h : Alike look name a b) : Alike look name b a :=
  ⟨h.clients.symm, fun other => (h.known other).symm, h.same.symm⟩

theorem profileName (h : Alike look name a b) (access : Access) : access.profileName a = access.profileName b := by
  cases access with
  | named other => rfl
  | client client =>
    show a.nameFor client = b.nameFor client
    simp only [nameFor_eq, h.clients, h.known]

theorem create (h : Alike look name a b) (other : String) : Alike look name (a.create other) (b.create other) where
  clients := by rw [clients_create, clients_create, h.clients]
  known third := by rw [get?_create, get?_create, Option.isSome_or, Option.isSome_or, h.known]
  same := by
    have hsome := h.known name
    have hsame := h.same
    rw [get?_create, get?_create]
    cases ha : a.get? name <;> cases hb : b.get? name <;> simp_all

theorem bind (h : Alike look name a b) (client : Address) (other : String) :
    Alike look name ((a.bind? client other).getD a) ((b.bind? client other).getD b) := by
  by_cases hother : (a.get? other).isSome
  · rw [bind?_eq_some hother, bind?_eq_some (h.known other ▸ hother)]
    exact ⟨by rw [Option.getD_some, Option.getD_some, h.clients], h.known, h.same⟩
  · have hb : ¬(b.get? other).isSome := h.known other ▸ hother
    rw [bind?_eq_none (Option.not_isSome_iff_eq_none.mp hother), bind?_eq_none (Option.not_isSome_iff_eq_none.mp hb)]
    exact h

/-- Another profile may become anything. -/
theorem put_other (h : Alike look name a b) (hother : other ≠ name) (p : Profile) :
    Alike look name a (b.put other p) where
  clients := by rw [clients_put, h.clients]
  known third := by rw [isSome_get?_put, h.known]
  same := by rw [get?_put, if_neg hother.symm, h.same]

theorem put_same (h : Alike look name a b) {p q : Profile} (hpq : look p = look q) :
    Alike look name (a.put name p) (b.put name q) where
  clients := by rw [clients_put, clients_put, h.clients]
  known third := by rw [isSome_get?_put, isSome_get?_put, h.known]
  same := by
    have hknown := h.known name
    rw [get?_put, get?_put, if_pos rfl, if_pos rfl]
    cases ha : a.get? name <;> cases hb : b.get? name <;> simp_all

end ProfileSet.Alike

/-! ## Sessions with extra steps -/

namespace Session

def Step.Uses (name : String) (session : Session) : Step → Prop
  | .use access _ => access.profileName session.set = name
  | _ => False

/-- The steps of a session are those of another one and extra uses of profiles of other names, which do not take time.
Whenever the profile of the name is used in both, their times agree. -/
inductive Extended (registry : Registry) (name : String) (agree : Nat → Nat → Prop) :
    Session → List Step → Session → List Step → Prop
  | done {a b : Session} : Extended registry name agree a [] b []
  | common {a b : Session} {steps more : List Step} (step : Step) : (step.Uses name a → agree a.now b.now) →
      Extended registry name agree (a.step registry step).2 steps (b.step registry step).2 more →
        Extended registry name agree a (step :: steps) b (step :: more)
  | extra {a b : Session} {steps more : List Step} (access : Access) (use : Use) :
      access.profileName b.set ≠ name → (b.step registry (.use access use)).2.now = b.now →
        Extended registry name agree a steps (b.step registry (.use access use)).2 more →
          Extended registry name agree a steps b (.use access use :: more)

variable {registry : Registry} {name : String} {a b : Session}

def seenIn (session : Session) (registry : Registry) (name : String) (step : Step) : List Observation :=
  ((session.step registry step).1.toList.filter fun entry => entry.1 = name).map Prod.snd

theorem seenOf_cons (session : Session) (step : Step) (steps : List Step) :
    session.seenOf registry name (step :: steps) =
      session.seenIn registry name step ++ (session.step registry step).2.seenOf registry name steps := by
  rw [seenOf, seen, List.filter_append, List.map_append]
  rfl

theorem seen_append (session : Session) (steps more : List Step) : session.seen registry (steps ++ more) =
    session.seen registry steps ++ (session.after registry steps).seen registry more := by
  induction steps generalizing session with
  | nil => rfl
  | cons step steps ih =>
    rw [List.cons_append, seen, ih, seen, List.append_assoc]
    rfl

theorem seenOf_append (session : Session) (steps more : List Step) : session.seenOf registry name (steps ++ more) =
    session.seenOf registry name steps ++ (session.after registry steps).seenOf registry name more := by
  rw [seenOf, seen_append, List.filter_append, List.map_append]
  rfl

theorem step_use_of_none {access : Access} (h : a.set.get? (access.profileName a.set) = none) (use : Use) :
    a.step registry (.use access use) = (none, a) := by
  simp only [step, h]

theorem step_use_of_some {access : Access} {p : Profile} (h : a.set.get? (access.profileName a.set) = some p)
    (use : Use) : a.step registry (.use access use) =
      (some (access.profileName a.set, (p.used registry a.now use).1),
        ⟨a.set.put (access.profileName a.set) (p.used registry a.now use).2.1, (p.used registry a.now use).2.2⟩) := by
  simp only [step, h]

theorem step_apply (access : Access) {shuffler : Shuffler} {command : String} {p q : Profile}
    (hp : a.set.get? (access.profileName a.set) = some p) (happly : p.apply registry shuffler command = .ok q) :
    a.step registry (.use access (.apply shuffler command)) =
      (some (access.profileName a.set, .applied (.ok ())), ⟨a.set.put (access.profileName a.set) q, a.now⟩) := by
  rw [step_use_of_some hp, Profile.used, happly]

/-- A use of another profile is not seen. -/
theorem seenIn_of_not_uses {access : Access} (h : access.profileName b.set ≠ name) (use : Use) :
    b.seenIn registry name (.use access use) = [] := by
  cases hp : b.set.get? (access.profileName b.set) with
  | none =>
    rw [seenIn, step_use_of_none hp]
    rfl
  | some p =>
    rw [seenIn, step_use_of_some hp]
    simp [h]

theorem alike_step_of_not_uses {look : Profile → Profile} (halike : a.set.Alike look name b.set) {access : Access}
    (h : access.profileName b.set ≠ name) (registry : Registry) (use : Use) :
    a.set.Alike look name (b.step registry (.use access use)).2.set := by
  cases hp : b.set.get? (access.profileName b.set) with
  | none => rwa [step_use_of_none hp]
  | some p =>
    rw [step_use_of_some hp]
    exact halike.put_other h _

theorem alike_step_of_uses (view : View registry) (h : a.set.Alike view.profile name b.set) {access : Access}
    (hname : access.profileName a.set = name) (hagree : view.agree a.now b.now) (use : Use) :
    (a.seenIn registry name (.use access use)).map view.observation =
        (b.seenIn registry name (.use access use)).map view.observation ∧
      (a.step registry (.use access use)).2.set.Alike view.profile name
        (b.step registry (.use access use)).2.set := by
  have hname' : access.profileName b.set = name := h.profileName access ▸ hname
  have hsame := h.same
  cases hp : a.set.get? name with
  | none =>
    have hp' : b.set.get? name = none := by rwa [hp, Option.map_none, eq_comm, Option.map_eq_none_iff] at hsame
    rw [seenIn, seenIn, step_use_of_none (hname ▸ hp), step_use_of_none (hname' ▸ hp')]
    exact ⟨rfl, h⟩
  | some p =>
    rw [hp, Option.map_some, eq_comm, Option.map_eq_some_iff] at hsame
    obtain ⟨q, hp', hlook⟩ := hsame
    obtain ⟨hseen, hnext⟩ := view.used hlook.symm hagree use
    rw [seenIn, seenIn, step_use_of_some (hname.symm ▸ hp), step_use_of_some (hname'.symm ▸ hp'), hname, hname']
    exact ⟨by simpa using hseen, h.put_same hnext⟩

/-- Of a profile that looks the same in two sessions the same is seen at times that agree. -/
theorem alike_step (view : View registry) (h : a.set.Alike view.profile name b.set) {step : Step}
    (hagree : step.Uses name a → view.agree a.now b.now) :
    (a.seenIn registry name step).map view.observation = (b.seenIn registry name step).map view.observation ∧
      (a.step registry step).2.set.Alike view.profile name (b.step registry step).2.set := by
  cases step with
  | create other => exact ⟨rfl, h.create other⟩
  | bind client other => exact ⟨rfl, h.bind client other⟩
  | wait duration => exact ⟨rfl, h⟩
  | use access use =>
    by_cases hname : access.profileName a.set = name
    · exact alike_step_of_uses view h hname (hagree hname) use
    · -- The two may differ in what becomes of the other profile.
      have hname' : access.profileName b.set ≠ name := h.profileName access ▸ hname
      rw [seenIn_of_not_uses hname, seenIn_of_not_uses hname']
      exact ⟨rfl, alike_step_of_not_uses (alike_step_of_not_uses h.symm hname registry use).symm hname' registry use⟩

theorem Extended.seenOf_eq (view : View registry) {steps more : List Step}
    (h : Extended registry name view.agree a steps b more) (halike : a.set.Alike view.profile name b.set) :
    (a.seenOf registry name steps).map view.observation = (b.seenOf registry name more).map view.observation := by
  induction h with
  | done => rfl
  | common step hstep _ ih =>
    obtain ⟨hseen, hnext⟩ := alike_step view halike hstep
    rw [seenOf_cons, seenOf_cons, List.map_append, List.map_append, hseen, ih hnext]
  | extra access use haccess _ _ ih =>
    rw [seenOf_cons, seenIn_of_not_uses haccess, List.nil_append,
      ih (alike_step_of_not_uses halike haccess registry use)]

/-- To apply a command takes no time. -/
theorem now_step_apply (session : Session) (registry : Registry) (access : Access) (shuffler : Shuffler)
    (command : String) : (session.step registry (.use access (.apply shuffler command))).2.now = session.now := by
  simp only [step, Profile.used]
  split
  · rfl
  · split <;> rfl

/-- Uses of other profiles that take no time are not seen through a profile or a client that it serves, but for the time
at which the common uses of the profile come: what does not depend on the time is the same at any times, and all is the
same at the same times. After any steps from the start every binding is to a profile that is there, a client is served
by the profile in its last bind that has succeeded, or by the default one if there is none, and a bind that fails
changes nothing. -/
theorem kept_apart (registry : Registry) :
    (∀ (name : String) (session : Session) (steps more : List Step),
      (Extended registry name (fun _ _ => True) session steps session more →
        (session.seenOf registry name steps).map Observation.untimed =
          (session.seenOf registry name more).map Observation.untimed) ∧
      (Extended registry name (fun now now' => now = now') session steps session more →
        session.seenOf registry name steps = session.seenOf registry name more)) ∧
    ∀ (now : Nat) (steps : List Step),
      let start : Session := { now }
      let set := (start.after registry steps).set
      (∀ client, set.nameFor (some client) = (start.lastBound registry client steps).getD ProfileSet.defaultName) ∧
      set.nameFor none = ProfileSet.defaultName ∧
      (∀ client?, set.get? (set.nameFor client?) = some (set.forClient client?)) ∧
      set.AllKnown ∧
      ∀ client name, set.bind? client name = none →
        (start.after registry steps).step registry (.bind client name) = (none, start.after registry steps) := by
  constructor
  · intro name session steps more
    refine ⟨fun h => h.seenOf_eq (View.untimed registry) (.refl _ name session.set), fun h => ?_⟩
    have hseen := h.seenOf_eq (View.whole registry) (.refl _ name session.set)
    rwa [show (View.whole registry).observation = id from rfl, List.map_id, List.map_id] at hseen
  · intro now steps
    exact ⟨serves_after now steps, rfl, ProfileSet.get?_nameFor _, allKnown_after .start steps,
      fun client name => step_of_bind_failed⟩

private def guest : Address := .octets #v[1, 1, 1, 1]

/-- What is applied through a client that another profile serves is not seen through the default profile. -/
theorem kept_apart_from_guest :
    let bound : List Step := [.create "b", .bind guest "b"]
    let asked : Step := .use (.client none) (.request "g.cn")
    let applied : Step := .use (.client (some guest)) (.apply .inOrder "url drop 1s")
    let session : Session := {}
    (∀ agree : Nat → Nat → Prop, (∀ now, agree now now) →
      Extended .standard "default" agree session (bound ++ [asked]) session (bound ++ [applied, asked])) ∧
      (session.seenOf .standard "default" (bound ++ [asked])).map Observation.untimed =
        (session.seenOf .standard "default" (bound ++ [applied, asked])).map Observation.untimed ∧
      session.seenOf .standard "default" (bound ++ [asked]) =
        session.seenOf .standard "default" (bound ++ [applied, asked]) ∧
      session.seenOf .standard "default" (bound ++ [asked]) = [.dropped none] ∧
      (session.after .standard bound).set.nameFor (some guest) = "b" ∧
      (session.after .standard bound).set.bind? guest "c" = none ∧
      (session.after .standard bound).step .standard (.bind guest "c") = (none, session.after .standard bound) := by
  intro bound asked applied session
  obtain ⟨hapart, hserved⟩ := kept_apart .standard
  have hextended : ∀ agree : Nat → Nat → Prop, (∀ now, agree now now) →
      Extended .standard "default" agree session (bound ++ [asked]) session (bound ++ [applied, asked]) := by
    intro agree hrefl
    have hnow := now_step_apply (session.after .standard bound) .standard (.client (some guest)) .inOrder "url drop 1s"
    exact .common _ (fun _ => hrefl _) <| .common _ (fun _ => hrefl _) <| .extra _ _ (by decide) hnow <|
      .common _ (fun _ => hnow ▸ hrefl _) .done
  have hfails : (session.after .standard bound).set.bind? guest "c" = none := by decide
  obtain ⟨hname, -, -, -, hbind⟩ := hserved 0 bound
  exact ⟨hextended, (hapart _ _ _ _).1 (hextended _ fun _ => trivial), (hapart _ _ _ _).2 (hextended _ fun _ => rfl),
    by rfl, (hname guest).trans (by decide), hfails, hbind guest "c" hfails⟩

private def drop : DelayPolicy := { kind := .drop, seconds := 1.0 }

private def delay : DelayPolicy := { kind := .delay, seconds := 2.0 }

private theorem read_drop : Registry.standard.read "url drop 1s" = .ok (.url { slots := { delay := some drop } }) := by
  have hw : Text.words "url drop 1s" = ["url", "drop", "1s"] := by decide
  have hb : Registry.standard.builder? "drop" = some (.leaf (.delay .drop)) :=
    Registry.builder?_standard_iff.mpr (.delay .drop)
  have hdrop : (Leaf.delay .drop).read.Reads ["1s"] (.delay drop) [] :=
    Leaf.reads_delay.mpr ⟨false, false, ["1s"], "1s", 1.0, by simp [WordReader.reads_accept],
      by simp [WordReader.reads_accept], by decide, by decide, rfl⟩
  exact UrlRule.read_part hw (by decide) ((Registry.builds_leaf hb).mpr hdrop) rfl

private theorem read_delay :
    Registry.standard.read "domain delay 2s all" = .ok (.domain { delay := some delay, target := .all }) := by
  have hw : Text.words "domain delay 2s all" = ["domain", "delay", "2s", "all"] := by decide
  have hb : Registry.standard.builder? "delay" = some (.leaf (.delay .delay)) :=
    Registry.builder?_standard_iff.mpr (.delay .delay)
  rw [Registry.read_eq_ok_iff, hw, Registry.builds_domain Registry.builder?_domain,
    Registry.reads_domainRule (by decide)]
  refine ⟨{ delay := some delay }, ["all"], ?_,
    DomainOptions.reads_readTarget.mpr ⟨rfl, "all", .all, rfl, .inl ⟨rfl, rfl⟩⟩⟩
  rw [Registry.reads_domainOptions_option (by decide)]
  refine ⟨.delay delay, ["all"], _, (Registry.builds_leaf hb).mpr ?_, rfl,
    (Registry.reads_domainOptions_target (by decide)).mpr ⟨rfl, rfl⟩⟩
  exact Leaf.reads_delay.mpr ⟨false, false, ["2s", "all"], "2s", 2.0, by simp [WordReader.reads_accept],
    by simp [WordReader.reads_accept], by decide, by decide, rfl⟩

private def opened : List Step :=
  [.create "a", .create "b", .bind guest "b", .use (.named "a") (.apply .inOrder "url drop 1s"),
    .use (.named "a") (.request "g.cn")]

private def asked : List Step :=
  [.use (.client (some guest)) (.dns ⟨fun _ => some [guest], []⟩ "h.cn" 1.0), .use (.named "a") (.request "g.cn")]

private def delayed : Step := .use (.named "b") (.apply .inOrder "domain delay 2s all")

private def dropping : Profile :=
  { defaultUrl := some ⟨{ slots := { delay := some drop } }, []⟩, drops := ⟨[("", 0)]⟩ }

private def delaying : Profile := { defaultDomain := some ⟨{ delay := some delay, target := .all }, [], 0⟩ }

private theorem after_opened : ({} : Session).after .standard opened =
    { set := { named := [("a", dropping), ("b", {})], clients := [(guest, "b")] } } := by
  have happly : Profile.apply {} .standard .inOrder "url drop 1s" = .ok { dropping with drops := {} } :=
    Profile.apply_eq_ok_iff.mpr ⟨_, read_drop, rfl⟩
  simp only [after, opened, List.foldl_cons, List.foldl_nil]
  rw [step_apply (.named "a") (p := {}) (by decide) happly]
  rfl

/-- A question under another profile may be delayed by what has been applied to it, and the clock is that of all. -/
theorem not_kept_apart_from_delay :
    ¬∀ (registry : Registry) (name : String) (session : Session) (steps more : List Step),
      Extended registry name (fun _ _ => True) session steps session more →
        session.seenOf registry name steps = session.seenOf registry name more := by
  intro h
  have hseen := h .standard "a" {} (opened ++ asked) (opened ++ delayed :: asked) <|
    .common _ (fun _ => trivial) <| .common _ (fun _ => trivial) <| .common _ (fun _ => trivial) <|
      .common _ (fun _ => trivial) <| .common _ (fun _ => trivial) <| .extra _ _ (by decide) (now_step_apply ..) <|
        .common _ (fun _ => trivial) <| .common _ (fun _ => trivial) .done
  rw [seenOf_append, seenOf_append, after_opened] at hseen
  have happly : Profile.apply {} .standard .inOrder "domain delay 2s all" = .ok delaying :=
    Profile.apply_eq_ok_iff.mpr ⟨_, read_delay, rfl⟩
  have hdelayed := List.append_cancel_left hseen
  rw [seenOf_cons _ delayed, delayed, seenIn,
    step_apply (.named "b") (p := {}) (by decide) happly] at hdelayed
  have hdropped : [Observation.dropped (some true)] = [Observation.dropped (some false)] := hdelayed
  cases hdropped

end Session

end TrafficPolicy
