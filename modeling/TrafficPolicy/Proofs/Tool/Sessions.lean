import TrafficPolicy.Tool.Report

/-!
# Sessions with a set of profiles

In a session profiles are created, clients are bound to them, and profiles are used, by name or through a client. Time
goes on when a question has to wait, and in between. What is seen in a use of a profile depends on this profile and on
the time.
-/

namespace TrafficPolicy

inductive Use where
  | apply (shuffler : Shuffler) (command : String)
  | load (shuffler : Shuffler) (files : Files) (path : String)
  | resolveUrl (url : String)
  | resolveDomain (domain : String)
  /-- Hands addresses out under the policy for a domain. -/
  | nextAddresses (domain : String)
  | shouldDrop (policy : UrlPolicy)
  /-- Asks for the policy for a url and whether it drops the request. -/
  | request (url : String)
  | commands
  | dns (answerer : Dns.Answerer) (domain : String) (factor : Float)

inductive Observation where
  | applied (result : Except CommandError Unit)
  | loaded (result : Except Failure Unit)
  | url (policy : Option UrlPolicy)
  | domain (policy : Option DomainPolicy)
  | addresses (addresses : Option (List Address))
  | dropped (verdict : Option Bool)
  | commands (commands : List String)
  | answered (policy : Option DomainPolicy) (result : Except Failure (List Address)) (time : Nat)

namespace Profile

/-- Hands addresses out under the policy for a domain, if there is one. -/
def nextAddresses (p : Profile) (domain : String) : Option (List Address) × Profile :=
  p.useDomain domain fun
    | none => (none, none)
    | some policy => (some policy.next.1, some policy.next.2)

/-- Whether a request for a url is dropped at a time, if there is a policy for it. -/
def request (p : Profile) (url : String) (now : Nat) : Option Bool × Profile :=
  match p.resolveUrl url with
  | none => (none, p)
  | some policy => (some (p.shouldDrop policy now).1, (p.shouldDrop policy now).2)

def question (p : Profile) (answerer : Dns.Answerer) (domain : String) (factor : Float) (now : Nat) :
    Dns.Outcome × Profile :=
  p.useDomain domain fun policy =>
    let outcome := answerer.answer domain policy factor now
    (outcome, outcome.policy)

def used (p : Profile) (registry : Registry) (now : Nat) : Use → Observation × Profile × Nat
  | .apply shuffler command =>
    match p.apply registry shuffler command with
    | .ok q => (.applied (.ok ()), q, now)
    | .error e => (.applied (.error e), p, now)
  | .load shuffler files path =>
    let loaded := p.load registry shuffler files path
    (.loaded loaded.1, loaded.2, now)
  | .resolveUrl url => (.url (p.resolveUrl url), p, now)
  | .resolveDomain domain => (.domain (p.resolveDomain domain), p, now)
  | .nextAddresses domain => (.addresses (p.nextAddresses domain).1, (p.nextAddresses domain).2, now)
  | .shouldDrop policy => (.dropped (some (p.shouldDrop policy now).1), (p.shouldDrop policy now).2, now)
  | .request url => (.dropped (p.request url now).1, (p.request url now).2, now)
  | .commands => (.commands p.commands, p, now)
  | .dns answerer domain factor =>
    let asked := p.question answerer domain factor now
    (.answered (p.resolveDomain domain) asked.1.result asked.1.time, asked.2, asked.1.time)

end Profile

inductive Access where
  | named (name : String)
  | client (client : Option Address)

def Access.profileName (set : ProfileSet) : Access → String
  | .named name => name
  | .client address? => set.nameFor address?

structure Session where
  set : ProfileSet := {}
  now : Nat := 0

namespace Session

inductive Step where
  | create (name : String)
  | bind (client : Address) (name : String)
  | wait (duration : Nat)
  | use (access : Access) (use : Use)

/-- What is seen in a step, with the name of the profile that has been used, and the session after it. A bind that fails
and the use of a profile that is not there change nothing. -/
def step (session : Session) (registry : Registry) : Step → Option (String × Observation) × Session
  | .create name => (none, { session with set := session.set.create name })
  | .bind client name => (none, { session with set := (session.set.bind? client name).getD session.set })
  | .wait duration => (none, { session with now := session.now + duration })
  | .use access use =>
    let name := access.profileName session.set
    match session.set.get? name with
    | none => (none, session)
    | some p =>
      let used := p.used registry session.now use
      (some (name, used.1), ⟨session.set.put name used.2.1, used.2.2⟩)

def after (session : Session) (registry : Registry) (steps : List Step) : Session :=
  steps.foldl (fun session step => (session.step registry step).2) session

/-- What is seen in some steps, with the names of the profiles that have been used. -/
def seen (session : Session) (registry : Registry) : List Step → List (String × Observation)
  | [] => []
  | step :: steps =>
    (session.step registry step).1.toList ++ (session.step registry step).2.seen registry steps

def seenOf (session : Session) (registry : Registry) (name : String) (steps : List Step) : List Observation :=
  ((session.seen registry steps).filter fun entry => entry.1 = name).map Prod.snd

end Session

/-! ## Looking things up -/

namespace ProfileSet

variable {set next : ProfileSet} {name other : String} {p : Profile} {client : Address}

private theorem lookup_cons_of_ne {α β : Type} [BEq α] [LawfulBEq α] {a b : α} (h : a ≠ b) (value : β)
    (entries : List (α × β)) : ((b, value) :: entries).lookup a = entries.lookup a := by
  rw [List.lookup_cons, beq_eq_false_iff_ne.mpr h]

theorem get?_default (set : ProfileSet) : set.get? defaultName = some set.default := if_pos rfl

theorem get?_of_ne (h : other ≠ defaultName) : set.get? other = set.named.lookup other := if_neg h

theorem get?_create (set : ProfileSet) (name other : String) :
    (set.create name).get? other = (set.get? other).or (if other = name then some {} else none) := by
  unfold create
  cases hname : set.get? name with
  | some p =>
    dsimp only
    by_cases hother : other = name
    · rw [hother, hname, Option.some_or]
    · rw [if_neg hother, Option.or_none]
  | none =>
    by_cases hdefault : other = defaultName
    · rw [hdefault, get?_default, get?_default, Option.some_or]
    · rw [get?_of_ne hdefault, get?_of_ne hdefault, List.lookup_append]
      by_cases hother : other = name
      · rw [hother, List.lookup_cons_self, if_pos rfl]
      · rw [lookup_cons_of_ne hother, if_neg hother]
        rfl

theorem lookup_map_put (entries : List (String × Profile)) (name other : String) (p : Profile) :
    (entries.map fun entry => if entry.1 = name then (name, p) else entry).lookup other =
      if other = name then (entries.lookup other).map fun _ => p else entries.lookup other := by
  induction entries with
  | nil => simp
  | cons entry entries ih =>
    obtain ⟨first, q⟩ := entry
    rw [List.map_cons]
    by_cases hfirst : first = name
    · rw [if_pos hfirst, hfirst]
      by_cases hother : other = name
      · rw [if_pos hother, hother, List.lookup_cons_self, List.lookup_cons_self, Option.map_some]
      · rw [lookup_cons_of_ne hother, lookup_cons_of_ne hother, ih]
    · rw [if_neg hfirst]
      by_cases hother : other = first
      · rw [hother, if_neg hfirst, List.lookup_cons_self, List.lookup_cons_self]
      · rw [lookup_cons_of_ne hother, lookup_cons_of_ne hother, ih]

theorem get?_put (set : ProfileSet) (name other : String) (p : Profile) :
    (set.put name p).get? other = if other = name then (set.get? other).map fun _ => p else set.get? other := by
  unfold put
  by_cases hname : name = defaultName
  · rw [if_pos hname]
    by_cases hother : other = name
    · rw [if_pos hother, hother, hname, get?_default, get?_default, Option.map_some]
    · rw [if_neg hother, get?_of_ne (hname ▸ hother), get?_of_ne (hname ▸ hother)]
  · rw [if_neg hname]
    by_cases hother : other = defaultName
    · rw [if_neg (fun h => hname (h.symm.trans hother)), hother, get?_default, get?_default]
    · rw [get?_of_ne hother, get?_of_ne hother, lookup_map_put]

theorem isSome_get?_put (set : ProfileSet) (name other : String) (p : Profile) :
    ((set.put name p).get? other).isSome = (set.get? other).isSome := by
  rw [get?_put]
  split <;> simp

theorem bind?_eq_some (h : (set.get? name).isSome) : set.bind? client name = some
    { set with clients := (client, name) :: set.clients.filter fun entry => entry.1 != client } := if_pos h

theorem bind?_eq_none (h : set.get? name = none) : set.bind? client name = none := if_neg (by simp [h])

theorem lookup_cons_filter (entries : List (Address × String)) (client other : Address) (name : String) :
    ((client, name) :: entries.filter fun entry => entry.1 != client).lookup other =
      if other = client then some name else entries.lookup other := by
  by_cases hother : other = client
  · rw [if_pos hother, hother, List.lookup_cons_self]
  · rw [if_neg hother, lookup_cons_of_ne hother]
    induction entries with
    | nil => rfl
    | cons entry entries ih =>
      obtain ⟨first, bound⟩ := entry
      by_cases hfirst : first = client
      · rw [List.filter_cons_of_neg (by simpa using hfirst), hfirst, lookup_cons_of_ne hother, ih]
      · rw [List.filter_cons_of_pos (by simpa using hfirst), List.lookup_cons, List.lookup_cons, ih]

/-- The profile that serves a client is always there. -/
theorem get?_nameFor (set : ProfileSet) (client : Option Address) :
    set.get? (set.nameFor client) = some (set.forClient client) := by
  have hsome : (set.get? (set.nameFor client)).isSome := by
    unfold nameFor
    split
    · rw [get?_default]
      rfl
    · rename_i name _
      split
      · rename_i hnamed
        by_cases hdefault : name = defaultName
        · rw [hdefault, get?_default]
          rfl
        · rwa [get?_of_ne hdefault]
      · rw [get?_default]
        rfl
  obtain ⟨p, hp⟩ := Option.isSome_iff_exists.mp hsome
  rw [forClient, hp, Option.getD_some]

/-- The name of the profile of a client is that of its binding, if there is such a profile. -/
theorem nameFor_eq (set : ProfileSet) (client : Option Address) :
    set.nameFor client = ((client.bind fun client => set.clients.lookup client).filter fun name =>
      (set.get? name).isSome).getD defaultName := by
  unfold nameFor
  cases client.bind fun client => set.clients.lookup client with
  | none => rfl
  | some name =>
    rw [Option.filter_some]
    dsimp only
    by_cases hdefault : name = defaultName
    · rw [hdefault, get?_default]
      exact ite_self _
    · rw [get?_of_ne hdefault]
      split <;> rfl

end ProfileSet

/-! ## Who is served by which profile -/

namespace ProfileSet

variable {set : ProfileSet} {name : String} {p : Profile}

/-- Every client is bound to a profile that is there. -/
def AllKnown (set : ProfileSet) : Prop :=
  ∀ entry ∈ set.clients, (set.get? entry.2).isSome

theorem clients_create (set : ProfileSet) (name : String) : (set.create name).clients = set.clients := by
  unfold create
  split <;> rfl

theorem clients_put (set : ProfileSet) (name : String) (p : Profile) : (set.put name p).clients = set.clients := by
  unfold put
  split <;> rfl

theorem AllKnown.start : ({} : ProfileSet).AllKnown := List.forall_mem_nil _

theorem AllKnown.create (h : set.AllKnown) (name : String) : (set.create name).AllKnown := by
  intro entry hentry
  rw [clients_create] at hentry
  rw [get?_create, Option.isSome_or, h entry hentry, Bool.true_or]

theorem AllKnown.put (h : set.AllKnown) (name : String) (p : Profile) : (set.put name p).AllKnown := by
  intro entry hentry
  rw [clients_put] at hentry
  rw [isSome_get?_put, h entry hentry]

theorem AllKnown.bind (h : set.AllKnown) (client : Address) (name : String) :
    ((set.bind? client name).getD set).AllKnown := by
  cases hname : set.get? name with
  | none =>
    rw [bind?_eq_none hname]
    exact h
  | some p =>
    have hsome : (set.get? name).isSome := by rw [hname]; rfl
    rw [bind?_eq_some hsome, Option.getD_some]
    intro entry hentry
    rcases List.mem_cons.mp hentry with rfl | hold
    · exact hsome
    · exact h entry (List.mem_filter.mp hold).1

/-- A client that is bound to a profile that is there is served by it, and others are served by the default one. -/
theorem AllKnown.nameFor (h : set.AllKnown) (client : Address) :
    set.nameFor (some client) = (set.clients.lookup client).getD defaultName := by
  rw [nameFor_eq, Option.bind_some]
  cases hbound : set.clients.lookup client with
  | none => rfl
  | some name =>
    obtain ⟨before, after, hclients, -⟩ := List.lookup_eq_some_iff.mp hbound
    have hknown := h (client, name) (by rw [hclients]; simp)
    rw [Option.filter_some, if_pos hknown]

end ProfileSet

namespace Session

variable {session : Session} {registry : Registry} {client : Address}

/-- To ask through a client is what the program does to answer a question. -/
theorem step_dns (session : Session) (registry : Registry) (answerer : Dns.Answerer) (client : Option Address)
    (domain : String) (factor : Float) :
    let printed := Report.dns session.set answerer client domain factor session.now
    let p := session.set.forClient client
    session.step registry (.use (.client client) (.dns answerer domain factor)) =
      (some (session.set.nameFor client, .answered (p.resolveDomain domain)
        (p.question answerer domain factor session.now).1.result printed.2.2), ⟨printed.2.1, printed.2.2⟩) := by
  simp only [step, Access.profileName, ProfileSet.get?_nameFor]
  rfl

/-- The name of the profile that a client is bound to in a step. -/
def Step.binding? (session : Session) (client : Address) : Step → Option String
  | .bind other name => if other = client ∧ (session.set.get? name).isSome then some name else none
  | _ => none

/-- The name in the last bind of a client that succeeds. -/
def lastBound (session : Session) (registry : Registry) (client : Address) : List Step → Option String
  | [] => none
  | step :: steps =>
    ((session.step registry step).2.lastBound registry client steps).or (step.binding? session client)

theorem step_of_bind_failed {name : String} (h : session.set.bind? client name = none) :
    session.step registry (.bind client name) = (none, session) := by
  simp only [step, h, Option.getD_none]

theorem lookup_clients_step (step : Step) : (session.step registry step).2.set.clients.lookup client =
    (step.binding? session client).or (session.set.clients.lookup client) := by
  cases step with
  | create name => exact congrArg (List.lookup client) (ProfileSet.clients_create _ _)
  | wait duration => rfl
  | bind other name =>
    cases hname : session.set.get? name with
    | none =>
      rw [step_of_bind_failed (ProfileSet.bind?_eq_none hname)]
      simp [Step.binding?, hname]
    | some p =>
      have hsome : (session.set.get? name).isSome := by rw [hname]; rfl
      simp only [Session.step, ProfileSet.bind?_eq_some hsome, Option.getD_some, ProfileSet.lookup_cons_filter,
        Step.binding?, hsome, and_true, eq_comm (a := other)]
      split <;> rfl
  | use access use =>
    simp only [Session.step, Step.binding?, Option.none_or]
    split
    · rfl
    · exact congrArg (List.lookup client) (ProfileSet.clients_put _ _ _)

theorem lookup_clients_after (steps : List Step) : (session.after registry steps).set.clients.lookup client =
    (session.lastBound registry client steps).or (session.set.clients.lookup client) := by
  induction steps generalizing session with
  | nil => rfl
  | cons step steps ih =>
    rw [after, List.foldl_cons, lastBound, Option.or_assoc, ← lookup_clients_step step]
    exact ih

theorem allKnown_step (h : session.set.AllKnown) (step : Step) : (session.step registry step).2.set.AllKnown := by
  cases step with
  | create name => exact h.create name
  | bind client name => exact h.bind client name
  | wait duration => exact h
  | use access use =>
    simp only [Session.step]
    split
    · exact h
    · exact h.put _ _

theorem allKnown_after (h : session.set.AllKnown) (steps : List Step) :
    (session.after registry steps).set.AllKnown := by
  induction steps generalizing session with
  | nil => exact h
  | cons step steps ih => exact ih (allKnown_step h step)

/-- After any steps from the start every binding is to a profile that is there, and a client is served by the profile
in its last bind that has succeeded, and by the default one if there is none. -/
theorem serves_after (now : Nat) (steps : List Step) (client : Address) :
    (({ now } : Session).after registry steps).set.nameFor (some client) =
      (({ now } : Session).lastBound registry client steps).getD ProfileSet.defaultName := by
  have hknown : (({ now } : Session).after registry steps).set.AllKnown := allKnown_after .start steps
  rw [hknown.nameFor, lookup_clients_after]
  show (Option.or _ none).getD _ = _
  rw [Option.or_none]

end Session

end TrafficPolicy
