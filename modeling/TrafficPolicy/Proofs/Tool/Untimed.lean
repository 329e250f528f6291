import TrafficPolicy.Proofs.Tool.Sessions

/-!
# What does not depend on the time

Time decides whether a request is dropped and when an answer comes. The rest of what is seen of a profile, and the rest
of what becomes of it, depends neither on the time nor on the memory of first requests.
-/

namespace TrafficPolicy

/-- What is seen but for the time: a verdict is only known to be there. -/
def Observation.untimed : Observation → Observation
  | .dropped verdict => .dropped (verdict.map fun _ => true)
  | .answered policy result _ => .answered policy result 0
  | other => other

namespace Profile

def untimed (p : Profile) : Profile := { p with drops := {} }

/-! ## What becomes of a profile -/

theorem untimed_applyUrl (p : Profile) (rule : UrlRule) :
    (p.untimed.applyUrl rule).untimed = (p.applyUrl rule).untimed := by
  unfold applyUrl
  cases rule.target with
  | none => rfl
  | some target =>
    show (p.untimed.applyTargeted rule target.text).untimed = (p.applyTargeted rule target.text).untimed
    unfold applyTargeted
    rw [show p.untimed.hasUrl target.text = p.hasUrl target.text from rfl]
    cases p.hasUrl target.text <;> rfl

theorem untimed_applyRemoval (p : Profile) (removal : Removal) :
    (p.untimed.applyRemoval removal).untimed = (p.applyRemoval removal).untimed := by
  unfold applyRemoval
  cases removal.target with
  | all => rfl
  | named name =>
    dsimp only
    cases urlKey? name <;> rfl

theorem untimed_applyDeletion (p : Profile) (deletion : Deletion) :
    (p.untimed.applyDeletion deletion).untimed = (p.applyDeletion deletion).untimed := by
  unfold applyDeletion
  cases deletion.scope <;> cases deletion.target <;> try rfl
  rename_i name
  dsimp only
  cases urlKey? name <;> rfl

theorem untimed_applyDomain (p : Profile) (shuffler : Shuffler) (rule : DomainRule) :
    (p.untimed.applyDomain shuffler rule).untimed = (p.applyDomain shuffler rule).untimed := by
  unfold applyDomain
  cases rule.target with
  | all => rfl
  | pattern pattern =>
    dsimp only
    rw [show p.untimed.domains = p.domains from rfl]
    split <;> rfl

theorem untimed_applyPolicy (p : Profile) (shuffler : Shuffler) (policy : Policy) :
    (p.untimed.applyPolicy shuffler policy).map untimed = (p.applyPolicy shuffler policy).map untimed := by
  cases policy with
  | url rule => exact congrArg Except.ok (untimed_applyUrl p rule)
  | remove removal => exact congrArg Except.ok (untimed_applyRemoval p removal)
  | delete deletion => exact congrArg Except.ok (untimed_applyDeletion p deletion)
  | domain rule => exact congrArg Except.ok (untimed_applyDomain p shuffler rule)
  | _ => rfl

theorem untimed_apply (p : Profile) (registry : Registry) (shuffler : Shuffler) (command : String) :
    (p.untimed.apply registry shuffler command).map untimed = (p.apply registry shuffler command).map untimed := by
  unfold apply
  cases registry.read command with
  | error e => rfl
  | ok policy => exact untimed_applyPolicy p shuffler policy

theorem untimed_apply_cases (p : Profile) (registry : Registry) (shuffler : Shuffler) (command : String) :
    (∃ e, p.untimed.apply registry shuffler command = .error e ∧ p.apply registry shuffler command = .error e) ∨
      ∃ u q, p.untimed.apply registry shuffler command = .ok u ∧ p.apply registry shuffler command = .ok q ∧
        u.untimed = q.untimed := by
  have happly := untimed_apply p registry shuffler command
  cases hu : p.untimed.apply registry shuffler command <;> cases hp : p.apply registry shuffler command <;>
    simp_all [Except.map]

theorem untimed_applyLines (p : Profile) (registry : Registry) (shuffler : Shuffler) (path : String)
    (lines : List NumberedCommand) :
    (p.untimed.applyLines registry shuffler path lines).1 = (p.applyLines registry shuffler path lines).1 ∧
      (p.untimed.applyLines registry shuffler path lines).2.untimed =
        (p.applyLines registry shuffler path lines).2.untimed := by
  induction lines generalizing p with
  | nil => exact ⟨rfl, rfl⟩
  | cons line lines ih =>
    unfold applyLines
    rcases untimed_apply_cases p registry shuffler line.command with ⟨e, hu, hp⟩ | ⟨u, q, hu, hp, huntimed⟩
    · rw [hu, hp]
      exact ⟨rfl, rfl⟩
    · rw [hu, hp]
      dsimp only
      rw [← (ih u).1, ← (ih u).2, ← (ih q).1, ← (ih q).2, huntimed]
      exact ⟨rfl, rfl⟩

theorem untimed_load (p : Profile) (registry : Registry) (shuffler : Shuffler) (files : Files) (path : String) :
    (p.untimed.load registry shuffler files path).1 = (p.load registry shuffler files path).1 ∧
      (p.untimed.load registry shuffler files path).2.untimed =
        (p.load registry shuffler files path).2.untimed := by
  unfold load
  cases CommandFile.read files path with
  | error e => exact ⟨rfl, rfl⟩
  | ok lines => exact untimed_applyLines p registry shuffler path lines

theorem untimed_shouldDrop (p : Profile) (policy : UrlPolicy) (now now' : Nat) :
    (p.untimed.shouldDrop policy now).2.untimed = (p.shouldDrop policy now').2.untimed := by
  unfold shouldDrop
  cases policy.drop? <;> rfl

theorem untimed_resolveDomain (p : Profile) (domain : String) :
    p.untimed.resolveDomain domain = p.resolveDomain domain := by
  unfold resolveDomain
  rw [show p.untimed.domainPlace? domain = p.domainPlace? domain from rfl]
  cases p.domainPlace? domain with
  | none => rfl
  | some place => cases place <;> rfl

theorem untimed_useDomain {α β : Type} {f g : Option DomainPolicy → α × Option DomainPolicy} (look : α → β)
    (h : ∀ policy, look (f policy).1 = look (g policy).1 ∧ (f policy).2 = (g policy).2) (p : Profile)
    (domain : String) :
    look (p.untimed.useDomain domain f).1 = look (p.useDomain domain g).1 ∧
      (p.untimed.useDomain domain f).2.untimed = (p.useDomain domain g).2.untimed := by
  unfold useDomain
  rw [show p.untimed.domainPlace? domain = p.domainPlace? domain from rfl]
  cases p.domainPlace? domain with
  | none => exact ⟨(h none).1, rfl⟩
  | some place =>
    dsimp only
    rw [show p.untimed.domainAt? place = p.domainAt? place by cases place <;> rfl]
    have hplace := h (p.domainAt? place)
    generalize f (p.domainAt? place) = left at hplace ⊢
    generalize g (p.domainAt? place) = right at hplace ⊢
    obtain ⟨a, next⟩ := left
    obtain ⟨b, next'⟩ := right
    obtain ⟨hlook, rfl⟩ : look a = look b ∧ next = next' := hplace
    cases next with
    | none => exact ⟨hlook, rfl⟩
    | some policy => exact ⟨hlook, by cases place <;> rfl⟩

/-- A question gets the same answer at any time. -/
theorem untimed_question (p : Profile) (answerer : Dns.Answerer) (domain : String) (factor : Float) (now now' : Nat) :
    (p.untimed.question answerer domain factor now).1.result = (p.question answerer domain factor now').1.result ∧
      (p.untimed.question answerer domain factor now).2.untimed =
        (p.question answerer domain factor now').2.untimed := by
  refine untimed_useDomain Dns.Outcome.result (fun policy => ?_) p domain
  cases policy with
  | none => exact ⟨rfl, rfl⟩
  | some policy =>
    simp only [Dns.Answerer.answer]
    obtain ⟨reply, next⟩ := policy.reply answerer.proxyAddresses
    cases reply <;> exact ⟨rfl, rfl⟩

/-! ## What is seen of a profile -/

/-- Of a profile and the same one without the memory of first requests the same is seen, at any times, but for the time,
and they differ by no more afterwards. -/
theorem untimed_used (p : Profile) (registry : Registry) (now now' : Nat) (use : Use) :
    (p.untimed.used registry now use).1.untimed = (p.used registry now' use).1.untimed ∧
      (p.untimed.used registry now use).2.1.untimed = (p.used registry now' use).2.1.untimed := by
  cases use with
  | apply shuffler command =>
    rcases untimed_apply_cases p registry shuffler command with ⟨e, hu, hp⟩ | ⟨u, q, hu, hp, huntimed⟩
    · simp only [used, hu, hp, true_and]
      rfl
    · simp only [used, hu, hp, true_and]
      exact huntimed
  | load shuffler files path =>
    obtain ⟨hresult, hnext⟩ := untimed_load p registry shuffler files path
    exact ⟨congrArg Observation.loaded hresult, hnext⟩
  | resolveUrl url => exact ⟨rfl, rfl⟩
  | resolveDomain domain => exact ⟨congrArg Observation.domain (untimed_resolveDomain p domain), rfl⟩
  | nextAddresses domain =>
    obtain ⟨hgiven, hnext⟩ := untimed_useDomain id (fun _ => ⟨rfl, rfl⟩) p domain
    exact ⟨congrArg Observation.addresses hgiven, hnext⟩
  | shouldDrop policy => exact ⟨rfl, untimed_shouldDrop p policy now now'⟩
  | request url =>
    simp only [used, request]
    rw [show p.untimed.resolveUrl url = p.resolveUrl url from rfl]
    cases p.resolveUrl url with
    | none => exact ⟨rfl, rfl⟩
    | some policy => exact ⟨rfl, untimed_shouldDrop p policy now now'⟩
  | commands => exact ⟨rfl, rfl⟩
  | dns answerer domain factor =>
    obtain ⟨hresult, hnext⟩ := untimed_question p answerer domain factor now now'
    simp only [used, Observation.untimed, untimed_resolveDomain, hresult, true_and]
    exact hnext

end Profile

end TrafficPolicy
