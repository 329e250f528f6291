import TrafficPolicy.Proofs.Grammar.Leaf

/-!
# What readers fail with

There are errors that any reader may fail with. A text that is not what its keyword asks for is one of these; that a
keyword is unknown or that a policy does not belong where it stands is not.
-/

namespace TrafficPolicy

/-- What any reader may refuse a text for. -/
def CommandError.Ordinary : CommandError → Prop
  | .emptyCommand | .missingArgument .. | .invalidValue .. | .outOfRange .. | .tooManyArguments .. | .conflict ..
  | .invalidPattern .. => True
  | .unknownKeyword _ | .notApplicable _ | .misplaced .. => False

variable {α β : Type} {P Q : CommandError → Prop}

/-! ## The errors of a reader -/

/-- If a result is an error, it is one of these. -/
def FailsWith (P : CommandError → Prop) (result : Except CommandError α) : Prop :=
  ∀ error, result = .error error → P error

namespace FailsWith

theorem ok (a : α) : FailsWith P (.ok a) := nofun

theorem error {e : CommandError} (h : P e) : FailsWith P (.error e : Except CommandError α) := by
  rintro _ ⟨⟩
  exact h

theorem mono {result : Except CommandError α} (h : FailsWith P result) (hpq : ∀ e, P e → Q e) : FailsWith Q result :=
  fun e he => hpq e (h e he)

theorem bind {result : Except CommandError α} {next : α → Except CommandError β} (h : FailsWith P result)
    (hnext : ∀ a, result = .ok a → FailsWith P (next a)) : FailsWith P (result >>= next) := by
  cases result with
  | error e => exact error (h e rfl)
  | ok a => exact hnext a rfl

theorem map {result : Except CommandError α} (h : FailsWith P result) (f : α → β) : FailsWith P (result.map f) := by
  cases result with
  | error e => exact error (h e rfl)
  | ok a => exact ok (f a)

theorem mapM {f : α → Except CommandError β} (h : ∀ a, FailsWith P (f a)) (items : List α) :
    FailsWith P (items.mapM f) := by
  induction items with
  | nil => exact ok []
  | cons item items ih =>
    rw [List.mapM_cons]
    exact (h item).bind fun _ _ => ih.bind fun _ _ => ok _

end FailsWith

namespace WordReader

variable {reader : WordReader α} {next : α → WordReader β}

def FailsWith (P : CommandError → Prop) (reader : WordReader α) : Prop :=
  ∀ words, TrafficPolicy.FailsWith P (reader words).1

theorem fst_resume {words : List String} (read : Except CommandError α × Rest words) (next : α → WordReader β) :
    (resume read next).1 = read.1 >>= fun a => (next a read.2.val).1 := by
  obtain ⟨_ | a, rest⟩ := read <;> rfl

namespace FailsWith

theorem pure (a : α) : FailsWith P (Pure.pure a : WordReader α) := fun _ => .ok a

theorem ofExcept {result : Except CommandError α} (h : TrafficPolicy.FailsWith P result) :
    FailsWith P (liftM result : WordReader α) := fun _ => h

theorem bind (h : reader.FailsWith P) (hnext : ∀ a, (next a).FailsWith P) : FailsWith P (reader >>= next) :=
  fun words => (fst_resume (reader words) next).symm ▸ (h words).bind fun a _ => hnext a _

theorem mono (h : reader.FailsWith P) (hpq : ∀ e, P e → Q e) : reader.FailsWith Q := fun words => (h words).mono hpq

theorem ite {c : Prop} [Decidable c] {other : WordReader α} (h : reader.FailsWith P) (hother : other.FailsWith P) :
    FailsWith P (if c then reader else other) := by
  split
  · exact h
  · exact hother

theorem next? : FailsWith P next? := by
  rintro (_ | ⟨word, words⟩)
  · exact .ok none
  · exact .ok (some word)

theorem accept (expected : String) : FailsWith P (accept expected) := by
  rintro (_ | ⟨word, words⟩)
  · exact .ok false
  · by_cases h : word = expected
    · simpa [WordReader.accept, h] using FailsWith.ok true
    · simpa [WordReader.accept, h] using FailsWith.ok false

theorem argument (keyword expected : String) : FailsWith CommandError.Ordinary (argument keyword expected) := by
  rintro (_ | ⟨word, words⟩)
  · exact .error trivial
  · exact .ok word

theorem finish (keyword : String) : FailsWith CommandError.Ordinary (finish keyword) := by
  rintro (_ | ⟨word, words⟩)
  · exact .ok ()
  · exact .error trivial

theorem argument_bind {keyword expected word : String} {next : String → WordReader β} (h : (next word).FailsWith P)
    (words : List String) :
    TrafficPolicy.FailsWith P ((WordReader.argument keyword expected >>= next) (word :: words)).1 :=
  (fst_resume _ next).symm ▸ h words

end FailsWith

end WordReader

/-! ## Policies without parts -/

namespace Leaf

open WordReader

theorem fails_valueOf {keyword value : String} (result : Except Reason α) :
    TrafficPolicy.FailsWith CommandError.Ordinary (valueOf keyword value result) := by
  cases result with
  | error reason => exact .error trivial
  | ok a => exact .ok a

theorem fails_readWithin (keyword value : String) (notInteger outside : Reason) (within : Int → Bool) :
    TrafficPolicy.FailsWith CommandError.Ordinary (readWithin keyword value notInteger outside within) := by
  refine FailsWith.bind ?_ fun n _ => ?_
  · unfold readInteger
    split
    · exact .ok _
    · exact .error trivial
  · split
    · exact .ok _
    · exact .error trivial

theorem fails_readText (kind : TextKind) : (readText kind).FailsWith CommandError.Ordinary := by
  refine .bind (.argument _ _) fun value => .bind (.ofExcept ?_) fun text => .pure _
  unfold TextValue.read
  split
  · exact .ok _
  · exact .error trivial

theorem fails_readReplace (raw : String) :
    TrafficPolicy.FailsWith CommandError.Ordinary (Mapping.readReplace raw) := by
  unfold Mapping.readReplace
  split
  · exact .error trivial
  · split
    · exact .error trivial
    · exact .ok _

theorem fails_readMap : readMap.FailsWith CommandError.Ordinary :=
  .bind (.argument _ _) fun _ =>
    .ite (.bind (.argument _ _) fun raw => .bind (.ofExcept (fails_readReplace raw)) fun _ => .pure _)
      (.ite (.ofExcept (.error trivial)) (.pure _))

theorem fails_readChunked : readChunked.FailsWith CommandError.Ordinary :=
  have hblocks : readBlocks.FailsWith CommandError.Ordinary :=
    .bind (.argument _ _) fun _ => .bind (.ofExcept (fails_readWithin _ _ _ _ _)) fun _ => .pure _
  have hsizes : readSizes.FailsWith CommandError.Ordinary :=
    .bind (.argument _ _) fun _ => .bind (.ofExcept (fails_valueOf _)) fun _ => .pure _
  .bind
    (.bind (.accept _) fun _ => .ite (.pure _) <| .bind (.accept _) fun _ => .ite (.pure _) <|
      .bind (.accept _) fun _ => .ite (.pure _) <| .bind (.accept _) fun _ => .ite hblocks <|
        .bind (.accept _) fun _ => .ite hsizes (.pure _))
    fun _ => .pure _

theorem fails_readDelay (kind : DelayKind) : (readDelay kind).FailsWith CommandError.Ordinary :=
  .bind (.accept _) fun _ => .bind (.accept _) fun _ => .bind (.argument _ _) fun _ =>
    .bind (.ofExcept (fails_valueOf _)) fun _ => .ite (.ofExcept (.error trivial)) (.pure _)

theorem fails_read (leaf : Leaf) : leaf.read.FailsWith CommandError.Ordinary := by
  cases leaf with
  | marker m => exact .pure _
  | flag switch f => exact .pure _
  | text kind => exact fails_readText kind
  | map => exact fails_readMap
  | chunked => exact fails_readChunked
  | speed =>
    exact .bind (.argument _ _) fun _ => .bind (.ofExcept (fails_valueOf _)) fun _ =>
      .ite (.ofExcept (.error trivial)) (.pure _)
  | fixedSpeed rate => exact .pure _
  | status => exact .bind (.argument _ _) fun _ => .bind (.ofExcept (fails_readWithin _ _ _ _ _)) fun _ => .pure _
  | limit => exact .bind (.argument _ _) fun _ => .bind (.ofExcept (fails_readWithin _ _ _ _ _)) fun _ => .pure _
  | delay kind => exact fails_readDelay kind

end Leaf

/-! ## Targets -/

theorem DomainPattern.fails_read (text : String) : FailsWith CommandError.Ordinary (DomainPattern.read text) := by
  unfold DomainPattern.read
  split
  · exact .error trivial
  · exact .ok _

theorem UrlPattern.fails_read (text : String) : FailsWith CommandError.Ordinary (UrlPattern.read text) := by
  unfold UrlPattern.read
  split
  · exact .error trivial
  · dsimp only
    split
    · exact .ok _
    · exact ((DomainPattern.fails_read _).map _).bind fun _ _ => .ok _

theorem UrlRule.fails_readTarget (rule : UrlRule) : rule.readTarget.FailsWith CommandError.Ordinary := by
  have hend : ∀ rule : UrlRule, (do WordReader.finish "url"; return Policy.url rule).FailsWith CommandError.Ordinary :=
    fun _ => .bind (.finish _) fun _ => .pure _
  refine .bind .next? fun text? => ?_
  cases text? with
  | none => exact hend _
  | some text => exact .bind (.ofExcept (UrlPattern.fails_read text)) fun _ => hend _

theorem DomainOptions.fails_readTarget (options : DomainOptions) :
    options.readTarget.FailsWith CommandError.Ordinary := by
  have hend : ∀ target addresses,
      (do WordReader.finish "domain"; return Policy.domain (options.rule target addresses)).FailsWith
        CommandError.Ordinary :=
    fun _ _ => .bind (.finish _) fun _ => .pure _
  refine .bind (.argument _ _) fun text => .bind (.ofExcept ?_) fun target => .bind .next? fun list? => ?_
  · unfold DomainTarget.read
    split
    · exact .ok _
    · exact (DomainPattern.fails_read text).map _
  · cases list? with
    | none => exact hend _ _
    | some list =>
      have haddress : ∀ item, FailsWith CommandError.Ordinary (DomainRule.readAddress item) := fun item => by
        unfold DomainRule.readAddress
        split
        · exact .ok _
        · exact .error trivial
      exact .bind (.ofExcept (FailsWith.mapM haddress _)) fun _ => hend _ _

theorem fails_readDeletion (scope : Scope) : (readDeletion scope).FailsWith CommandError.Ordinary :=
  .bind (.argument _ _) fun _ => .pure _

section Removal

variable {keyword : String} {words : List String}

theorem fails_readRemoval_of_none (h : Slot.ofKeyword? keyword = none) :
    FailsWith (fun error => error = .unknownKeyword keyword) (readRemoval (keyword :: words)).1 := by
  refine WordReader.FailsWith.argument_bind ?_ words
  split
  · exact .ofExcept (.error rfl)
  · rename_i slot hslot
    cases h.symm.trans hslot

theorem fails_readRemoval_of_some {slot : Slot} (h : Slot.ofKeyword? keyword = some slot) :
    FailsWith CommandError.Ordinary (readRemoval (keyword :: words)).1 := by
  have htarget : ∀ text, FailsWith CommandError.Ordinary (readTargetName text) := fun text => by
    unfold readTargetName
    split
    · exact .ok _
    · exact (UrlPattern.fails_read _).map _
  refine WordReader.FailsWith.argument_bind ?_ words
  split
  · rename_i hnone
    cases h.symm.trans hnone
  · exact .bind (.argument _ _) fun _ => .bind (.ofExcept (htarget _)) fun _ => .pure _

/-- The command to empty a slot that there is not is refused. -/
theorem readRemoval_of_none (h : Slot.ofKeyword? keyword = none) :
    (readRemoval (keyword :: words)).1 = .error (.unknownKeyword keyword) := by
  cases hread : (readRemoval (keyword :: words)).1 with
  | error error => rw [fails_readRemoval_of_none h error hread]
  | ok policy =>
    obtain ⟨removal, _, hwords, -⟩ := reads_removal.mp ⟨hread, rfl⟩
    obtain ⟨rfl, -⟩ := List.cons.inj hwords
    cases h.symm.trans removal.names

end Removal

end TrafficPolicy
