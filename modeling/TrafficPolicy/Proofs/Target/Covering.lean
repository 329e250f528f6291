import TrafficPolicy.Proofs.Target.Expression
import TrafficPolicy.Proofs.Target.Normal

/-!
# What a domain pattern covers

A pattern is refused if nothing is left of it in normal form, and else only if it has a star and its expression takes
too much memory. It covers the domain that it is, or with a star the domains that can be divided among its labels.
-/

namespace TrafficPolicy

namespace DomainMatcher

variable {name : List Char} {matcher : DomainMatcher}

/-- The expression for a name is never malformed. -/
theorem read_star (hstar : '*' ∈ name) {expression : Regex.Expression}
    (h : Regex.Expression.read? (String.ofList (Glob.expression name)) = some expression) :
    read name = if expression.body.fits then .ok (.wildcard expression)
      else .error (.badRegex (.oversized Regex.sizeLimit)) := by
  have hne : name ≠ [] := List.ne_nil_of_mem hstar
  rw [read, if_neg hne, if_pos (List.contains_iff_mem.mpr hstar), Regex.compile, h]
  cases hfits : expression.body.fits <;> simp [hfits]

theorem read_plain (hne : name ≠ []) (hplain : '*' ∉ name) : read name = .ok (.exact name) := by
  rw [read, if_neg hne, if_neg (by simpa using hplain)]

theorem read_error_iff {expression : Regex.Expression}
    (h : Regex.Expression.read? (String.ofList (Glob.expression name)) = some expression) :
    (∃ fault, read name = .error fault) ↔ name = [] ∨ ('*' ∈ name ∧ expression.body.fits = false) := by
  by_cases hne : name = []
  · simp [read, hne]
  · by_cases hstar : '*' ∈ name
    · rw [read_star hstar h]
      cases expression.body.fits <;> simp [hne, hstar]
    · rw [read_plain hne hstar]
      simp [hne, hstar]

theorem eq_wildcard_of_read (h : read name = .ok matcher) (hstar : '*' ∈ name) {expression : Regex.Expression}
    (hread : Regex.Expression.read? (String.ofList (Glob.expression name)) = some expression) :
    matcher = .wildcard expression := by
  rw [read_star hstar hread] at h
  split at h <;> cases h
  rfl

theorem eq_exact_of_read (h : read name = .ok matcher) (hplain : '*' ∉ name) : matcher = .exact name := by
  by_cases hne : name = []
  · simp [read, hne] at h
  · rw [read_plain hne hplain] at h
    cases h
    rfl

end DomainMatcher

namespace DomainPattern

theorem isWildcard_iff (p : DomainPattern) : p.isWildcard ↔ '*' ∈ p.text.toList := by
  rw [← star_mem_normalDomain]
  obtain ⟨expression, hread, -⟩ := Glob.read?_expression (normalDomain p.text.toList)
  unfold isWildcard
  by_cases hstar : '*' ∈ normalDomain p.text.toList
  · simp [DomainMatcher.eq_wildcard_of_read p.built hstar hread, hstar]
  · simp [DomainMatcher.eq_exact_of_read p.built hstar, hstar]

theorem covers_iff_of_plain {p : DomainPattern} (hplain : '*' ∉ p.text.toList) {candidate : String} :
    p.covers candidate ↔ p.name = normalDomain candidate.toList := by
  rw [← star_mem_normalDomain] at hplain
  rw [covers, DomainMatcher.eq_exact_of_read p.built hplain, DomainMatcher.covers, beq_iff_eq, name]

theorem covers_iff {p : DomainPattern} (hstar : '*' ∈ p.text.toList) {candidate : String} :
    p.covers candidate ↔
      if normalDomain p.text.toList = ['*'] then '\n' ∉ normalDomain candidate.toList
      else Glob.Divides (normalDomain p.text.toList) (normalDomain candidate.toList) := by
  rw [← star_mem_normalDomain] at hstar
  obtain ⟨expression, hread, hmatch⟩ := Glob.read?_expression (normalDomain p.text.toList)
  rw [covers, DomainMatcher.eq_wildcard_of_read p.built hstar hread, DomainMatcher.covers, hmatch]

/-- The text that is put together for a pattern is always read as an expression. The pattern is refused if its normal
form is empty, and else only if it has a star and the expression is too long to be searched for. With a star it is
compared as that expression, and it covers the domains that can be divided among its labels; if it is just a star, it
covers those of one line. -/
theorem read_covers_iff_divides (text : String) :
    ∃ expression, Regex.Expression.read? (String.ofList (Glob.expression (normalDomain text.toList))) = some expression ∧
      ((∃ e, read text = .error e) ↔
        normalDomain text.toList = [] ∨ ('*' ∈ text.toList ∧ expression.body.fits = false)) ∧
      ∀ pattern, read text = .ok pattern → '*' ∈ text.toList →
        pattern.matcher = .wildcard expression ∧ ∀ candidate : String,
          (pattern.covers candidate ↔
            if normalDomain text.toList = ['*'] then '\n' ∉ normalDomain candidate.toList
            else Glob.Divides (normalDomain text.toList) (normalDomain candidate.toList)) := by
  obtain ⟨expression, hread, -⟩ := Glob.read?_expression (normalDomain text.toList)
  refine ⟨expression, hread, ?_, fun pattern hpattern hstar => ?_⟩
  · rw [← star_mem_normalDomain, ← DomainMatcher.read_error_iff hread, read]
    split
    · rename_i fault h
      simp [h]
    · rename_i matcher h
      simp [h]
  · obtain rfl := text_of_read hpattern
    exact ⟨DomainMatcher.eq_wildcard_of_read pattern.built (star_mem_normalDomain.mpr hstar) hread,
      fun candidate => covers_iff hstar⟩

end DomainPattern

end TrafficPolicy
