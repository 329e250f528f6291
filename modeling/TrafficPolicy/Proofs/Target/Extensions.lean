import Mathlib
import TrafficPolicy.Proofs.Target.Covering
import TrafficPolicy.Target.UrlPattern

/-!
# What a url pattern covers beyond a url

A pattern covers the url that it is written as, its stars taken for the letters that they are. What covers a url covers
the urls that say more: a longer path, and further pairs in the query.
-/

namespace TrafficPolicy

namespace Glob

theorem fills_self (label : List Char) : Fills label label := by
  induction label with
  | nil => exact .nil
  | cons c label ih =>
    by_cases hc : c = '*'
    · subst hc
      exact .star ['*'] ih
    · exact .char hc ih

/-- A star label takes itself, which is one label and not empty, wherever it stands. -/
theorem takes_self (count index : Nat) (label : List Char) : Takes count index label [label] := by
  unfold Takes
  split
  · rename_i hlabel
    subst hlabel
    split
    · simp
    · split
      · exact ⟨['*'], rfl, by simp⟩
      · simp
  · exact ⟨label, rfl, fills_self label⟩

theorem divides_self (name : List Char) : Divides name name := by
  refine ⟨(labels name).zipIdx.map fun label => [label.1], ?_, ?_⟩
  · rw [← List.flatMap_def, ← List.map_eq_flatMap, List.zipIdx_map_fst]
  · exact List.forall₂_map_right_iff.mpr (List.forall₂_same.mpr fun label _ => takes_self _ label.2 label.1)

end Glob

namespace DomainPattern

theorem covers_self (p : DomainPattern) : p.covers p.text := by
  by_cases hstar : '*' ∈ p.text.toList
  · rw [covers_iff hstar]
    split
    · rename_i hname
      simp [hname]
    · exact Glob.divides_self _
  · exact (covers_iff_of_plain hstar).mpr rfl

end DomainPattern

/-- A url says all that another one says: it has the same domain, a path that goes on where the other one ends, and all
pairs of the other query, in any order and among others. -/
structure Url.Extends (later url : Url) : Prop where
  domain : later.domain = url.domain
  path : UrlPattern.pathOf url <+: UrlPattern.pathOf later
  query : ∀ pair ∈ url.query, pair ∈ later.query

namespace UrlPattern

variable {text : String} {pattern : UrlPattern} {url later : Url}

theorem coversUrl_iff : pattern.coversUrl url ↔
    pattern.coversDomain url ∧ pattern.path.toList <+: pathOf url ∧ ∀ pair ∈ pattern.query, pair ∈ url.query := by
  simp [coversUrl, and_assoc]

theorem coversUrl_of_extends (h : pattern.coversUrl url) (hlater : later.Extends url) : pattern.coversUrl later := by
  rw [coversUrl_iff] at h ⊢
  obtain ⟨hdomain, hpath, hquery⟩ := h
  refine ⟨?_, hpath.trans hlater.path, fun pair hpair => hlater.query pair (hquery pair hpair)⟩
  simpa only [coversDomain, hlater.domain] using hdomain

theorem covers_of_read (h : read text = .ok pattern) : pattern.covers text := by
  obtain ⟨-, hdomain, hpath, hquery⟩ := parts_of_read h
  refine coversUrl_iff.mpr ⟨?_, ?_, fun pair hpair => hquery ▸ hpair⟩
  · unfold coversDomain
    cases hname : pattern.domain with
    | none => rfl
    | some name =>
      rw [hname, Option.map_some] at hdomain
      simpa only [← hdomain, Option.any_some] using name.covers_self
  · rw [hpath]
    unfold pathOf
    split
    · rename_i hempty
      simp [String.isEmpty_iff.mp hempty]
    · exact List.prefix_rfl

/-- A pattern that has been read covers its own text. Whatever url it covers, it covers every url that extends this
one. -/
theorem read_covers_self_and_extensions (h : read text = .ok pattern) :
    pattern.covers text ∧
      ∀ url later : Url, pattern.coversUrl url → later.Extends url → pattern.coversUrl later :=
  ⟨covers_of_read h, fun _ _ => coversUrl_of_extends⟩

/-- The expression for `*.g.cn`. -/
private def starred : Regex.Expression where
  source := "^(?:[^.]+\\.)*g\\.cn$"
  body := .concat ([.look .textStart, .rep Glob.pointed 0 none true] ++ "g.cn".toList.map Glob.charNode ++ [.look .textEnd])
  groups := 0
  names := []

private theorem read_starred : DomainMatcher.read (normalDomain "*.g.cn".toList) = .ok (.wildcard starred) := by
  have hexpression : Regex.Expression.read? (String.ofList (Glob.expression (normalDomain "*.g.cn".toList))) =
      some starred := by decide +kernel
  rw [DomainMatcher.read_star (by decide) hexpression, if_pos]
  cbv

/-- The star stands for itself and for two labels, and the path that the first url leaves empty goes on in the second
one. -/
theorem read_covers_self_and_extensions_star :
    ∃ pattern : UrlPattern, read "*.g.cn?q=a%20b" = .ok pattern ∧ pattern.covers "*.g.cn?q=a%20b" ∧
      pattern.covers "c.b.g.cn?q=a+b" ∧ pattern.covers "c.b.g.cn/x?p&q=a+b" := by
  let name : DomainPattern := ⟨"*.g.cn", .wildcard starred, read_starred⟩
  have hread : read "*.g.cn?q=a%20b" = .ok ⟨"*.g.cn?q=a%20b", some name, "", [("q", "a b")]⟩ := by
    have hurl : Url.read "*.g.cn?q=a%20b" = ⟨some name.text, "", [("q", "a b")]⟩ := by decide +kernel
    rw [read, if_neg (by decide), hurl]
    simp only [name.read_text, Except.map, bind, Except.bind, pure, Except.pure]
  obtain ⟨hself, hextends⟩ := read_covers_self_and_extensions hread
  have hshort : (⟨"*.g.cn?q=a%20b", some name, "", [("q", "a b")]⟩ : UrlPattern).covers "c.b.g.cn?q=a+b" := by
    decide +kernel
  refine ⟨_, hread, hself, hshort, ?_⟩
  exact hextends (Url.read "c.b.g.cn?q=a+b") (Url.read "c.b.g.cn/x?p&q=a+b") hshort
    ⟨by decide +kernel, by decide +kernel, by decide +kernel⟩

end UrlPattern

end TrafficPolicy
