import TrafficPolicy.Grammar.Registry

/-!
# The keywords of the language

No keyword is registered twice in the standard registry, so that each is read in the way that it is listed with.
-/

namespace TrafficPolicy

/-- What the keywords of the language are read as. -/
inductive Keyword : String → Builder → Prop
  | marker (m : Marker) : Keyword m.keyword (.leaf (.marker m))
  | flag {switch : Switch} {f : Flag} : f ∈ switch.flags → Keyword f.keyword (.leaf (.flag switch f))
  | text (kind : TextKind) : Keyword kind.keyword (.leaf (.text kind))
  | map : Keyword "map" (.leaf .map)
  | chunked : Keyword "chunked" (.leaf .chunked)
  | speed : Keyword "speed" (.leaf .speed)
  | status : Keyword "status" (.leaf .status)
  | limit : Keyword "n" (.leaf .limit)
  | delay (kind : DelayKind) : Keyword kind.keyword (.leaf (.delay kind))
  | url : Keyword "url" .url
  | domain : Keyword "domain" .domain

namespace Registry

variable {keyword : String} {builder : Builder}

theorem mem_standardEntries_iff : (keyword, builder) ∈ standardEntries ↔ Keyword keyword builder := by
  constructor
  · intro h
    simp only [standardEntries, List.mem_append, List.mem_map, List.mem_flatMap, List.mem_cons, Prod.mk.injEq,
      List.not_mem_nil, or_false] at h
    rcases h with ((((⟨m, -, rfl, rfl⟩ | ⟨switch, -, f, hf, rfl, rfl⟩) | ⟨kind, -, rfl, rfl⟩) | h) |
      ⟨kind, -, rfl, rfl⟩) | ⟨rfl, rfl⟩ | ⟨rfl, rfl⟩
    · exact .marker m
    · exact .flag hf
    · exact .text kind
    · rcases h with ⟨rfl, rfl⟩ | ⟨rfl, rfl⟩ | ⟨rfl, rfl⟩ | ⟨rfl, rfl⟩ | ⟨rfl, rfl⟩
      · exact .map
      · exact .chunked
      · exact .speed
      · exact .status
      · exact .limit
    · exact .delay kind
    · exact .url
    · exact .domain
  · intro h
    cases h with
    | marker m => simp [standardEntries, Marker.mem_all]
    | flag hf =>
      simp only [standardEntries, List.mem_append, List.mem_flatMap, List.mem_map]
      exact .inl (.inl (.inl (.inl (.inr ⟨_, by rename_i switch _; cases switch <;> simp, _, hf, rfl⟩))))
    | text kind => simp [standardEntries, TextKind.mem_all]
    | delay kind => cases kind <;> simp [standardEntries, DelayKind.all]
    | _ => simp [standardEntries]

theorem builder?_standard_iff : standard.builder? keyword = some builder ↔ Keyword keyword builder := by
  have hentries : standard.entries = standardEntries.reverse := by decide +kernel
  have hlookup : ∀ entry ∈ standardEntries, standard.builder? entry.1 = some entry.2 := by decide +kernel
  rw [← mem_standardEntries_iff]
  constructor
  · intro h
    obtain ⟨before, after, heq, -⟩ := List.lookup_eq_some_iff.mp h
    rw [← List.mem_reverse, ← hentries, heq]
    exact List.mem_append_right _ List.mem_cons_self
  · exact hlookup (keyword, builder)

theorem builder?_url : standard.builder? "url" = some .url := builder?_standard_iff.mpr .url

theorem builder?_domain : standard.builder? "domain" = some .domain := builder?_standard_iff.mpr .domain

end Registry

end TrafficPolicy
