import TrafficPolicy.Proofs.Text.Blank
import TrafficPolicy.Target.DomainPattern

/-!
# Normal forms of domains

What is dropped and what is changed for the normal form of a domain.
-/

namespace TrafficPolicy

private theorem toLower_eq_star {c : Char} : c.toLower = '*' ↔ c = '*' := by
  unfold Char.toLower
  split
  · rename_i hc
    have h65 : 65 ≤ c.val.toNat := UInt32.le_iff_toNat_le.mp hc.1
    have h90 : c.val.toNat ≤ 90 := UInt32.le_iff_toNat_le.mp hc.2
    constructor
    · intro h
      have hval : (c.val + ('a'.val - 'A'.val)).toNat = 42 := congrArg (fun c : Char => c.val.toNat) h
      rw [UInt32.toNat_add, show ('a'.val - 'A'.val).toNat = 32 from rfl] at hval
      omega
    · rintro rfl
      simp at h65
  · rfl

/-- The normal form of a domain keeps the stars. -/
theorem star_mem_normalDomain {domain : List Char} : '*' ∈ normalDomain domain ↔ '*' ∈ domain := by
  unfold normalDomain Text.lower Text.trim
  rw [List.mem_map]
  simp only [toLower_eq_star, exists_eq_right]
  rw [Text.mem_dropTailWhile (by decide), Text.mem_dropTailWhile (by decide), Text.mem_dropWhile (by decide)]

end TrafficPolicy
