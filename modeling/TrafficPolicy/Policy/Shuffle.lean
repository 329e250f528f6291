import TrafficPolicy.Policy.DomainPolicy

/-!
# Random orders

An order is drawn from a seed by putting the addresses one after the other at random places.
-/

namespace TrafficPolicy.Shuffler

def shuffleFrom : StdGen → List Address → List Address
  | _, [] => []
  | gen, address :: rest =>
    let (place, gen) := randNat gen 0 rest.length
    let shuffled := shuffleFrom gen rest
    shuffled.take place ++ address :: shuffled.drop place

theorem shuffleFrom_perm (gen : StdGen) (addresses : List Address) :
    (shuffleFrom gen addresses).Perm addresses := by
  induction addresses generalizing gen with
  | nil => exact List.Perm.refl _
  | cons address rest ih =>
    refine List.perm_middle.trans (List.Perm.cons address ?_)
    rw [List.take_append_drop]
    exact ih _

def ofSeed (seed : Nat) : Shuffler where
  order := shuffleFrom (mkStdGen seed)
  perm := shuffleFrom_perm (mkStdGen seed)

end TrafficPolicy.Shuffler
