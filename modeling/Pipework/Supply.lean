import Pipework.Uuid

/-!
# Fresh identifiers

New records and preparation passes get identifiers from a supply, one after the other. A supply that
has not given the same identifier twice is `Fresh`.
-/

namespace Pipework

structure Supply where
  /-- The identifiers in the order in which they are given out. -/
  sequence : Nat → Uuid
  /-- How many have been given out. -/
  used : Nat := 0

namespace Supply

/-- The next identifier and the supply without it. -/
def next (s : Supply) : Uuid × Supply := (s.sequence s.used, { s with used := s.used + 1 })

/-- No identifier has been given out twice. -/
def Fresh (s : Supply) : Prop :=
  ∀ i < s.used, ∀ j < s.used, s.sequence i = s.sequence j → i = j

end Supply

end Pipework
