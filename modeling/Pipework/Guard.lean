/-!
# The execution guard

While a deployment is dispatched, further runs are suppressed. Suppressing gives a token that
holds what was there before; releasing the token brings that back.
-/

namespace Pipework

structure Guard where
  suppressed : Bool := false
  deriving DecidableEq, Repr, Inhabited

/-- What a release brings back. -/
structure Suppression where
  previous : Bool
  deriving DecidableEq, Repr

namespace Guard

def suppress (g : Guard) : Guard × Suppression := (⟨true⟩, ⟨g.suppressed⟩)

def release (s : Suppression) : Guard := ⟨s.previous⟩

end Guard

end Pipework
