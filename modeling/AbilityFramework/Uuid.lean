import Mathlib.Init

namespace AbilityFramework

/-- `uuids::uuid`, by its value as a 128-bit number; the nil id is 0.  The order of ids is the order of
their values. -/
abbrev Uuid := Nat

end AbilityFramework
