/-!
What ends a run that has no result.
-/

namespace PolledAta

inductive Fault where
  /-- An access past the end of a buffer, a page or an image. -/
  | outOfRange
  /-- A number that does not fit its machine word. -/
  | overflow
  /-- A wait that no value of the clock ends. -/
  | endless
  deriving DecidableEq

end PolledAta
