import Availability.Proofs.Tour
import Mathlib.Data.List.TakeWhile

/-!
# The moments of a walk

A walk arrives at each node that it visits, and departs from it when all that is below has been
visited. The list of visits has the arrivals only; since what is below a node follows it directly,
the departures can be read off the paths.
-/
namespace Availability

open Php

/-- The walk arrives at a node or departs from it. -/
inductive Moment where
  | arrival (v : Visit)
  | departure (v : Visit)

/-- Whether a visited node is another one or stands below it. -/
def Visit.covers (v u : Visit) : Bool :=
  v.path.isPrefixOf u.path

theorem Visit.covers_iff {u v : Visit} : v.covers u = true ↔ v.path <+: u.path :=
  List.isPrefixOf_iff_prefix

end Availability
