/-
  CallFeed — which methods are reported on which feed.

  * `DispatchRules` are the methods exempt from each feed, named one after the other
    (`exemptFrom`); `emitsTo` is what they decide;
  * two rules are the same if they exempt the same methods (`DispatchRules.same`),
    whatever the order in which the methods were named and how often.
-/
import CallFeed.Event

namespace CallFeed

/-- The methods that are not reported on a feed. -/
structure DispatchRules where
  logExempt : List String := []
  statExempt : List String := []
  deriving DecidableEq, Repr

namespace DispatchRules

/-- The rules with one more method exempt from a feed. -/
def exemptFrom (r : DispatchRules) (method : String) : Feed → DispatchRules
  | .log => { r with logExempt := r.logExempt ++ [method] }
  | .stat => { r with statExempt := r.statExempt ++ [method] }

def exempt (r : DispatchRules) : Feed → List String
  | .log => r.logExempt
  | .stat => r.statExempt

/-- Whether calls of a method are reported on a feed. -/
def emitsTo (r : DispatchRules) (feed : Feed) (method : String) : Bool :=
  !(r.exempt feed).contains method

/-- The feeds that calls of a method are reported on, in the order of reporting. -/
def feedsOf (r : DispatchRules) (method : String) : List Feed :=
  [Feed.log, Feed.stat].filter (r.emitsTo · method)

def sameMethods (xs ys : List String) : Bool :=
  xs.all ys.contains && ys.all xs.contains

/-- Whether two rules exempt the same methods. -/
def same (r s : DispatchRules) : Bool :=
  sameMethods r.logExempt s.logExempt && sameMethods r.statExempt s.statExempt

end DispatchRules

end CallFeed
