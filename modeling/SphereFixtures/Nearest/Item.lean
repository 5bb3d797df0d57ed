import SphereFixtures.DoublePrecision
import SphereFixtures.Nearest.Ident
import SphereFixtures.Scalar

/-!
# Items at a distance

The results of a search are items with their distances.  Two results are the
same when both parts are equal; one that is not equal to itself is the same as
none.
-/

namespace SphereFixtures

namespace Nearest

structure Item (α : Type) where
  distance : α
  id : Ident

variable {α : Type} [Scalar α]

namespace Item

def same (a b : Item α) : Bool :=
  a.distance == b.distance && a.id.equal b.id

end Item

def occurrences (items : List (Item α)) (item : Item α) : Nat :=
  items.countP item.same

end Nearest

end SphereFixtures
