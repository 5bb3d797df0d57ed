/-!
# Scalars

The geometry of this library is written once, over any type that has the
operations below.  It runs at double precision; statements about exact
arithmetic read the same definitions at the real numbers.
-/

namespace SphereFixtures

/-- Numbers with the operations that spherical geometry needs.  Comparisons
need not be total: an element that is not comparable with itself is allowed,
and every test in this library says which way it falls. -/
class Scalar (α : Type) extends Add α, Sub α, Mul α, Div α, Neg α, LT α, LE α,
    BEq α, OfScientific α, NatCast α where
  decidableLT : DecidableLT α
  decidableLE : DecidableLE α
  pi : α
  abs : α -> α
  sqrt : α -> α
  sin : α -> α
  cos : α -> α
  asin : α -> α
  log : α -> α
  /-- The angle of the point `(x, y)`, as `atan2 y x`. -/
  atan2 : α -> α -> α
  hypot : α -> α -> α
  pow : α -> α -> α

namespace Scalar

instance (α : Type) [Scalar α] : DecidableLT α := Scalar.decidableLT

instance (α : Type) [Scalar α] : DecidableLE α := Scalar.decidableLE

section

variable {α : Type} [Scalar α]

/-- The smaller of a bound and a value; the bound stands when they do not
compare. -/
def atMost (bound x : α) : α :=
  if x < bound then x else bound

/-- The larger of a bound and a value; the bound stands when they do not
compare. -/
def atLeast (bound x : α) : α :=
  if bound < x then x else bound

/-- Whether a number is finite, which is when it is at distance zero from
itself. -/
def isFinite (x : α) : Bool :=
  x - x == 0.0

def square (x : α) : α :=
  x * x

def degreesToRadians (x : α) : α :=
  x * (pi / 180.0)

def radiansToDegrees (x : α) : α :=
  x * (180.0 / pi)

end

end Scalar

end SphereFixtures
