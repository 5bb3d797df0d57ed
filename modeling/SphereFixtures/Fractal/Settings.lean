import SphereFixtures.DoublePrecision
import SphereFixtures.Decimal.Text
import SphereFixtures.Fractal.EdgeCount
import SphereFixtures.Random.Words

/-!
# Settings of a fractal

The last accepted value of each setting, and what follows from them: the level
from which the subdivision may stop, the proportions of a subdivided edge, and
the radii that enclose the boundary.
-/

namespace SphereFixtures

open Scalar

/-!
## Accepted values
-/

inductive Setting (α : Type) where
  | maxLevel (level : Int)
  | minLevel (level : Int)
  | maxEdges (count : Int)
  | minEdges (count : Int)
  | dimension (value : α)
deriving Repr

inductive SettingError (α : Type) where
  | negativeMaxLevel (level : Int)
  | minLevelTooLow (level : Int)
  | dimensionOutOfRange (value : α)
deriving Repr

namespace SettingError

def message : SettingError Float -> String
  | .negativeMaxLevel level => s!"'max_level' must be non-negative, got {level}."
  | .minLevelTooLow level => s!"'min_level' must be >= -1, got {level}."
  | .dimensionOutOfRange value =>
      "Fractal dimension must lie in [1.0, 2.0), got "
        ++ Decimal.shortestText value ++ "."

end SettingError

inductive SettingWarning (α : Type) where
  | sidesMayStay
  | nearlyDegenerate (dimension : α)
deriving Repr

namespace SettingWarning

def message : SettingWarning Float -> String
  | .sidesMayStay =>
      "A min level of 0 may leave all three original edges unsubdivided."
  | .nearlyDegenerate dimension =>
      s!"Fractal dimension {Decimal.shortestText dimension} produces nearly degenerate offsets."

end SettingWarning

/-- The settings of a fractal.  A level of `-1` is one that is not set; the
minimum is then the same as the maximum. -/
structure Settings (α : Type) where
  maxLevel : Int
  minLevel : Int
  dimension : α
deriving DecidableEq, Repr

namespace Settings

/-- The dimension of the standard snowflake, whose edges have thirds. -/
def snowflakeDimension {α : Type} [Scalar α] : α :=
  log 4.0 / log 3.0

def initial {α : Type} [Scalar α] : Settings α :=
  { maxLevel := -1, minLevel := -1, dimension := snowflakeDimension }

variable {α : Type}

def setMaxLevel (s : Settings α) (level : Int) :
    Except (SettingError α) (Settings α) :=
  if level < 0 then .error (.negativeMaxLevel level)
  else .ok { s with maxLevel := level }

def setMinLevel (s : Settings α) (level : Int) :
    Except (SettingError α) (Settings α) :=
  if level < -1 then .error (.minLevelTooLow level)
  else .ok { s with minLevel := level }

variable [Scalar α]

def setDimension (s : Settings α) (value : α) :
    Except (SettingError α) (Settings α) :=
  if (1.0 : α) ≤ value ∧ value < (2.0 : α) then
    .ok { s with dimension := value }
  else
    .error (.dimensionOutOfRange value)

/-- Change one setting.  A value that is not accepted changes nothing. -/
def set (s : Settings α) : Setting α -> Except (SettingError α) (Settings α)
  | .maxLevel level => s.setMaxLevel level
  | .minLevel level => s.setMinLevel level
  | .maxEdges count => s.setMaxLevel (EdgeCount.level count)
  | .minEdges count => s.setMinLevel (EdgeCount.level count)
  | .dimension value => s.setDimension value

end Settings

namespace Setting

variable {α : Type} [Scalar α]

def minLevelWarnings (level : Int) : List (SettingWarning α) :=
  if level = 0 then [.sidesMayStay] else []

def warnings : Setting α -> List (SettingWarning α)
  | .minLevel level => minLevelWarnings level
  | .minEdges count => minLevelWarnings (EdgeCount.level count)
  | .dimension value =>
      if (1.9 : α) < value then [.nearlyDegenerate value] else []
  | .maxLevel _ => []
  | .maxEdges _ => []

end Setting

/-!
## What follows from the settings
-/

namespace Settings

/-- The level from which the subdivision may stop: the minimum level if it is
set and not above the maximum, and the maximum otherwise. -/
def leastLevel {α : Type} (s : Settings α) : Int :=
  if 0 ≤ s.minLevel ∧ s.minLevel ≤ s.maxLevel then s.minLevel else s.maxLevel

variable {α : Type} [Scalar α]

/-- The length of a new edge as a fraction of the subdivided one: four edges of
this length have the wanted dimension. -/
def edgeFraction (s : Settings α) : α :=
  pow 4.0 (-1.0 / s.dimension)

/-- The distance of the middle vertex from the subdivided edge, as a fraction
of its length. -/
def offsetFraction (s : Settings α) : α :=
  sqrt (s.edgeFraction - 0.25)

/-- From this dimension on the boundary is closest to the center at a vertex of
the first subdivision: the dimension at which such a vertex is as far from the
center as a corner of the triangle. -/
def firstVertexDimension : α := 1.0852230903040407

/-- A lower bound on the distance of the boundary from the center, for a
nominal radius of one. -/
def minRadiusFactor (s : Settings α) : α :=
  if firstVertexDimension ≤ s.dimension then
    let e := s.edgeFraction
    sqrt (1.0 + 3.0 * e * (e - 1.0))
  else
    0.5

/-- The greatest distance of the boundary from the center, attained at a corner
of the triangle or at a middle vertex of the first subdivision. -/
def maxRadiusFactor (s : Settings α) : α :=
  atLeast 1.0 (s.offsetFraction * sqrt 3.0 + 0.5)

def text (s : Settings Float) : String :=
  s!"Fractal(max_level={s.maxLevel}, min_level={s.minLevel}, dimension="
    ++ Decimal.fixedText 4 s.dimension ++ ")"

end Settings

end SphereFixtures
