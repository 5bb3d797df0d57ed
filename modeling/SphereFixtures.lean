import SphereFixtures.Binary64
import SphereFixtures.CommandLine.Options
import SphereFixtures.Decimal.Rounded
import SphereFixtures.Decimal.Shortest
import SphereFixtures.Decimal.Text
import SphereFixtures.Demo.Arguments
import SphereFixtures.Demo.Environment
import SphereFixtures.Demo.Run
import SphereFixtures.DoublePrecision
import SphereFixtures.Fractal.EdgeCount
import SphereFixtures.Fractal.Settings
import SphereFixtures.Fractal.Snowflake
import SphereFixtures.Fractal.Subdivision
import SphereFixtures.Geometry.Cap
import SphereFixtures.Geometry.Earth
import SphereFixtures.Geometry.Frame
import SphereFixtures.Geometry.Loop
import SphereFixtures.Geometry.Polygon
import SphereFixtures.Geometry.Rect
import SphereFixtures.Geometry.Vector
import SphereFixtures.Geometry.VertexCount
import SphereFixtures.Logging.Journal
import SphereFixtures.Logging.Message
import SphereFixtures.Logging.Registry
import SphereFixtures.Logging.Review
import SphereFixtures.Logging.Setup
import SphereFixtures.Main
import SphereFixtures.Nearest.Check
import SphereFixtures.Nearest.Ident
import SphereFixtures.Nearest.Item
import SphereFixtures.Proofs.Fractal.Coverage
import SphereFixtures.Proofs.Fractal.Dimension
import SphereFixtures.Proofs.Fractal.EvenGrowth
import SphereFixtures.Proofs.Fractal.Growth
import SphereFixtures.Proofs.Fractal.Inscribed
import SphereFixtures.Proofs.Fractal.Plane
import SphereFixtures.Proofs.Fractal.Radius
import SphereFixtures.Proofs.Fractal.Realization
import SphereFixtures.Proofs.Fractal.Recursion
import SphereFixtures.Proofs.Fractal.Separation
import SphereFixtures.Proofs.Fractal.SimplePolygon
import SphereFixtures.Proofs.Logging.Delivery
import SphereFixtures.Proofs.Logging.Files
import SphereFixtures.Proofs.Logging.History
import SphereFixtures.Proofs.Logging.MismatchLog
import SphereFixtures.Proofs.Logging.Texts
import SphereFixtures.Proofs.Nearest.Admissible
import SphereFixtures.Proofs.Nearest.Equality
import SphereFixtures.Proofs.Nearest.Overlooked
import SphereFixtures.Proofs.Nearest.Ranks
import SphereFixtures.Proofs.Nearest.Verdict
import SphereFixtures.Proofs.Random.Attempt
import SphereFixtures.Proofs.Random.Stream
import SphereFixtures.Proofs.Scalars
import SphereFixtures.Proofs.Session.Accounting
import SphereFixtures.Proofs.Session.Answers
import SphereFixtures.Proofs.Signs
import SphereFixtures.Random.Seed
import SphereFixtures.Random.Twister
import SphereFixtures.Random.Words
import SphereFixtures.Sampling
import SphereFixtures.Scalar
import SphereFixtures.Session.Bench
import SphereFixtures.Session.Request
import SphereFixtures.Text.Digit
import SphereFixtures.Text.Numeral
import SphereFixtures.Text.Printable
import SphereFixtures.Text.Quoted
import SphereFixtures.Proofs.Random.Lossless
import SphereFixtures.Proofs.Random.Window
import SphereFixtures.Proofs.Random.Seeds
import SphereFixtures.Proofs.Nearest.Discrepancies
import SphereFixtures.Proofs.Nearest.Lookups
import SphereFixtures.Proofs.Nearest.Tolerances
import SphereFixtures.Proofs.Fractal.Configuration
import SphereFixtures.Proofs.Fractal.Refusal
import SphereFixtures.Proofs.Fractal.WorkStack
import SphereFixtures.Proofs.Fractal.EdgeCounts
import SphereFixtures.Proofs.Random.Chances
import SphereFixtures.Proofs.Fractal.Decisions
import SphereFixtures.Proofs.Fractal.StoppingLevels
import SphereFixtures.Proofs.Fractal.EdgeLengths
import SphereFixtures.Proofs.Fractal.Winding
import SphereFixtures.Proofs.Geometry.Orthonormal
import SphereFixtures.Proofs.Fractal.Projection
import SphereFixtures.Proofs.Random.Counts
import SphereFixtures.Proofs.Random.Skewed
import SphereFixtures.Proofs.Exactness
import SphereFixtures.Proofs.Random.Units
import SphereFixtures.Proofs.Demo.RadiusRange
import SphereFixtures.Proofs.Geometry.Directions
import SphereFixtures.Proofs.Geometry.Handedness
import SphereFixtures.Proofs.Geometry.AxisFrames
import SphereFixtures.Proofs.Geometry.Caps
import SphereFixtures.Proofs.Geometry.CapSamples
import SphereFixtures.Proofs.NotANumber
import SphereFixtures.Proofs.Geometry.Rectangles
import SphereFixtures.Proofs.Geometry.RegionMakers
import SphereFixtures.Proofs.Geometry.RegularPolygons
import SphereFixtures.Proofs.Geometry.ConcentricLoops
import SphereFixtures.Proofs.Fractal.RadiusFactors
import SphereFixtures.Proofs.Fractal.RoundedLogarithms
