import SphereFixtures.Random.Seed
import SphereFixtures.Sampling

/-!
# Requests to a source

Everything that a source can be asked for, as data: what a request answers,
when it is refused, and how many words it takes.
-/

namespace SphereFixtures

inductive Request (α : Type) [Scalar α] where
  | reset (seed : Int)
  | word
  | wide
  | unit
  | below (n : Int)
  | between (lo hi : α)
  | oneIn (n : Int)
  | skewed (width : Int)
  | point
  | frameAt (z : Vec3 α)
  | frame
  | cap (least greatest : α)
  | pointInCap (cap : Cap α)
  | pointInRect (rect : LatLngRect α)

inductive Reply (α : Type) [Scalar α] where
  | done
  | number (value : Nat)
  | scalar (value : α)
  | decision (value : Bool)
  | point (value : Vec3 α)
  | frame (value : Frame α)
  | cap (value : Cap α)

inductive RequestError (α : Type) where
  | seed (error : SeedError)
  | draw (error : DrawError)
  | sample (error : SampleError α)

namespace RequestError

def message : RequestError Float -> String
  | .seed error => error.message
  | .draw error => error.message
  | .sample error => error.message

end RequestError

namespace Request

variable {α : Type} [Scalar α] {σ : Type} [SeededSource σ]

def restart (seed : Int) : Attempt SeedError σ Unit := do
  let seed ← (Seed.ofInt seed : Except SeedError Seed)
  set (SeededSource.ofSeed seed : σ)

def serve (request : Request α) : Attempt (RequestError α) σ (Reply α) :=
  match request with
  | .reset seed => do (restart seed).adapt .seed; return .done
  | .word => do return .number (← (Draw.word : Draw σ UInt32)).toNat
  | .wide => do return .number (← (Draw.wide : Draw σ Nat))
  | .unit => do return .scalar (← (Draw.unit : Draw σ α))
  | .below n => do return .number (← (Draw.below n).adapt .draw)
  | .between lo hi => do return .scalar (← (Draw.between lo hi : Draw σ α))
  | .oneIn n => do return .decision (← (Draw.oneIn n).adapt .draw)
  | .skewed width => do return .number (← (Draw.skewed width).adapt .draw)
  | .point => do return .point (← (Sampling.point : Draw σ (Vec3 α)))
  | .frameAt z => do return .frame (← (Sampling.frameAt z : Draw σ (Frame α)))
  | .frame => do return .frame (← (Sampling.frame : Draw σ (Frame α)))
  | .cap least greatest => do
      return .cap (← (Sampling.cap least greatest).adapt .sample)
  | .pointInCap region => do
      return .point (← (Sampling.pointInCap region : Draw σ (Vec3 α)))
  | .pointInRect region => do
      return .point (← (Sampling.pointInRect region : Draw σ (Vec3 α)))

end Request

end SphereFixtures
