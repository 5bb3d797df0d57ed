import SphereFixtures.Proofs.Random.Attempt
import SphereFixtures.Proofs.Random.Stream
import SphereFixtures.Proofs.Signs
import SphereFixtures.Session.Request

/-!
# Answers from words

What a request answers is a function of the words that the source yields, and
what it takes of them depends on the request alone.  A request that is refused
takes none.
-/

namespace SphereFixtures

open WordSource

variable {α σ : Type} [Scalar α]

/-!
## Draws
-/

namespace Words

/-- The number of the unit interval that two words make. -/
def unitFrom (w : Nat -> UInt32) (first : Nat) : α :=
  unit (w first) (w (first + 1))

/-- The point of the sphere that six words make. -/
def pointFrom (w : Nat -> UInt32) (first : Nat) : Vec3 α :=
  Vec3.normalize
    { x := between (-1.0) 1.0 (unitFrom w first)
      y := between (-1.0) 1.0 (unitFrom w (first + 2))
      z := between (-1.0) 1.0 (unitFrom w (first + 4)) }

variable [WordSource σ]

@[simp] theorem unitFrom_stream_skip (n first : Nat) (s : σ) :
    (unitFrom (stream (skip n s)) first : α) = unitFrom (stream s) (n + first) := by
  rw [unitFrom, stream_skip, stream_skip]
  rfl

@[simp] theorem pointFrom_stream_skip (n first : Nat) (s : σ) :
    (pointFrom (stream (skip n s)) first : Vec3 α) =
      pointFrom (stream s) (n + first) := by
  simp only [pointFrom, unitFrom_stream_skip, Nat.add_assoc]

end Words

namespace Draw

open Words

variable [WordSource σ]

theorem unit_apply (s : σ) :
    (unit : Draw σ α) s = (unitFrom (stream s) 0, skip 2 s) :=
  pair_apply Words.unit s

theorem between_apply (lo hi : α) (s : σ) :
    between lo hi s = (Words.between lo hi (unitFrom (stream s) 0), skip 2 s) := by
  rw [between, bind_apply, unit_apply]
  rfl

theorem below_apply (n : Int) (s : σ) :
    (below n : Attempt DrawError σ Nat) s =
      if 0 < n ∧ n ≤ DrawError.maxBound then
        (.ok (Words.below n.toNat (stream s 0) (stream s 1)), skip 2 s)
      else (.error (.bound n), s) := by
  rw [below, checkBound]
  split <;> rfl

theorem oneIn_apply (n : Int) (s : σ) :
    (oneIn n : Attempt DrawError σ Bool) s =
      if 0 < n ∧ n ≤ DrawError.maxBound then
        (.ok (Words.hit n.toNat (stream s 0) (stream s 1)), skip 2 s)
      else (.error (.bound n), s) := by
  rw [oneIn, checkBound]
  split <;> rfl

/-- A width in range is a bound in range, so the second check never fails. -/
theorem skewed_apply (width : Int) (s : σ) :
    (skewed width : Attempt DrawError σ Nat) s =
      if 0 ≤ width ∧ width ≤ DrawError.maxWidth then
        (.ok (Words.lowBits
          (Words.below (width.toNat + 1) (stream s 0) (stream s 1)) (stream s 2)),
          skip 3 s)
      else (.error (.width width), s) := by
  rw [skewed, checkWidth]
  split
  · next h =>
      have hbound : 0 < ((width.toNat + 1 : Nat) : Int) ∧
          ((width.toNat + 1 : Nat) : Int) ≤ DrawError.maxBound := by
        have hwidth := h.right
        simp only [DrawError.maxBound, DrawError.maxWidth] at hwidth ⊢
        omega
      show (below (width.toNat + 1 : Nat) >>= fun bits => liftM word >>= fun last =>
        pure (Words.lowBits bits last) : Attempt DrawError σ Nat) s = _
      rw [Attempt.bind_apply, below_apply, if_pos hbound]
      rfl
  · rfl

end Draw

namespace Sampling

open Words

variable [WordSource σ]

theorem point_apply (s : σ) :
    (point : Draw σ (Vec3 α)) s = (pointFrom (stream s) 0, skip 6 s) := by
  simp only [point, Draw.bind_apply, Draw.between_apply, skip_skip,
    unitFrom_stream_skip]
  rfl

theorem frameAt_apply (z : Vec3 α) (s : σ) :
    frameAt z s = (frameFacing z (pointFrom (stream s) 0), skip 6 s) := by
  rw [frameAt, Draw.bind_apply, point_apply]
  rfl

theorem frame_apply (s : σ) :
    (frame : Draw σ (Frame α)) s =
      (frameFacing (pointFrom (stream s) 0) (pointFrom (stream s) 6),
        skip 12 s) := by
  simp only [frame, Draw.bind_apply, point_apply, frameAt_apply, skip_skip,
    pointFrom_stream_skip]

theorem pointInCap_apply (cap : Cap α) (s : σ) :
    pointInCap cap s =
      (pointBelowTop cap (unitFrom (stream s) 0 * cap.height)
        (2.0 * Scalar.pi * unitFrom (stream s) 2), skip 4 s) := by
  simp only [pointInCap, Draw.bind_apply, Draw.unit_apply, skip_skip,
    unitFrom_stream_skip]
  rfl

theorem pointInRect_apply (rect : LatLngRect α) (s : σ) :
    pointInRect rect s =
      (Vec3.ofLatLng (latitudeAt rect (unitFrom (stream s) 0))
        (longitudeAt rect (unitFrom (stream s) 2)), skip 4 s) := by
  simp only [pointInRect, Draw.bind_apply, Draw.unit_apply, skip_skip,
    unitFrom_stream_skip]
  rfl

/-- The area is drawn before the center. -/
theorem cap_apply (least greatest : α) (s : σ) :
    (cap least greatest : Attempt (SampleError α) σ (Cap α)) s =
      if (0.0 : α) < least ∧ least ≤ greatest then
        ((Cap.ofArea (pointFrom (stream s) 2)
          (areaBetween least greatest (unitFrom (stream s) 0))).mapError .cap,
          skip 8 s)
      else (.error (.areas least greatest), s) := by
  rw [cap]
  split
  · simp only [Attempt.draw_bind_apply, Draw.unit_apply, point_apply, skip_skip,
      pointFrom_stream_skip]
    rfl
  · rfl

end Sampling

/-!
## Requests
-/

namespace Seed

theorem ofInt_eq_ok {seed : Int} (h : -2147483648 ≤ seed ∧ seed ≤ 2147483647) :
    ofInt seed =
      .ok { value := seed, least_le := h.left, le_greatest := h.right } :=
  dif_pos h

theorem ofInt_eq_error {seed : Int}
    (h : ¬ (-2147483648 ≤ seed ∧ seed ≤ 2147483647)) :
    ofInt seed = .error (.outOfRange seed) :=
  dif_neg h

end Seed

namespace Request

open Words Sampling

/-- Whether the arguments of a request are in range. -/
def Accepted : Request α -> Prop
  | .reset seed => -2147483648 ≤ seed ∧ seed ≤ 2147483647
  | .below n | .oneIn n => 0 < n ∧ n ≤ DrawError.maxBound
  | .skewed width => 0 ≤ width ∧ width ≤ DrawError.maxWidth
  | .cap least greatest => (0.0 : α) < least ∧ least ≤ greatest
  | _ => True

instance : DecidablePred (Accepted : Request α -> Prop)
  | .reset _ | .below _ | .oneIn _ | .skewed _ | .cap _ _ =>
      inferInstanceAs (Decidable (_ ∧ _))
  | .word | .wide | .unit | .between _ _ | .point | .frameAt _ | .frame
  | .pointInCap _ | .pointInRect _ => isTrue trivial

/-- How many words a request takes when it is accepted. -/
def words : Request α -> Nat
  | .reset _ => 0
  | .word => 1
  | .wide | .unit | .below _ | .between _ _ | .oneIn _ => 2
  | .skewed _ => 3
  | .point | .frameAt _ => 6
  | .frame => 12
  | .cap _ _ => 8
  | .pointInCap _ | .pointInRect _ => 4

def cost (request : Request α) : Nat :=
  if request.Accepted then request.words else 0

/-- What a request answers to a source that yields the given words. -/
def answer (request : Request α) (w : Nat -> UInt32) :
    Except (RequestError α) (Reply α) :=
  match request with
  | .reset seed => (Seed.ofInt seed).mapError .seed |>.map fun _ => .done
  | .word => .ok (.number (w 0).toNat)
  | .wide => .ok (.number (Words.wide (w 0) (w 1)))
  | .unit => .ok (.scalar (unitFrom w 0))
  | .below n =>
      if 0 < n ∧ n ≤ DrawError.maxBound then
        .ok (.number (Words.below n.toNat (w 0) (w 1)))
      else .error (.draw (.bound n))
  | .between lo hi => .ok (.scalar (Words.between lo hi (unitFrom w 0)))
  | .oneIn n =>
      if 0 < n ∧ n ≤ DrawError.maxBound then
        .ok (.decision (Words.hit n.toNat (w 0) (w 1)))
      else .error (.draw (.bound n))
  | .skewed width =>
      if 0 ≤ width ∧ width ≤ DrawError.maxWidth then
        .ok (.number
          (Words.lowBits (Words.below (width.toNat + 1) (w 0) (w 1)) (w 2)))
      else .error (.draw (.width width))
  | .point => .ok (.point (pointFrom w 0))
  | .frameAt z => .ok (.frame (frameFacing z (pointFrom w 0)))
  | .frame => .ok (.frame (frameFacing (pointFrom w 0) (pointFrom w 6)))
  | .cap least greatest =>
      if (0.0 : α) < least ∧ least ≤ greatest then
        (Cap.ofArea (pointFrom w 2) (areaBetween least greatest (unitFrom w 0)))
          |>.mapError SampleError.cap |>.mapError .sample |>.map Reply.cap
      else .error (.sample (.areas least greatest))
  | .pointInCap region =>
      .ok (.point (pointBelowTop region (unitFrom w 0 * region.height)
        (2.0 * Scalar.pi * unitFrom w 2)))
  | .pointInRect region =>
      .ok (.point (Vec3.ofLatLng (latitudeAt region (unitFrom w 0))
        (longitudeAt region (unitFrom w 2))))

/-- An answer is made of no more words than its request takes. -/
theorem answer_congr (request : Request α) {w w' : Nat -> UInt32}
    (h : forall i, i < request.cost -> w i = w' i) :
    request.answer w = request.answer w' := by
  by_cases haccepted : request.Accepted
  · rw [cost, if_pos haccepted] at h
    cases request <;> simp only [words] at h <;>
      simp (disch := decide) only [answer, unitFrom, pointFrom, h]
  · cases request with
    | reset seed => rfl
    | below n | oneIn n | skewed n | cap least greatest =>
        exact (if_neg haccepted).trans (if_neg haccepted).symm
    | _ => exact absurd trivial haccepted

/-- The seed from which a request restarts a source. -/
def seed? : Request α -> Option Seed
  | .reset seed => (Seed.ofInt seed).toOption
  | _ => none

theorem seed?_eq_some_iff (request : Request α) (seed : Seed) :
    request.seed? = some seed <-> request = .reset seed.value := by
  constructor
  · intro h
    cases request with
    | reset n =>
        by_cases hn : -2147483648 ≤ n ∧ n ≤ 2147483647
        · rw [seed?, Seed.ofInt_eq_ok hn] at h
          cases h
          rfl
        · rw [seed?, Seed.ofInt_eq_error hn] at h
          cases h
    | _ => cases h
  · intro h
    rw [h, seed?, Seed.ofInt_eq_ok ⟨seed.least_le, seed.le_greatest⟩]
    rfl

theorem seed?_eq_none_of_not_accepted (request : Request α)
    (h : ¬ request.Accepted) : request.seed? = none := by
  apply Option.eq_none_iff_forall_ne_some.mpr
  intro seed hseed
  rw [(seed?_eq_some_iff request seed).mp hseed] at h
  exact h ⟨seed.least_le, seed.le_greatest⟩

variable [SeededSource σ]

/-- The source that a request leaves. -/
def leave (request : Request α) (s : σ) : σ :=
  match request.seed? with
  | some seed => SeededSource.ofSeed seed
  | none => skip request.cost s

theorem leave_of_accepted (request : Request α) (hseed : request.seed? = none)
    (h : request.Accepted) (s : σ) : request.leave s = skip request.words s := by
  rw [leave, hseed, cost, if_pos h]

theorem leave_of_not_accepted (request : Request α) (h : ¬ request.Accepted)
    (s : σ) : request.leave s = s := by
  rw [leave, seed?_eq_none_of_not_accepted request h, cost, if_neg h]
  rfl

/-- A request is served by an attempt that draws when it is accepted and leaves
the source as it is when it is not. -/
theorem checked_apply {ε β : Type} (request : Request α)
    (hseed : request.seed? = none) {x : Attempt ε σ β} {s : σ}
    {result : Except ε β} {error : ε}
    (hx : x s =
      if request.Accepted then (result, skip request.words s) else (.error error, s))
    (rename : ε -> RequestError α) (reply : β -> Reply α) :
    (ExceptT.adapt rename x >>= fun b => pure (reply b) :
        Attempt (RequestError α) σ (Reply α)) s =
      (if request.Accepted then (result.mapError rename).map reply
        else .error (rename error), request.leave s) := by
  rw [Attempt.bind_apply, Attempt.adapt_apply, hx]
  by_cases h : request.Accepted
  · rw [if_pos h, if_pos h, leave_of_accepted request hseed h]
    cases result <;> rfl
  · rw [if_neg h, if_neg h, leave_of_not_accepted request h]

theorem serve_apply (request : Request α) (s : σ) :
    (request.serve : Attempt (RequestError α) σ (Reply α)) s =
      (request.answer (stream s), request.leave s) := by
  cases request with
  | reset seed =>
      -- the only request that leaves a source that is not further along
      by_cases h : -2147483648 ≤ seed ∧ seed ≤ 2147483647
      · simp only [serve, restart, answer, leave, seed?, Seed.ofInt_eq_ok h]
        rfl
      · rw [leave_of_not_accepted (reset seed) h]
        simp only [serve, restart, answer, Seed.ofInt_eq_error h]
        rfl
  | word => rfl
  | wide => rfl
  | unit => rfl
  | below n =>
      exact checked_apply (below n) rfl (Draw.below_apply n s) .draw .number
  | between lo hi => rfl
  | oneIn n =>
      exact checked_apply (oneIn n) rfl (Draw.oneIn_apply n s) .draw .decision
  | skewed width =>
      exact checked_apply (skewed width) rfl (Draw.skewed_apply width s) .draw
        .number
  | point =>
      rw [serve, Attempt.draw_bind_apply, point_apply]
      rfl
  | frameAt z =>
      rw [serve, Attempt.draw_bind_apply, frameAt_apply]
      rfl
  | frame =>
      rw [serve, Attempt.draw_bind_apply, frame_apply]
      rfl
  | cap least greatest =>
      exact checked_apply (cap least greatest) rfl
        (cap_apply least greatest s) .sample .cap
  | pointInCap region =>
      rw [serve, Attempt.draw_bind_apply, pointInCap_apply]
      rfl
  | pointInRect region =>
      rw [serve, Attempt.draw_bind_apply, pointInRect_apply]
      rfl

end Request

/-!
## No failure after a draw
-/

section

open Scalar

variable (laws : SignLaws α)

include laws

theorem Words.notNegative_unit (high low : UInt32) :
    NotNegative (unit high low : α) := by
  have hhigh : NotNegative
      (((high >>> 5).toNat : α) * (67108864.0 : α) + ((low >>> 6).toNat : α)) := by
    apply laws.add
    · exact laws.mul (laws.natCast _) (laws.of_pos laws.factor_pos)
    · exact laws.natCast _
  have hstep : NotNegative ((1.0 : α) / 9007199254740992.0) :=
    laws.div (laws.of_pos laws.one_pos) laws.divisor_pos
  exact laws.mul hhigh hstep

theorem Sampling.notNegative_areaBetween {least greatest fraction : α}
    (h : (0.0 : α) < least ∧ least ≤ greatest) (hfraction : NotNegative fraction) :
    NotNegative (areaBetween least greatest fraction) := by
  have hgreatest : (0.0 : α) < greatest := laws.pos_of_le h.left h.right
  have hratio : NotNegative (least / greatest) :=
    laws.div (laws.of_pos h.left) hgreatest
  exact laws.mul (laws.of_pos hgreatest) (laws.pow hratio hfraction)

/-- The height that belongs to an area is cut off at the whole sphere, also when
it is not a number. -/
theorem Cap.exists_ofArea (center : Vec3 α) {area : α} (h : NotNegative area) :
    exists cap, ofArea center area = .ok cap := by
  have hheight : NotNegative (area / (2.0 * pi)) := laws.div h laws.turn_pos
  have hrange : (0.0 : α) ≤ atMost 2.0 (area / (2.0 * pi)) ∧
      atMost 2.0 (area / (2.0 * pi)) ≤ (2.0 : α) := by
    rw [atMost]
    split
    · next hlt => exact ⟨laws.zero_le_of_lt hheight hlt, laws.le_of_lt hlt⟩
    · exact ⟨laws.le_of_lt laws.two_pos, laws.two_le_two⟩
  exact ⟨_, dif_pos hrange⟩

namespace Request

/-- What is accepted is answered, whatever the words are. -/
theorem exists_answer_of_accepted {request : Request α} (h : request.Accepted)
    (w : Nat -> UInt32) : exists reply, request.answer w = .ok reply := by
  cases request with
  | reset seed =>
      rw [answer, Seed.ofInt_eq_ok h]
      exact ⟨_, rfl⟩
  | cap least greatest =>
      have harea := Sampling.notNegative_areaBetween laws h
        (Words.notNegative_unit laws (w 0) (w 1))
      rcases Cap.exists_ofArea laws (Words.pointFrom w 2) harea with ⟨cap, hcap⟩
      refine ⟨.cap cap, (if_pos h).trans ?_⟩
      rw [Words.unitFrom, hcap]
      rfl
  | below n | oneIn n | skewed n => exact ⟨_, if_pos h⟩
  | _ => exact ⟨_, rfl⟩

omit laws in
theorem exists_answer_of_not_accepted {request : Request α}
    (h : ¬ request.Accepted) (w : Nat -> UInt32) :
    exists error, request.answer w = .error error := by
  cases request with
  | reset seed =>
      rw [answer, Seed.ofInt_eq_error h]
      exact ⟨_, rfl⟩
  | below n | oneIn n | skewed n | cap least greatest => exact ⟨_, if_neg h⟩
  | _ => exact absurd trivial h

end Request

end

end SphereFixtures
