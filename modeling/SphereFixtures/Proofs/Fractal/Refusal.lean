import SphereFixtures.Proofs.Fractal.Configuration
import SphereFixtures.Proofs.Fractal.SimplePolygon

/-!
# Refused boundaries

A boundary is refused when no maximum level is set and when there are more levels
than can be drawn from.  The first decision that is drawn is about an edge of the
least level and has the most levels to draw from, so it is the one that is
refused, and no word has been taken before it.
-/

namespace SphereFixtures

/-!
## Failing cleanly
-/

/-- Whether an attempt leaves the source as it was when it fails. -/
def Attempt.FailsCleanly {ε σ β : Type} (x : Attempt ε σ β) : Prop :=
  forall (s t : σ) (error : ε), x s = (.error error, t) -> t = s

/-- What fails only where another attempt does fails as cleanly. -/
theorem Attempt.FailsCleanly.follow {ε σ β γ : Type} {x : Attempt ε σ β}
    {y : Attempt ε σ γ} (hx : x.FailsCleanly)
    (herror : forall {s t error}, x s = (.error error, t) -> y s = (.error error, t))
    (hok : forall {s t value}, x s = (.ok value, t) ->
      exists result, y s = (.ok result, t)) : y.FailsCleanly := by
  intro s t error h
  rcases hfirst : x s with ⟨error' | value, u⟩
  · have hsame := hx s u error' hfirst
    rw [herror hfirst, hsame] at h
    cases h
    rfl
  · rcases hok hfirst with ⟨result, hresult⟩
    rw [hresult] at h
    cases h

namespace Bench

variable {α ε β : Type} {bench : Bench α}

theorem onSource_apply {source : Nat} {t : Twister}
    (h : bench.sources[source]? = some t) (attempt : Attempt ε Twister β) :
    bench.onSource source attempt =
      (some (attempt t).1,
        { bench with
          sources := bench.sources.setIfInBounds source (attempt t).2 }) := by
  rw [onSource, h]
  rfl

theorem onSource_of_failsCleanly {source : Nat} {attempt : Attempt ε Twister β}
    (hclean : attempt.FailsCleanly) {error : ε}
    (h : (bench.onSource source attempt).1 = some (.error error)) :
    (bench.onSource source attempt).2 = bench := by
  cases hsource : bench.sources[source]? with
  | none => rw [onSource, hsource]
  | some t =>
      rw [onSource_apply hsource] at h ⊢
      have hsame : (attempt t).2 = t :=
        hclean t _ error (Prod.ext (Option.some.inj h) rfl)
      rcases Array.getElem?_eq_some_iff.mp hsource with ⟨hlt, rfl⟩
      simp [hsame, Array.setIfInBounds, hlt]

/-- What fails cleanly leaves the whole bench as it was. -/
theorem onFractal_of_failsCleanly {fractal : Nat}
    {attempt : Settings α -> Attempt ε Twister β}
    (hclean : forall s, (attempt s).FailsCleanly) {error : ε}
    (h : (bench.onFractal fractal attempt).1 = some (.error error)) :
    (bench.onFractal fractal attempt).2 = bench := by
  cases hfractal : bench.fractals[fractal]? with
  | none => rw [onFractal, hfractal]
  | some held =>
      rw [onFractal, hfractal] at h ⊢
      exact onSource_of_failsCleanly (hclean held.2) h

end Bench

/-!
## Refused decisions
-/

namespace Levels

variable {σ : Type} [WordSource σ] {levels : Levels}

theorem keeps_of_lt_least {level : Nat} (h : level < levels.least) (s : σ) :
    levels.keeps level s = (.ok false, s) := by
  have hodds : levels.odds? level = none := by
    rw [odds?, if_neg (Nat.not_le.mpr h)]
  exact keeps_run_of_odds_eq_none s hodds

/-- The first decision is the one about the most levels. -/
theorem keeps_least_of_no_room
    (hroom : DrawError.maxBound < (levels.greatest : Int) - levels.least + 1)
    (s : σ) :
    levels.keeps levels.least s =
      (.error (.bound ((levels.greatest : Int) - levels.least + 1)), s) := by
  have hodds : levels.odds? levels.least =
      some ((levels.greatest : Int) - levels.least + 1) := by
    rw [odds?, if_pos (Nat.le_refl _)]
  have hbound : ¬ (0 < (levels.greatest : Int) - levels.least + 1 ∧
      (levels.greatest : Int) - levels.least + 1 ≤ DrawError.maxBound) := by
    omega
  have hrun := keeps_run_of_odds_eq_some s hodds
  rw [Draw.oneIn_run, Draw.checkBound, if_neg hbound] at hrun
  exact hrun

end Levels

namespace Subdivision

variable {P σ : Type} [WordSource σ] {levels : Levels}

/-- With too many levels the recursion fails on its way to the first edge of the
least level, where nothing has been drawn yet. -/
theorem walk_of_no_room (cut : Cut P)
    (hroom : DrawError.maxBound < (levels.greatest : Int) - levels.least + 1)
    (a b : P) {level : Nat} (hlevel : level ≤ levels.least) (s : σ) :
    walk cut levels a b level s =
      (.error (.bound ((levels.greatest : Int) - levels.least + 1)), s) := by
  rw [walk_eq, Attempt.bind_apply]
  rcases Nat.lt_or_eq_of_le hlevel with hless | rfl
  · rw [Levels.keeps_of_lt_least hless]
    have hfirst := walk_of_no_room cut hroom a (cut a b).1 hless s
    simp only [Bool.false_eq_true, if_false, Attempt.bind_apply, hfirst]
  · rw [Levels.keeps_least_of_no_room hroom]
termination_by levels.least - level

end Subdivision

/-!
## Refused boundaries
-/

namespace Settings

open Snowflake Subdivision

variable {α σ : Type} [Scalar α] [WordSource σ] {s : Settings α}

theorem vertices_of_no_maxLevel (hmax : s.maxLevel < 0) (source : σ) :
    s.vertices source = (.error .noMaxLevel, source) := by
  have hlevels : s.levels? = none := by
    rw [levels?, dif_neg (Int.not_le.mpr hmax)]
  rw [vertices, Attempt.bind_apply, boundary, hlevels]
  rfl

theorem vertices_of_no_room (hmax : 0 ≤ s.maxLevel)
    (hroom : DrawError.maxBound < s.maxLevel - s.leastLevel + 1) (source : σ) :
    s.vertices source =
      (.error (.draw (.bound (s.maxLevel - s.leastLevel + 1))), source) := by
  rcases levels?_eq_some hmax with ⟨levels, hlevels, hleast, hgreatest⟩
  rw [← hleast, ← hgreatest] at hroom ⊢
  have hside := walk_of_no_room s.cut hroom cornerA cornerB (Nat.zero_le _) source
  have hboundary : s.boundary source =
      (.error (.draw (.bound ((levels.greatest : Int) - levels.least + 1))),
        source) := by
    rw [boundary, hlevels]
    show ((Subdivision.boundary s.cut levels sides).adapt GrowthError.draw :
      Attempt GrowthError σ _) source = _
    rw [Attempt.adapt_apply, sides, boundary_triangle_eq_walks,
      Attempt.bind_apply, hside]
  rw [vertices, Attempt.bind_apply, hboundary]

theorem exists_vertices_of_room (hmax : 0 ≤ s.maxLevel)
    (hroom : s.maxLevel - s.leastLevel + 1 ≤ DrawError.maxBound) (source : σ) :
    exists vertices after, s.vertices source = (.ok vertices, after) := by
  rcases levels?_eq_some hmax with ⟨levels, hlevels, hleast, hgreatest⟩
  rw [← hleast, ← hgreatest] at hroom
  exact exists_vertices hlevels hroom source

/-- Once a maximum level is set, the number of levels is all that matters. -/
theorem vertices_eq_error_iff (hmax : 0 ≤ s.maxLevel) (source : σ)
    (error : GrowthError) :
    (s.vertices source).1 = .error error <->
      DrawError.maxBound < s.maxLevel - s.leastLevel + 1 ∧
        error = .draw (.bound (s.maxLevel - s.leastLevel + 1)) := by
  by_cases hroom : s.maxLevel - s.leastLevel + 1 ≤ DrawError.maxBound
  · rcases exists_vertices_of_room hmax hroom source with ⟨_, _, hok⟩
    rw [hok]
    constructor
    · intro h
      cases h
    · intro h
      exact absurd hroom (Int.not_le.mpr h.left)
  · rw [Int.not_le] at hroom
    rw [vertices_of_no_room hmax hroom, Except.error.injEq]
    exact ⟨fun h => ⟨hroom, h.symm⟩, fun h => h.right.symm⟩

theorem three_le_size_of_vertices {source after : σ} {vertices : Array (Vec2 α)}
    (h : s.vertices source = (.ok vertices, after)) : 3 ≤ vertices.size := by
  rcases realizes_of_vertices h with ⟨levels, _, r, hr⟩
  have hlength := r.three_le_length_edges s.cut cornerA cornerB cornerC
  rw [← Array.length_toList, hr, List.length_map]
  exact hlength

/-- What is refused is refused before a word is taken. -/
theorem vertices_failsCleanly (s : Settings α) :
    (s.vertices : Attempt GrowthError σ (Array (Vec2 α))).FailsCleanly := by
  intro source after error h
  by_cases hmax : s.maxLevel < 0
  · rw [vertices_of_no_maxLevel hmax] at h
    cases h
    rfl
  · rw [Int.not_lt] at hmax
    by_cases hroom : s.maxLevel - s.leastLevel + 1 ≤ DrawError.maxBound
    · rcases exists_vertices_of_room hmax hroom source with ⟨_, _, hok⟩
      rw [hok] at h
      cases h
    · rw [vertices_of_no_room hmax (Int.not_le.mp hroom)] at h
      cases h
      rfl

/-!
### Loops and pictures
-/

section

variable (frame : Frame α) (radius : α) {source after : σ}

theorem makeLoop_of_error {error : GrowthError}
    (h : s.vertices source = (.error error, after)) :
    s.makeLoop frame radius source = (.error error, after) := by
  rw [makeLoop, Attempt.bind_apply, h]

/-- The vertices of a boundary are always enough for a loop. -/
theorem exists_makeLoop {vertices : Array (Vec2 α)}
    (h : s.vertices source = (.ok vertices, after)) :
    exists loop, s.makeLoop frame radius source = (.ok loop, after) ∧
      loop.vertices = vertices.map (project frame radius) := by
  have hthree : 3 ≤ (vertices.map (project frame radius)).size := by
    rw [Array.size_map]
    exact three_le_size_of_vertices h
  have hloop : Loop.ofVertices (vertices.map (project frame radius)) =
      .ok ⟨vertices.map (project frame radius), hthree⟩ :=
    dif_pos hthree
  refine ⟨⟨vertices.map (project frame radius), hthree⟩, ?_, rfl⟩
  rw [makeLoop, Attempt.bind_apply, h]
  simp only [hloop]
  rfl

end

theorem picture_of_error {s : Settings Float} {source after : σ}
    {error : GrowthError} (h : s.vertices source = (.error error, after)) :
    s.picture source = (.error error, after) := by
  rw [picture, Attempt.bind_apply, h]

theorem exists_picture {s : Settings Float} {source after : σ}
    {vertices : Array (Vec2 Float)}
    (h : s.vertices source = (.ok vertices, after)) :
    exists picture, s.picture source = (.ok picture, after) ∧
      picture.outline = vertices ++ vertices.extract 0 1 := by
  rw [picture, Attempt.bind_apply, h]
  exact ⟨_, rfl, rfl⟩

theorem makeLoop_failsCleanly (s : Settings α) (frame : Frame α) (radius : α) :
    (s.makeLoop frame radius : Attempt GrowthError σ (Loop α)).FailsCleanly := by
  apply s.vertices_failsCleanly.follow (makeLoop_of_error frame radius)
  intro source after vertices h
  rcases exists_makeLoop frame radius h with ⟨loop, hloop, _⟩
  exact ⟨loop, hloop⟩

theorem picture_failsCleanly (s : Settings Float) :
    (s.picture : Attempt GrowthError σ (Picture Float)).FailsCleanly := by
  apply s.vertices_failsCleanly.follow picture_of_error
  intro source after vertices h
  rcases exists_picture h with ⟨picture, hpicture, _⟩
  exact ⟨picture, hpicture⟩

/-- After any changes a boundary is refused for want of a maximum level exactly
when none was accepted, and else exactly when there are too many levels to draw
from.  A loop and a picture are refused with it and for the same reason; nothing
else refuses them.  What is refused takes no word and changes no fractal. -/
theorem generation_refused_cleanly (changes : List (Setting Float))
    (frame : Frame Float) (radius : Float) (source : σ) :
    let s : Settings Float := initial.changedAll changes
    let count := s.maxLevel - s.leastLevel + 1
    let boundary := s.vertices.run.run source
    let loop := (s.makeLoop frame radius).run.run source
    let picture := s.picture.run.run source
    (boundary.1 = .error .noMaxLevel <->
        Setting.accepted Setting.maxLevel? changes = []) ∧
      (Setting.accepted Setting.maxLevel? changes ≠ [] ->
        (boundary.1 = .error (.draw (.bound count)) <->
          DrawError.maxBound < count) ∧
        (count ≤ DrawError.maxBound -> exists vertices after,
          boundary = (.ok vertices, after))) ∧
      (forall error after, boundary = (.error error, after) ->
        after = source ∧ loop = (.error error, source) ∧
          picture = (.error error, source)) ∧
      (forall vertices after, boundary = (.ok vertices, after) ->
        3 ≤ vertices.size ∧
          (exists l, loop = (.ok l, after) ∧
            l.vertices = vertices.map (project frame radius)) ∧
          exists p, picture = (.ok p, after) ∧
            p.outline = vertices ++ vertices.extract 0 1) ∧
      forall (bench : Bench Float) (fractal : Nat) (error : GrowthError),
        let drawn := bench.onFractal fractal Settings.vertices
        let made := bench.onFractal fractal fun s => s.makeLoop frame radius
        let shown := bench.onFractal fractal Settings.picture
        (drawn.1 = some (.error error) -> drawn.2 = bench) ∧
          (made.1 = some (.error error) -> made.2 = bench) ∧
          (shown.1 = some (.error error) -> shown.2 = bench) := by
  intro s count boundary loop picture
  have hmax := maxLevel_changedAll_neg_iff changes
  have hfails (hset : 0 ≤ s.maxLevel) (error : GrowthError) :
      boundary.1 = .error error <->
        DrawError.maxBound < count ∧ error = .draw (.bound count) :=
    vertices_eq_error_iff hset source error
  refine ⟨?_, ?_, ?_, ?_, ?_⟩
  · rw [← hmax]
    constructor
    · intro hnone
      by_contra hset
      rcases (hfails (Int.not_lt.mp hset) .noMaxLevel).mp hnone with ⟨_, heq⟩
      cases heq
    · intro hneg
      exact congrArg Prod.fst (vertices_of_no_maxLevel hneg source)
  · intro hset
    rw [ne_eq, ← hmax, Int.not_lt] at hset
    constructor
    · rw [hfails hset, and_iff_left rfl]
    · intro hroom
      exact exists_vertices_of_room hset hroom source
  · intro error after h
    cases s.vertices_failsCleanly source after error h
    exact ⟨rfl, makeLoop_of_error frame radius h, picture_of_error h⟩
  · intro vertices after h
    exact ⟨three_le_size_of_vertices h, exists_makeLoop frame radius h,
      exists_picture h⟩
  · intro bench fractal error drawn made shown
    refine ⟨?_, ?_, ?_⟩
    · exact Bench.onFractal_of_failsCleanly vertices_failsCleanly
    · exact Bench.onFractal_of_failsCleanly fun s =>
        s.makeLoop_failsCleanly frame radius
    · exact Bench.onFractal_of_failsCleanly picture_failsCleanly

end Settings

end SphereFixtures
