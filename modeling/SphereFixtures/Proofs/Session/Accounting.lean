import SphereFixtures.Proofs.Session.Answers
import SphereFixtures.Session.Bench

/-!
# Sessions

Requests to several sources come in any order.  Where a source stands depends
on its own requests only: it is as many words past the seed of its last restart
as the requests since then have taken.
-/

namespace SphereFixtures

open WordSource

variable {α : Type} [Scalar α]

/-!
## Histories
-/

namespace Request

/-- The seed from which a source was last restarted. -/
def lastSeed (first : Seed) (history : List (Request α)) : Seed :=
  (history.filterMap seed?).getLast?.getD first

/-- The requests after the last restart. -/
def sinceRestart (history : List (Request α)) : List (Request α) :=
  history.rtakeWhile fun request => request.seed?.isNone

/-- How many words were taken since the last restart. -/
def offset (history : List (Request α)) : Nat :=
  ((sinceRestart history).map cost).sum

variable (first : Seed) (history : List (Request α)) {request : Request α}

theorem lastSeed_append_restart {seed : Seed} (h : request.seed? = some seed) :
    lastSeed first (history ++ [request]) = seed := by
  simp [lastSeed, h]

theorem lastSeed_append (h : request.seed? = none) :
    lastSeed first (history ++ [request]) = lastSeed first history := by
  simp [lastSeed, h]

theorem offset_append_restart {seed : Seed} (h : request.seed? = some seed) :
    offset (history ++ [request]) = 0 := by
  simp [offset, sinceRestart, h]

theorem offset_append (h : request.seed? = none) :
    offset (history ++ [request]) = offset history + request.cost := by
  simp [offset, sinceRestart, h]

variable {σ : Type} [SeededSource σ]

/-- The source that a sequence of requests leaves. -/
def leaveAll (history : List (Request α)) (s : σ) : σ :=
  history.foldl (fun t request => request.leave t) s

/-- A source is where its last seed and the words since then put it. -/
theorem leaveAll_ofSeed :
    leaveAll history (SeededSource.ofSeed first : σ) =
      skip (offset history) (SeededSource.ofSeed (lastSeed first history)) := by
  -- from the last request on, which decides whether the seed is a new one
  induction history using List.reverseRecOn with
  | nil => rfl
  | append_singleton history request ih =>
      rw [leaveAll, List.foldl_append]
      show request.leave (leaveAll history _) = _
      rw [ih, leave]
      cases h : request.seed? with
      | none =>
          rw [lastSeed_append first history h, offset_append history h]
          exact skip_skip _ _ _
      | some seed =>
          rw [lastSeed_append_restart first history h, offset_append_restart history h]
          rfl

end Request

/-!
## Sessions on a bench
-/

namespace Bench

open Request

/-- Let sources serve requests one after another. -/
def serveAll (bench : Bench α) : List (Nat × Request α) ->
    List (Option (Except (RequestError α) (Reply α))) × Bench α
  | [] => ([], bench)
  | (source, request) :: steps =>
      let (result, next) := bench.onSource source request.serve
      let (results, last) := next.serveAll steps
      (result :: results, last)

/-- The requests of a session that are made to one source. -/
def requestsTo (source : Nat) (steps : List (Nat × Request α)) :
    List (Request α) :=
  (steps.filter fun step => step.1 == source).map Prod.snd

theorem onSource_serve (bench : Bench α) {source : Nat} {t : Twister}
    (h : bench.sources[source]? = some t) (request : Request α) :
    bench.onSource source request.serve =
      (some (request.answer (stream t)),
        { bench with
          sources := bench.sources.setIfInBounds source (request.leave t) }) := by
  rw [onSource, h]
  show (some (request.serve t).1,
    { bench with sources := bench.sources.setIfInBounds source (request.serve t).2 }) = _
  rw [serve_apply]

/-- A request moves its own source and no other one. -/
theorem getElem?_sources_onSource (bench : Bench α) (source other : Nat)
    (request : Request α) :
    (bench.onSource source request.serve).2.sources[other]? =
      if source = other then bench.sources[other]?.map request.leave
      else bench.sources[other]? := by
  cases h : bench.sources[source]? with
  | none =>
      have hbench : (bench.onSource source request.serve).2 = bench := by
        rw [onSource, h]
      rw [hbench]
      split
      · next heq =>
          rw [← heq, h]
          rfl
      · rfl
  | some t =>
      rw [onSource_serve bench h]
      simp only [Array.getElem?_setIfInBounds]
      split
      · next heq =>
          have hlt := (Array.getElem?_eq_some_iff.mp h).choose
          rw [if_pos hlt, ← heq, h]
          rfl
      · rfl

theorem onSource_of_not_accepted (bench : Bench α) (source : Nat)
    {request : Request α} (h : ¬ request.Accepted) :
    (bench.onSource source request.serve).2 = bench := by
  cases hsource : bench.sources[source]? with
  | none => rw [onSource, hsource]
  | some t =>
      rw [onSource_serve bench hsource, leave_of_not_accepted request h]
      rcases Array.getElem?_eq_some_iff.mp hsource with ⟨hlt, rfl⟩
      simp [Array.setIfInBounds, hlt]

theorem requestsTo_cons (source : Nat) (step : Nat × Request α)
    (steps : List (Nat × Request α)) :
    requestsTo source (step :: steps) =
      if step.1 = source then step.2 :: requestsTo source steps
      else requestsTo source steps := by
  by_cases h : step.1 = source <;> simp [requestsTo, h]

/-- What becomes of a source is up to the requests to it. -/
theorem getElem?_sources_serveAll (bench : Bench α)
    (steps : List (Nat × Request α)) (source : Nat) :
    (bench.serveAll steps).2.sources[source]? =
      bench.sources[source]?.map (leaveAll (requestsTo source steps)) := by
  induction steps generalizing bench with
  | nil => exact Option.map_id'.symm
  | cons step steps ih =>
      rcases step with ⟨other, request⟩
      show ((bench.onSource other request.serve).2.serveAll steps).2.sources[source]? = _
      rw [ih, getElem?_sources_onSource, requestsTo_cons]
      by_cases h : other = source
      · rw [if_pos h, if_pos h, Option.map_map]
        rfl
      · rw [if_neg h, if_neg h]

/-- Each result is that of its step after the steps before it. -/
theorem getElem?_results_serveAll (bench : Bench α)
    {steps : List (Nat × Request α)} {k source : Nat} {request : Request α}
    (h : steps[k]? = some (source, request)) :
    (bench.serveAll steps).1[k]? =
      some ((bench.serveAll (steps.take k)).2.onSource source request.serve).1 := by
  induction steps generalizing bench k with
  | nil => cases h
  | cons step steps ih =>
      cases k with
      | zero =>
          cases h
          rfl
      | succ k => exact ih (bench.onSource step.1 step.2.serve).2 h

/-- A step of a session is answered from the words of the seed of its source,
counted from where the requests since the last restart have brought it, and from
no more of them than it takes.  What is accepted is answered, what is refused
changes nothing, and no other source is touched. -/
theorem session_accounting (laws : Scalar.SignLaws α) (bench : Bench α)
    {source : Nat} {seed : Seed}
    (hsource : bench.sources[source]? = some (Twister.ofSeed seed))
    (steps : List (Nat × Request α)) {k : Nat} {request : Request α}
    (hstep : steps[k]? = some (source, request)) :
    let history := requestsTo source (steps.take k)
    let fresh := Twister.ofSeed (lastSeed seed history)
    let answer := request.answer fun i => stream fresh (offset history + i)
    let before := (bench.serveAll (steps.take k)).2
    let after := (before.onSource source request.serve).2
    before.sources[source]? = some (skip (offset history) fresh) ∧
      (bench.serveAll steps).1[k]? = some (some answer) ∧
      (forall w, (forall i, i < request.cost ->
        w i = stream fresh (offset history + i)) -> request.answer w = answer) ∧
      (request.Accepted -> exists reply, answer = .ok reply) ∧
      (¬ request.Accepted -> (exists error, answer = .error error) ∧
        after = before) ∧
      (forall restart : Seed, request = .reset restart.value ->
        after.sources[source]? = some (Twister.ofSeed restart)) ∧
      ((forall restart : Seed, request ≠ .reset restart.value) ->
        after.sources[source]? =
          some (skip (offset history + request.cost) fresh)) ∧
      (forall other, other ≠ source ->
        after.sources[other]? = before.sources[other]?) := by
  intro history fresh answer before after
  have hbefore : before.sources[source]? = some (skip (offset history) fresh) := by
    rw [getElem?_sources_serveAll, hsource]
    exact congrArg some (leaveAll_ofSeed seed history)
  have hanswer : request.answer (stream (skip (offset history) fresh)) = answer :=
    congrArg request.answer (funext fun i => stream_skip _ i fresh)
  have hafter : after.sources[source]? =
      some (request.leave (skip (offset history) fresh)) := by
    rw [getElem?_sources_onSource, if_pos rfl, hbefore]
    rfl
  refine ⟨hbefore, ?_, ?_, ?_, ?_, ?_, ?_, ?_⟩
  · rw [getElem?_results_serveAll bench hstep, onSource_serve before hbefore, hanswer]
  · intro w hw
    exact request.answer_congr hw
  · intro h
    exact exists_answer_of_accepted laws h _
  · intro h
    exact ⟨exists_answer_of_not_accepted h _, onSource_of_not_accepted before source h⟩
  · intro restart h
    rw [hafter, leave, (seed?_eq_some_iff request restart).mpr h]
    rfl
  · intro h
    have hnone : request.seed? = none := by
      apply Option.eq_none_iff_forall_ne_some.mpr
      intro restart hrestart
      exact h restart ((seed?_eq_some_iff request restart).mp hrestart)
    rw [hafter, leave, hnone]
    simp
  · intro other hother
    rw [getElem?_sources_onSource, if_neg hother.symm]

/-- A frame after a restart, a word, a refused bound, a skewed number, a refused
restart and a cap starts at the thirteenth word of its seed.  The cap asks for
powers of one only. -/
theorem session_accounting_of_two_sources :
    let scalar : Scalar Float := Scalar.doubles fun _ _ => 1.0
    let bench : Bench Float :=
      { sources := #[Twister.ofSeed Seed.default, Twister.ofSeed Seed.default]
        fractals := #[] }
    let steps : List (Nat × Request Float) :=
      [(0, .reset 7), (0, .word), (1, .unit), (0, .below 0), (0, .skewed 5),
        (0, .reset 3000000000), (0, .cap 1.0 1.0), (0, .frame)]
    let seed : Seed :=
      { value := 7, least_le := by decide, le_greatest := by decide }
    bench.sources[0]? = some (Twister.ofSeed Seed.default) ∧
      steps[7]? = some (0, .frame) ∧
      exists reply,
        (bench.serveAll steps).1[7]? = some (some (.ok reply)) ∧
        Request.answer Request.frame
          (fun i => stream (Twister.ofSeed seed) (12 + i)) = .ok reply := by
  intro scalar bench steps seed
  have hsource : bench.sources[0]? = some (Twister.ofSeed Seed.default) := rfl
  have hstep : steps[7]? = some (0, .frame) := rfl
  have hone : ¬ (1.0 : Float) < (0.0 : Float) := by decide +kernel
  have laws : Scalar.SignLaws Float :=
    Scalar.signLaws_doubles fun _ _ _ _ => hone
  rcases session_accounting laws bench hsource steps hstep with
    ⟨_, hresult, _, haccepted, _⟩
  have hlast : lastSeed Seed.default (requestsTo 0 (steps.take 7)) = seed := by
    rfl
  have hoffset : offset (requestsTo 0 (steps.take 7)) = 12 := by
    decide +kernel
  rcases haccepted trivial with ⟨reply, hreply⟩
  rw [hlast, hoffset] at hreply
  rw [hlast, hoffset, hreply] at hresult
  exact ⟨hsource, hstep, reply, hresult, hreply⟩

end Bench

end SphereFixtures
