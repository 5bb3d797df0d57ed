import SphereFixtures.Proofs.Fractal.Dimension
import SphereFixtures.Session.Bench

/-!
# Histories of changes

A fractal has the values that were accepted last, whatever came between them.
What follows from its settings may be kept beside them: it stays up to date when
a level renews the least level and a dimension renews the proportions.
-/

namespace SphereFixtures

open Scalar

/-!
## Single changes
-/

namespace Setting

variable {α : Type} [Scalar α]

/-- The maximum level that a setting asks for. -/
def maxLevel? : Setting α -> Option Int
  | .maxLevel level => some level
  | .maxEdges count => some (EdgeCount.level count)
  | _ => none

/-- The minimum level that a setting asks for. -/
def minLevel? : Setting α -> Option Int
  | .minLevel level => some level
  | .minEdges count => some (EdgeCount.level count)
  | _ => none

def dimension? : Setting α -> Option α
  | .dimension value => some value
  | _ => none

/-- Whether the value of a setting is in its range.  Every number of edges has a
level. -/
def Accepted : Setting α -> Prop
  | .maxLevel level => 0 ≤ level
  | .minLevel level => -1 ≤ level
  | .maxEdges _ | .minEdges _ => True
  | .dimension value => (1.0 : α) ≤ value ∧ value < (2.0 : α)

instance : DecidablePred (Accepted : Setting α -> Prop)
  | .maxLevel level => inferInstanceAs (Decidable (0 ≤ level))
  | .minLevel level => inferInstanceAs (Decidable (-1 ≤ level))
  | .maxEdges _ | .minEdges _ => isTrue trivial
  | .dimension _ => inferInstanceAs (Decidable (_ ∧ _))

/-- The settings with the value of one of them replaced. -/
def assign (setting : Setting α) (s : Settings α) : Settings α :=
  { maxLevel := setting.maxLevel?.getD s.maxLevel
    minLevel := setting.minLevel?.getD s.minLevel
    dimension := setting.dimension?.getD s.dimension }

section

variable {β : Type} (value? : Setting α -> Option β) (first : β)
  (changes : List (Setting α))

/-- The values of a kind that were accepted, in their order. -/
def accepted : List β :=
  (changes.filter (Accepted ·)).filterMap value?

/-- The value of a kind that was accepted last, or a first one before any. -/
def last : β :=
  (accepted value? changes).getLast?.getD first

theorem last_append (setting : Setting α) :
    last value? first (changes ++ [setting]) =
      if setting.Accepted then
        (value? setting).getD (last value? first changes)
      else last value? first changes := by
  unfold last accepted
  by_cases h : setting.Accepted
  · cases hvalue : value? setting <;> simp [h, hvalue]
  · simp [h]

theorem last_eq_or_mem :
    accepted value? changes = [] ∧ last value? first changes = first ∨
      last value? first changes ∈ accepted value? changes := by
  unfold last
  cases h : (accepted value? changes).getLast? with
  | none => exact Or.inl ⟨List.getLast?_eq_none_iff.mp h, rfl⟩
  | some value => exact Or.inr (List.mem_of_getLast? h)

end

variable {changes : List (Setting α)}

theorem accepted_of_mem_accepted {β : Type} {value? : Setting α -> Option β}
    {value : β} (h : value ∈ accepted value? changes) :
    exists setting : Setting α, setting.Accepted ∧ value? setting = some value := by
  rcases List.mem_filterMap.mp h with ⟨setting, hsetting, hvalue⟩
  exact ⟨setting, of_decide_eq_true (List.mem_filter.mp hsetting).right, hvalue⟩

theorem nonneg_of_mem_accepted {level : Int} (h : level ∈ accepted maxLevel? changes) :
    0 ≤ level := by
  rcases accepted_of_mem_accepted h with ⟨setting, haccepted, hvalue⟩
  cases setting with
  | maxLevel level' =>
      cases hvalue
      exact haccepted
  | maxEdges count =>
      cases hvalue
      exact Int.natCast_nonneg _
  | minLevel _ | minEdges _ | dimension _ => cases hvalue

theorem range_of_mem_accepted {value : α} (h : value ∈ accepted dimension? changes) :
    (1.0 : α) ≤ value ∧ value < (2.0 : α) := by
  rcases accepted_of_mem_accepted h with ⟨setting, haccepted, hvalue⟩
  cases setting with
  | dimension value' =>
      cases hvalue
      exact haccepted
  | maxLevel _ | minLevel _ | maxEdges _ | minEdges _ => cases hvalue

end Setting

namespace Settings

variable {α : Type}

theorem leastLevel_le (s : Settings α) : s.leastLevel ≤ s.maxLevel := by
  unfold leastLevel
  split
  · next h => exact h.right
  · exact Int.le_refl _

theorem leastLevel_nonneg_iff (s : Settings α) :
    0 ≤ s.leastLevel <-> 0 ≤ s.maxLevel := by
  constructor
  · intro h
    exact Int.le_trans h s.leastLevel_le
  · intro h
    unfold leastLevel
    split
    · next hmin => exact hmin.left
    · exact h

theorem setMaxLevel_eq_ok (s : Settings α) {level : Int} (h : 0 ≤ level) :
    s.setMaxLevel level = .ok { s with maxLevel := level } :=
  if_neg (Int.not_lt.mpr h)

theorem setMinLevel_eq_ok (s : Settings α) {level : Int} (h : -1 ≤ level) :
    s.setMinLevel level = .ok { s with minLevel := level } :=
  if_neg (Int.not_lt.mpr h)

variable [Scalar α]

theorem set_eq_ok {setting : Setting α} (h : setting.Accepted)
    (s : Settings α) : s.set setting = .ok (setting.assign s) := by
  cases setting with
  | maxLevel level => exact s.setMaxLevel_eq_ok h
  | minLevel level => exact s.setMinLevel_eq_ok h
  | maxEdges count => exact s.setMaxLevel_eq_ok (Int.natCast_nonneg _)
  | minEdges count =>
      apply s.setMinLevel_eq_ok
      exact Int.le_trans (by decide) (Int.natCast_nonneg _)
  | dimension value => exact if_pos h

theorem exists_set_eq_error {setting : Setting α} (h : ¬ setting.Accepted)
    (s : Settings α) : exists error, s.set setting = .error error := by
  cases setting with
  | maxLevel level => exact ⟨_, if_pos (Int.not_le.mp h)⟩
  | minLevel level => exact ⟨_, if_pos (Int.not_le.mp h)⟩
  | maxEdges count => exact absurd trivial h
  | minEdges count => exact absurd trivial h
  | dimension value => exact ⟨_, if_neg h⟩

theorem set_cases (s : Settings α) (setting : Setting α) :
    setting.Accepted ∧ s.set setting = .ok (setting.assign s) ∨
      ¬ setting.Accepted ∧ exists error, s.set setting = .error error := by
  rcases Decidable.em setting.Accepted with h | h
  · exact Or.inl ⟨h, set_eq_ok h s⟩
  · exact Or.inr ⟨h, exists_set_eq_error h s⟩

theorem set_eq_ok_iff {s s' : Settings α} {setting : Setting α} :
    s.set setting = .ok s' <-> setting.Accepted ∧ s' = setting.assign s := by
  rcases s.set_cases setting with ⟨h, hset⟩ | ⟨h, error, hset⟩
  · rw [hset, Except.ok.injEq]
    exact ⟨fun heq => ⟨h, heq.symm⟩, fun heq => heq.right.symm⟩
  · rw [hset]
    constructor
    · intro heq
      cases heq
    · intro heq
      exact absurd heq.left h

/-- The settings after a change, which are the same when it is not accepted. -/
def changed (s : Settings α) (setting : Setting α) : Settings α :=
  match s.set setting with
  | .ok next => next
  | .error _ => s

theorem changed_eq (s : Settings α) (setting : Setting α) :
    s.changed setting = if setting.Accepted then setting.assign s else s := by
  unfold changed
  rcases s.set_cases setting with ⟨h, hset⟩ | ⟨h, error, hset⟩
  · rw [hset, if_pos h]
  · rw [hset, if_neg h]

/-!
## Histories
-/

def changedAll (s : Settings α) (changes : List (Setting α)) : Settings α :=
  changes.foldl changed s

theorem changedAll_append (s : Settings α) (changes : List (Setting α))
    (setting : Setting α) :
    s.changedAll (changes ++ [setting]) =
      (s.changedAll changes).changed setting :=
  List.foldl_append

/-- Each kind of setting has its own last value. -/
theorem changedAll_eq (s : Settings α) (changes : List (Setting α)) :
    s.changedAll changes =
      { maxLevel := Setting.last Setting.maxLevel? s.maxLevel changes
        minLevel := Setting.last Setting.minLevel? s.minLevel changes
        dimension := Setting.last Setting.dimension? s.dimension changes } := by
  -- from the last change on, which decides about its own kind only
  induction changes using List.reverseRecOn with
  | nil => rfl
  | append_singleton changes setting ih =>
      rw [changedAll_append, changed_eq, ih]
      simp only [Setting.last_append]
      split <;> rfl

theorem reachable_changedAll (changes : List (Setting α)) :
    ((initial : Settings α).changedAll changes).Reachable := by
  induction changes using List.reverseRecOn with
  | nil => exact .initial
  | append_singleton changes setting ih =>
      rw [changedAll_append, changed_eq]
      split
      · next h => exact .set setting ih (set_eq_ok h _)
      · exact ih

/-- There is a maximum level as soon as one was accepted. -/
theorem maxLevel_changedAll_neg_iff (changes : List (Setting α)) :
    ((initial : Settings α).changedAll changes).maxLevel < 0 <->
      Setting.accepted Setting.maxLevel? changes = [] := by
  rw [changedAll_eq]
  show Setting.last Setting.maxLevel? (-1) changes < 0 <-> _
  rcases Setting.last_eq_or_mem Setting.maxLevel? (-1) changes with
    ⟨hnone, hfirst⟩ | hmem
  · rw [hfirst, hnone]
    decide
  · have hlast := Setting.nonneg_of_mem_accepted hmem
    constructor
    · intro hneg
      omega
    · intro hnone
      rw [hnone] at hmem
      cases hmem

theorem Reachable.neg_one_le_maxLevel {s : Settings α} (h : s.Reachable) :
    -1 ≤ s.maxLevel := by
  induction h with
  | initial => exact Int.le_refl _
  | set setting _ hset ih =>
      rcases set_eq_ok_iff.mp hset with ⟨haccepted, rfl⟩
      cases setting with
      | maxLevel level => exact Int.le_trans (by decide) haccepted
      | maxEdges count => exact Int.le_trans (by decide) (Int.natCast_nonneg _)
      | minLevel level => exact ih
      | minEdges count => exact ih
      | dimension value => exact ih

theorem Reachable.neg_one_le_leastLevel {s : Settings α} (h : s.Reachable) :
    -1 ≤ s.leastLevel := by
  unfold leastLevel
  split
  · next hmin => exact Int.le_trans (by decide) hmin.left
  · exact h.neg_one_le_maxLevel

end Settings

/-!
## What is kept beside the settings
-/

/-- Settings with what follows from them. -/
structure Prepared (α : Type) where
  settings : Settings α
  leastLevel : Int
  edgeFraction : α
  offsetFraction : α

namespace Prepared

variable {α : Type} [Scalar α]

def ofSettings (s : Settings α) : Prepared α :=
  { settings := s
    leastLevel := s.leastLevel
    edgeFraction := s.edgeFraction
    offsetFraction := s.offsetFraction }

/-- Take over settings that differ in one value, and renew what this value has a
part in. -/
def renew (p : Prepared α) (s : Settings α) : Setting α -> Prepared α
  | .maxLevel _ | .minLevel _ | .maxEdges _ | .minEdges _ =>
      { p with settings := s, leastLevel := s.leastLevel }
  | .dimension _ =>
      { p with
        settings := s
        edgeFraction := s.edgeFraction
        offsetFraction := s.offsetFraction }

def changed (p : Prepared α) (setting : Setting α) : Prepared α :=
  match p.settings.set setting with
  | .ok next => p.renew next setting
  | .error _ => p

def changedAll (p : Prepared α) (changes : List (Setting α)) : Prepared α :=
  changes.foldl changed p

theorem renew_ofSettings (s : Settings α) (setting : Setting α) :
    (ofSettings s).renew (setting.assign s) setting =
      ofSettings (setting.assign s) := by
  cases setting <;> rfl

theorem changed_ofSettings (s : Settings α) (setting : Setting α) :
    (ofSettings s).changed setting = ofSettings (s.changed setting) := by
  show (match s.set setting with
    | .ok next => (ofSettings s).renew next setting
    | .error _ => ofSettings s) = _
  rw [Settings.changed_eq]
  rcases s.set_cases setting with ⟨h, hset⟩ | ⟨h, error, hset⟩
  · rw [hset, if_pos h]
    exact renew_ofSettings s setting
  · rw [hset, if_neg h]

/-- What was kept up to date by each change is what follows from the last
settings. -/
theorem changedAll_ofSettings (s : Settings α) (changes : List (Setting α)) :
    (ofSettings s).changedAll changes = ofSettings (s.changedAll changes) := by
  induction changes generalizing s with
  | nil => rfl
  | cons setting changes ih =>
      show ((ofSettings s).changed setting).changedAll changes = _
      rw [changed_ofSettings, ih]
      rfl

end Prepared

/-!
## Changes on a bench
-/

namespace Bench

open Settings

variable {α : Type}

/-- The changes of a session that are made to one fractal. -/
def changesTo (fractal : Nat) (steps : List (Nat × Setting α)) :
    List (Setting α) :=
  (steps.filter fun step => step.1 == fractal).map Prod.snd

theorem changesTo_cons (fractal : Nat) (step : Nat × Setting α)
    (steps : List (Nat × Setting α)) :
    changesTo fractal (step :: steps) =
      if step.1 = fractal then step.2 :: changesTo fractal steps
      else changesTo fractal steps := by
  by_cases h : step.1 = fractal <;> simp [changesTo, h]

variable [Scalar α]

def changeAll (bench : Bench α) (steps : List (Nat × Setting α)) : Bench α :=
  steps.foldl (fun bench step => (bench.change step.1 step.2).2) bench

theorem change_of_accepted (bench : Bench α) {fractal : Nat} {s : Settings α}
    (h : bench.settings? fractal = some s) {setting : Setting α}
    (haccepted : setting.Accepted) :
    (bench.change fractal setting).1 = some (.ok (s.changed setting)) := by
  rcases Option.map_eq_some_iff.mp h with ⟨⟨source, _⟩, hfractal, rfl⟩
  rw [change, hfractal]
  simp only [set_eq_ok haccepted, changed]

theorem change_of_not_accepted (bench : Bench α) {fractal : Nat} {s : Settings α}
    (h : bench.settings? fractal = some s) {setting : Setting α}
    (haccepted : ¬ setting.Accepted) :
    exists error, bench.change fractal setting = (some (.error error), bench) := by
  rcases Option.map_eq_some_iff.mp h with ⟨⟨source, held⟩, hfractal, rfl⟩
  rcases exists_set_eq_error haccepted held with ⟨error, herror⟩
  refine ⟨error, ?_⟩
  rw [change, hfractal]
  simp only [herror]

/-- A change concerns its own fractal and no other one. -/
theorem settings?_change (bench : Bench α) (fractal other : Nat)
    (setting : Setting α) :
    (bench.change fractal setting).2.settings? other =
      if fractal = other then
        (bench.settings? other).map fun s => s.changed setting
      else bench.settings? other := by
  cases hfractal : bench.fractals[fractal]? with
  | none =>
      have hsame : (bench.change fractal setting).2 = bench := by
        rw [change, hfractal]
      rw [hsame]
      split
      · next heq =>
          rw [← heq, settings?, hfractal]
          rfl
      · rfl
  | some held =>
      rcases held with ⟨source, s⟩
      have hsettings : bench.settings? fractal = some s := by
        rw [settings?, hfractal]
        rfl
      by_cases haccepted : setting.Accepted
      · rw [change, hfractal]
        simp only [set_eq_ok haccepted, settings?, Array.getElem?_setIfInBounds]
        split
        · next heq =>
            rcases Array.getElem?_eq_some_iff.mp hfractal with ⟨hlt, _⟩
            rw [← heq, hfractal]
            simp [changed_eq, haccepted, hlt]
        · rfl
      · rcases change_of_not_accepted bench hsettings haccepted with
          ⟨error, hchange⟩
        rw [hchange]
        split
        · next heq =>
            rw [← heq, hsettings, Option.map_some, changed_eq, if_neg haccepted]
        · rfl

theorem settings?_changeAll (bench : Bench α) (steps : List (Nat × Setting α))
    (fractal : Nat) :
    (bench.changeAll steps).settings? fractal =
      (bench.settings? fractal).map fun s =>
        s.changedAll (changesTo fractal steps) := by
  induction steps generalizing bench with
  | nil => exact Option.map_id'.symm
  | cons step steps ih =>
      show ((bench.change step.1 step.2).2.changeAll steps).settings? fractal = _
      rw [ih, settings?_change, changesTo_cons]
      by_cases h : step.1 = fractal
      · rw [if_pos h, if_pos h, Option.map_map]
        rfl
      · rw [if_neg h, if_neg h]

theorem settings?_addFractal (bench : Bench α) (source : Nat) :
    (bench.addFractal source).settings? bench.fractals.size = some initial := by
  simp [addFractal, settings?]

/-- After any session a fractal has the last accepted value of each setting, and
it would have the same ones if changes of different kinds had come in another
order or the refused ones had been left out.  What is renewed change by change
are the least level and the proportions of these values; in exact arithmetic the
root among them is one of a number that is not negative. -/
theorem configuration_of_last_accepted (bench : Bench α) (source : Nat)
    (steps : List (Nat × Setting α)) :
    let fractal := bench.fractals.size
    let after := (bench.addFractal source).changeAll steps
    let changes := changesTo fractal steps
    let kept := (Prepared.ofSettings initial).changedAll changes
    (exists s, after.settings? fractal = some s ∧
      (forall setting : Setting α, setting.Accepted -> exists s',
        (after.change fractal setting).1 = some (.ok s')) ∧
      (forall setting : Setting α, ¬ setting.Accepted -> exists error,
        after.change fractal setting = (some (.error error), after)) ∧
      s.maxLevel = Setting.last Setting.maxLevel? (-1) changes ∧
      s.minLevel = Setting.last Setting.minLevel? (-1) changes ∧
      s.dimension = Setting.last Setting.dimension? snowflakeDimension changes ∧
      (s.dimension = snowflakeDimension ∨
        (1.0 : α) ≤ s.dimension ∧ s.dimension < (2.0 : α)) ∧
      (forall others : List (Setting α),
        Setting.accepted Setting.maxLevel? others =
          Setting.accepted Setting.maxLevel? changes ->
        Setting.accepted Setting.minLevel? others =
          Setting.accepted Setting.minLevel? changes ->
        Setting.accepted Setting.dimension? others =
          Setting.accepted Setting.dimension? changes ->
        initial.changedAll others = s) ∧
      kept.settings = s ∧
      kept.leastLevel =
        (if 0 ≤ s.minLevel ∧ s.minLevel ≤ s.maxLevel then s.minLevel
          else s.maxLevel) ∧
      -1 ≤ kept.leastLevel ∧ kept.leastLevel ≤ s.maxLevel ∧
      (0 ≤ kept.leastLevel <-> 0 ≤ s.maxLevel) ∧
      kept.edgeFraction = pow 4.0 (-1.0 / s.dimension) ∧
      kept.offsetFraction = sqrt (kept.edgeFraction - 0.25)) ∧
    forall history : List (Setting ℝ),
      let s := (initial : Settings ℝ).changedAll history
      1 / 4 ≤ s.edgeFraction ∧ s.edgeFraction < 1 / 2 ∧
        0 ≤ s.offsetFraction ∧ s.offsetFraction ^ 2 = s.edgeFraction - 1 / 4 := by
  intro fractal after changes kept
  have hsettings : after.settings? fractal =
      some (initial.changedAll changes) := by
    rw [settings?_changeAll, settings?_addFractal]
    rfl
  have hkept : kept = Prepared.ofSettings (initial.changedAll changes) :=
    Prepared.changedAll_ofSettings initial changes
  have hreachable := reachable_changedAll changes
  constructor
  · refine ⟨initial.changedAll changes, hsettings, ?_, ?_, ?_⟩
    · intro setting haccepted
      exact ⟨_, after.change_of_accepted hsettings haccepted⟩
    · intro setting haccepted
      exact after.change_of_not_accepted hsettings haccepted
    · rw [hkept]
      refine ⟨?_, ?_, ?_, ?_, ?_, rfl, rfl, hreachable.neg_one_le_leastLevel,
        leastLevel_le _, leastLevel_nonneg_iff _, rfl, rfl⟩
      · rw [changedAll_eq]
        rfl
      · rw [changedAll_eq]
        rfl
      · rw [changedAll_eq]
        rfl
      · rw [changedAll_eq]
        rcases Setting.last_eq_or_mem Setting.dimension? snowflakeDimension
          changes with ⟨_, hfirst⟩ | hmem
        · exact Or.inl hfirst
        · exact Or.inr (Setting.range_of_mem_accepted hmem)
      · intro others hmax hmin hdimension
        rw [changedAll_eq, changedAll_eq]
        simp only [Setting.last, hmax, hmin, hdimension]
  · intro history s
    have hs : s.Reachable := reachable_changedAll history
    have hquarter := quarter_le_edgeFraction hs.dimension_mem.left
    exact ⟨hquarter, hs.edgeFraction_lt_half, hs.proportions.offset_nonneg,
      hs.proportions.offset_sq⟩

end Bench

end SphereFixtures
