import SphereFixtures.Logging.Registry

/-!
# Ancestors of a logger

A record passes its own logger first and then loggers with ever shorter paths,
up to the root.  Hence it passes no logger twice, and behind the package logger
it meets the root only.
-/

namespace SphereFixtures

namespace Logging

/-!
## Paths of the ancestors
-/

namespace Path

variable {used : List Path} {parts : List String} {path : Path}

theorem root_mem_upwards (used : List Path) (parts : List String) :
    [] ∈ upwards used parts := by
  fun_induction upwards used parts with
  | case1 => exact List.mem_singleton_self _
  | case2 part => exact List.mem_cons_of_mem _ (List.mem_singleton_self _)
  | case3 part next rest path hhidden ih => exact List.mem_cons_of_mem _ ih
  | case4 part next rest path hhidden ih => exact List.mem_cons_of_mem _ ih

theorem self_mem_upwards (used : List Path) (parts : List String) :
    parts.reverse ∈ upwards used parts := by
  fun_cases upwards used parts <;> exact List.mem_cons_self

theorem isPrefix_of_mem_upwards (h : path ∈ upwards used parts) :
    path <+: parts.reverse := by
  fun_induction upwards used parts with
  | case1 =>
      rw [List.mem_singleton.mp h]
      exact List.nil_prefix
  | case2 part =>
      rcases List.mem_cons.mp h with rfl | hmem
      · exact List.prefix_rfl
      · rw [List.mem_singleton.mp hmem]
        exact List.nil_prefix
  | case3 part next rest whole hhidden ih =>
      rcases List.mem_cons.mp h with rfl | hmem
      · exact List.prefix_rfl
      · have hrest : rest.reverse <+: (part :: next :: rest).reverse :=
          List.reverse_prefix.mpr (List.suffix_append [part, next] rest)
        exact (ih hmem).trans hrest
  | case4 part next rest whole hhidden ih =>
      rcases List.mem_cons.mp h with rfl | hmem
      · exact List.prefix_rfl
      · have hrest : (next :: rest).reverse <+: (part :: next :: rest).reverse :=
          List.reverse_prefix.mpr (List.suffix_cons part (next :: rest))
        exact (ih hmem).trans hrest

/-- The ancestors of an ancestor are ancestors. -/
theorem upwards_suffix_of_mem (h : path ∈ upwards used parts) :
    upwards used path.reverse <:+ upwards used parts := by
  fun_induction upwards used parts with
  | case1 =>
      rw [List.mem_singleton.mp h]
      exact List.suffix_rfl
  | case2 part =>
      rcases List.mem_cons.mp h with rfl | hmem
      · exact List.suffix_rfl
      · rw [List.mem_singleton.mp hmem]
        exact List.suffix_cons _ _
  | case3 part next rest whole hhidden ih =>
      rcases List.mem_cons.mp h with rfl | hmem
      · have hwhole : upwards used whole.reverse = whole :: upwards used rest := by
          rw [List.reverse_reverse, upwards, if_pos hhidden]
        exact ⟨[], hwhole⟩
      · exact (ih hmem).trans (List.suffix_cons _ _)
  | case4 part next rest whole hhidden ih =>
      rcases List.mem_cons.mp h with rfl | hmem
      · have hwhole :
            upwards used whole.reverse = whole :: upwards used (next :: rest) := by
          rw [List.reverse_reverse, upwards, if_neg hhidden]
        exact ⟨[], hwhole⟩
      · exact (ih hmem).trans (List.suffix_cons _ _)

theorem length_le_of_mem_upwards (h : path ∈ upwards used parts) :
    path.length ≤ parts.length := by
  have hle := (isPrefix_of_mem_upwards h).length_le
  rwa [List.length_reverse] at hle

/-- Every ancestor is shorter than the one before it. -/
theorem pairwise_upwards (used : List Path) (parts : List String) :
    (upwards used parts).Pairwise fun nearer farther =>
      farther.length < nearer.length := by
  fun_induction upwards used parts with
  | case1 => exact List.pairwise_singleton _ _
  | case2 part => simp
  | case3 part next rest path hhidden ih =>
      refine List.Pairwise.cons (fun farther hmem => ?_) ih
      have hle := length_le_of_mem_upwards hmem
      simp only [path, List.length_reverse, List.length_cons]
      omega
  | case4 part next rest path hhidden ih =>
      refine List.Pairwise.cons (fun farther hmem => ?_) ih
      have hle := length_le_of_mem_upwards hmem
      simp only [path, List.length_reverse, List.length_cons] at hle ⊢
      omega

theorem nodup_upwards (used : List Path) (parts : List String) :
    (upwards used parts).Nodup := by
  refine (pairwise_upwards used parts).imp ?_
  rintro nearer farther hlt rfl
  exact Nat.lt_irrefl _ hlt

/-- Without empty parts, all shorter paths are ancestors. -/
theorem mem_upwards_of_isPrefix (hparts : "" ∉ parts) (h : path <+: parts.reverse) :
    path ∈ upwards used parts := by
  fun_induction upwards used parts with
  | case1 => exact List.mem_singleton.mpr (List.prefix_nil.mp h)
  | case2 part =>
      rcases List.prefix_cons_iff.mp h with rfl | ⟨rest, rfl, hrest⟩
      · simp
      · rw [List.prefix_nil.mp hrest]
        simp
  | case3 part next rest whole hhidden ih =>
      rw [hhidden.left] at hparts
      exact absurd List.mem_cons_self hparts
  | case4 part next rest whole hhidden ih =>
      rw [List.reverse_cons] at h
      rcases List.prefix_concat_iff.mp h with rfl | hprefix
      · rw [← List.reverse_cons]
        exact List.mem_cons_self
      · apply List.mem_cons_of_mem
        exact ih (fun hmem => hparts (List.mem_cons_of_mem _ hmem)) hprefix

end Path

namespace Registry

/-- Whether records of a logger pass another one, which is the logger itself or
an ancestor.  A path with empty parts may lie under fewer loggers than its
beginnings. -/
def Under (registry : Registry) (ancestor path : Path) : Prop :=
  ancestor ∈ Path.upwards registry.used path.reverse

instance (registry : Registry) (ancestor path : Path) :
    Decidable (registry.Under ancestor path) :=
  inferInstanceAs (Decidable (ancestor ∈ Path.upwards registry.used path.reverse))

variable {registry : Registry} {ancestor path : Path}

theorem under_self (registry : Registry) (path : Path) : registry.Under path path := by
  have h := Path.self_mem_upwards registry.used path.reverse
  rwa [List.reverse_reverse] at h

theorem Under.isPrefix (h : registry.Under ancestor path) : ancestor <+: path := by
  have hprefix := Path.isPrefix_of_mem_upwards h
  rwa [List.reverse_reverse] at hprefix

theorem Under.trans {nearer : Path} (hfar : registry.Under ancestor nearer)
    (hnear : registry.Under nearer path) : registry.Under ancestor path :=
  (Path.upwards_suffix_of_mem hnear).subset hfar

/-- For a path without empty parts, the loggers above it are its beginnings. -/
theorem under_iff_isPrefix (hpath : "" ∉ path) :
    registry.Under ancestor path <-> ancestor <+: path := by
  refine ⟨Under.isPrefix, fun h => ?_⟩
  apply Path.mem_upwards_of_isPrefix
  · rwa [List.mem_reverse]
  · rwa [List.reverse_reverse]

theorem under_packagePath (h : registry.Under mismatchPath path) :
    registry.Under packagePath path :=
  Under.trans ((under_iff_isPrefix (by decide)).mpr (by decide)) h

/-- Behind the package logger only the root follows. -/
theorem upwards_eq_append (h : registry.Under packagePath path) :
    exists near : List Path,
      Path.upwards registry.used path.reverse = near ++ [packagePath, []] ∧
        packagePath ∉ near ∧ [] ∉ near := by
  have hroot := Path.root_mem_upwards registry.used path.reverse
  have hshorter := Path.pairwise_upwards registry.used path.reverse
  rcases List.append_of_mem h with ⟨near, far, heq⟩
  rw [heq] at hroot hshorter
  rcases List.pairwise_append.mp hshorter with ⟨_, hbehind, hbefore⟩
  rcases List.pairwise_cons.mp hbehind with ⟨hfar, hdecreasing⟩
  have hnear : forall nearer, nearer ∈ near -> 1 < nearer.length := by
    intro nearer hmem
    exact hbefore nearer hmem packagePath List.mem_cons_self
  have hempty : [] ∉ near := fun hmem => Nat.not_lt_zero _ (hnear [] hmem)
  have hlast : [] ∈ far := by
    rcases List.mem_append.mp hroot with hmem | hmem
    · exact absurd hmem hempty
    · exact List.mem_of_ne_of_mem (by decide) hmem
  -- behind a path of one part, only the empty one is shorter
  have hsingle : far = [[]] := by
    cases far with
    | nil => cases hlast
    | cons first others =>
        have hfirst : first = [] := List.length_eq_zero_iff.mp
          (Nat.lt_one_iff.mp (hfar first List.mem_cons_self))
        have hothers : others = [] := by
          apply List.eq_nil_iff_forall_not_mem.mpr
          intro other hmem
          have hlt := (List.pairwise_cons.mp hdecreasing).left other hmem
          rw [hfirst] at hlt
          exact Nat.not_lt_zero _ hlt
        rw [hfirst, hothers]
  exact ⟨near, by rw [heq, hsingle], fun hmem => Nat.lt_irrefl _ (hnear _ hmem), hempty⟩

/-!
## Loggers on the way
-/

theorem reached_append {near : List Logger}
    (hnear : forall l, l ∈ near -> l.propagate = true) (far : List Logger) :
    reached (near ++ far) = near ++ reached far := by
  induction near with
  | nil => rfl
  | cons l rest ih =>
      rw [List.cons_append, reached, if_pos (hnear l List.mem_cons_self),
        ih fun other hmem => hnear other (List.mem_cons_of_mem l hmem), List.cons_append]

theorem mem_of_mem_reached {chain : List Logger} {l : Logger} (h : l ∈ reached chain) :
    l ∈ chain := by
  induction chain with
  | nil => exact h
  | cons first rest ih =>
      rw [reached] at h
      split at h
      · rcases List.mem_cons.mp h with heq | hmem
        · exact List.mem_cons.mpr (.inl heq)
        · exact List.mem_cons_of_mem first (ih hmem)
      · exact List.mem_cons.mpr (.inl (List.mem_singleton.mp h))

theorem effectiveLevel_append (near far : List Logger) :
    effectiveLevel (near ++ far) =
      if effectiveLevel near = 0 then effectiveLevel far else effectiveLevel near := by
  induction near with
  | nil => rfl
  | cons l rest ih =>
      rw [List.cons_append, effectiveLevel, effectiveLevel, ih]
      by_cases hlevel : l.level = 0
      · rw [if_pos hlevel, if_pos hlevel]
      · rw [if_neg hlevel, if_neg hlevel, if_neg hlevel]

theorem logger_eq_ite (registry : Registry) {path : Path}
    (hpackage : path ≠ packagePath) (hroot : path ≠ []) :
    registry.logger path =
      if path = mismatchPath then registry.mismatch else Logger.plain := by
  rw [logger, if_neg hpackage, if_neg hroot]

theorem handlers_near (registry : Registry) {near : List Path} (hnodup : near.Nodup)
    (hpackage : packagePath ∉ near) (hroot : [] ∉ near) :
    (near.map registry.logger).flatMap Logger.handlers =
      if mismatchPath ∈ near then registry.mismatch.handlers else [] := by
  induction near with
  | nil => rfl
  | cons first rest ih =>
      rcases List.nodup_cons.mp hnodup with ⟨hnew, hrest⟩
      have hfirst : registry.logger first = _ := registry.logger_eq_ite
        (fun heq => hpackage (heq ▸ List.mem_cons_self))
        (fun heq => hroot (heq ▸ List.mem_cons_self))
      rw [List.map_cons, List.flatMap_cons, hfirst,
        ih hrest (fun hmem => hpackage (List.mem_cons_of_mem _ hmem))
          (fun hmem => hroot (List.mem_cons_of_mem _ hmem))]
      by_cases heq : first = mismatchPath
      · rw [heq] at hnew ⊢
        simp [hnew]
      · simp [heq, Ne.symm heq, Logger.plain]

theorem effectiveLevel_near (registry : Registry) {near : List Path}
    (hpackage : packagePath ∉ near) (hroot : [] ∉ near) :
    effectiveLevel (near.map registry.logger) =
      if mismatchPath ∈ near then registry.mismatch.level else 0 := by
  induction near with
  | nil => rfl
  | cons first rest ih =>
      have hfirst : registry.logger first = _ := registry.logger_eq_ite
        (fun heq => hpackage (heq ▸ List.mem_cons_self))
        (fun heq => hroot (heq ▸ List.mem_cons_self))
      rw [List.map_cons, effectiveLevel, hfirst,
        ih (fun hmem => hpackage (List.mem_cons_of_mem _ hmem))
          (fun hmem => hroot (List.mem_cons_of_mem _ hmem))]
      by_cases heq : first = mismatchPath
      · by_cases hlevel : registry.mismatch.level = 0
        · simp [heq, hlevel]
        · simp [heq, hlevel]
      · simp [heq, Ne.symm heq, Logger.plain]

section Package

variable (h : registry.Under packagePath path)

include h

/-- The mismatch logger may come first, and then the package and the root. -/
theorem exists_chain_eq_append :
    exists near : List Logger,
      registry.chain path = near ++ [registry.package, registry.root] ∧
        (registry.mismatch.propagate = true ->
          forall l, l ∈ near -> l.propagate = true) ∧
        near.flatMap Logger.handlers =
          (if registry.Under mismatchPath path then registry.mismatch.handlers
            else []) ∧
        effectiveLevel near =
          (if registry.Under mismatchPath path then registry.mismatch.level
            else 0) := by
  rcases upwards_eq_append h with ⟨near, heq, hpackage, hroot⟩
  have hunder : registry.Under mismatchPath path <-> mismatchPath ∈ near := by
    rw [Under, heq, List.mem_append]
    exact or_iff_left (by decide)
  have hnodup : near.Nodup := by
    have hall := Path.nodup_upwards registry.used path.reverse
    rw [heq] at hall
    exact (List.nodup_append.mp hall).left
  refine ⟨near.map registry.logger, ?_, ?_, ?_, ?_⟩
  · rw [chain, heq, List.map_append]
    rfl
  · intro hpropagate l hl
    rcases List.mem_map.mp hl with ⟨nearer, hmem, rfl⟩
    rw [registry.logger_eq_ite (fun heq => hpackage (heq ▸ hmem))
      (fun heq => hroot (heq ▸ hmem))]
    split
    · exact hpropagate
    · rfl
  · simp only [registry.handlers_near hnodup hpackage hroot, hunder]
  · simp only [registry.effectiveLevel_near hpackage hroot, hunder]

/-- The least level that passes a logger of the package. -/
theorem effectiveLevel_chain :
    effectiveLevel (registry.chain path) =
      if registry.Under mismatchPath path ∧ registry.mismatch.level ≠ 0 then
        registry.mismatch.level
      else if registry.package.level = 0 then registry.root.level
      else registry.package.level := by
  rcases exists_chain_eq_append h with ⟨near, heq, _, _, hlevel⟩
  have hroot : effectiveLevel [registry.package, registry.root] =
      if registry.package.level = 0 then registry.root.level
      else registry.package.level := by
    by_cases hzero : registry.root.level = 0
    · simp [effectiveLevel, hzero]
    · simp [effectiveLevel, hzero]
  rw [heq, effectiveLevel_append, hlevel, hroot]
  by_cases hunder : registry.Under mismatchPath path
  · by_cases hzero : registry.mismatch.level = 0
    · simp [hzero]
    · simp [hunder, hzero]
  · simp [hunder]

/-- The handlers that a record of the package is offered to. -/
theorem handlers_reached (hpropagate : registry.mismatch.propagate = true) :
    (reached (registry.chain path)).flatMap Logger.handlers =
      (if registry.Under mismatchPath path then registry.mismatch.handlers else [])
        ++ registry.package.handlers
        ++ (if registry.package.propagate then registry.root.handlers else []) := by
  rcases exists_chain_eq_append h with ⟨near, heq, hnear, hhandlers, _⟩
  rw [heq, reached_append (hnear hpropagate), List.flatMap_append, hhandlers,
    List.append_assoc]
  congr 1
  by_cases hpackage : registry.package.propagate = true
  · simp [reached, hpackage]
  · simp [reached, hpackage]

end Package

theorem exists_under_of_mem_receivers {record : Record} {handler : Handler}
    (h : handler ∈ registry.receivers record) :
    exists ancestor, registry.Under ancestor record.logger ∧
      handler ∈ (registry.logger ancestor).handlers := by
  rw [receivers] at h
  split at h
  · rcases List.mem_flatMap.mp (List.mem_filter.mp h).left with ⟨l, hreached, hhandler⟩
    rcases List.mem_map.mp (mem_of_mem_reached hreached) with ⟨ancestor, hunder, rfl⟩
    exact ⟨ancestor, hunder, hhandler⟩
  · cases h

end Registry

end Logging

end SphereFixtures
