import Mathlib.Tactic.Linarith
import Mathlib.Tactic.NormNum
import Mathlib.Tactic.Ring
import ImmersedBody.Proofs.Reals
import ImmersedBody.TimeStep.Window

/-!
# Matching times

A time is matched against the levels of a window one after the other, so that the
first match counts.  The tolerance is relative to the larger of two times.  It is
therefore no distance: a time that is larger than all levels widens the tolerance
itself, by a factor of at most `1 / (1 - tolerance)`.

If half a step is longer than twice the tolerance widened in this way, then a time
matches at most one level.  The main theorem `match?_unambiguous` says what follows
for lists of levels: their order and repetitions do not matter, and the time of a
level is found at this level.
-/

namespace ImmersedBody

namespace StepWindow

variable {tolerance time current new : ℝ} {level other : TimeLevel}

/-! ## Tolerances -/

theorem timesEqual_iff (tolerance a b : ℝ) :
    timesEqual tolerance a b = true ↔ |a - b| ≤ tolerance * max 1 (max |a| |b|) := by
  simp [timesEqual]

theorem timesEqual_self (tolerant : 0 ≤ tolerance) (time : ℝ) :
    timesEqual tolerance time time = true := by
  rw [timesEqual_iff, sub_self, abs_zero]
  exact mul_nonneg tolerant (zero_le_one.trans (le_max_left _ _))

/-- Times that are equal to a bounded one are close to it, whatever their own size is. -/
theorem abs_sub_le_of_timesEqual (tolerant : 0 ≤ tolerance) (below : tolerance < 1) {a b bound : ℝ}
    (one_le : 1 ≤ bound) (b_le : |b| ≤ bound) (equal : timesEqual tolerance a b = true) :
    |a - b| ≤ tolerance / (1 - tolerance) * bound := by
  let size := max 1 (max |a| |b|)
  have close : |a - b| ≤ tolerance * size := (timesEqual_iff tolerance a b).mp equal
  have slack : 0 ≤ tolerance * size :=
    mul_nonneg tolerant (zero_le_one.trans (le_max_left _ _))
  have size_le : size ≤ bound + tolerance * size := by
    have a_le : |a| ≤ bound + tolerance * size := by
      -- `a` can be the largest of all, and exceeds `b` by no more than its own tolerance
      calc |a| ≤ |b| + |a - b| := by linarith [abs_sub_abs_le_abs_sub a b]
        _ ≤ bound + tolerance * size := add_le_add b_le close
    exact max_le (by linarith) (max_le a_le (by linarith))
  have positive : 0 < 1 - tolerance := sub_pos.mpr below
  calc |a - b| ≤ tolerance * size := close
    _ ≤ tolerance * (bound / (1 - tolerance)) := by
        refine mul_le_mul_of_nonneg_left ?_ tolerant
        rw [le_div_iff₀ positive]
        linarith
    _ = tolerance / (1 - tolerance) * bound := by ring

/-! ## Levels -/

/-- The part of a step that has passed at a level. -/
noncomputable def passed : TimeLevel → ℝ
  | .current => 0
  | .half => Scalar.half
  | .new => 1

theorem get_between (current new : ℝ) (level : TimeLevel) :
    (between current new).get level = current + (new - current) * passed level := by
  cases level with
  | current =>
      rw [passed, mul_zero, add_zero]
      rfl
  | half =>
      simp only [between, TimeLevels.get, passed, Scalar.half_real]
      ring
  | new =>
      rw [passed, mul_one, add_sub_cancel]
      rfl

theorem half_le_abs_passed_sub (different : level ≠ other) :
    1 / 2 ≤ |passed level - passed other| := by
  cases level <;> cases other <;> first
    | exact absurd rfl different
    | norm_num [passed, abs_of_pos]

/-- The half time lies in the middle, so that no two levels are closer than half a step. -/
theorem half_length_le (different : level ≠ other) :
    |new - current| / 2 ≤ |(between current new).get level - (between current new).get other| := by
  have difference : (between current new).get level - (between current new).get other =
      (new - current) * (passed level - passed other) := by
    rw [get_between, get_between]
    ring
  calc |new - current| / 2 = |new - current| * (1 / 2) := by ring
    _ ≤ |new - current| * |passed level - passed other| :=
        mul_le_mul_of_nonneg_left (half_le_abs_passed_sub different) (abs_nonneg _)
    _ = |(between current new).get level - (between current new).get other| := by
        rw [difference, abs_mul]

theorem abs_get_le (current new : ℝ) (level : TimeLevel) :
    |(between current new).get level| ≤ max |current| |new| := by
  cases level with
  | current =>
      exact le_max_left _ _
  | half =>
      have middle : (between current new).get .half = (current + new) / 2 := by
        rw [get_between, passed, Scalar.half_real]
        ring
      rw [middle, abs_div, abs_two, div_le_iff₀ two_pos]
      linarith [abs_add_le current new, le_max_left |current| |new|, le_max_right |current| |new|]
  | new =>
      exact le_max_right _ _

/-- If half a step is longer than two widened tolerances, a time matches at most one level. -/
theorem eq_of_timesEqual (tolerant : 0 ≤ tolerance) (below : tolerance < 1)
    (resolved : 2 * tolerance / (1 - tolerance) * max 1 (max |current| |new|) < |new - current| / 2)
    (equal : timesEqual tolerance time ((between current new).get level) = true)
    (equal' : timesEqual tolerance time ((between current new).get other) = true) :
    level = other := by
  let bound := max 1 (max |current| |new|)
  have near (l : TimeLevel)
      (equal : timesEqual tolerance time ((between current new).get l) = true) :
      |time - (between current new).get l| ≤ tolerance / (1 - tolerance) * bound :=
    abs_sub_le_of_timesEqual tolerant below (le_max_left _ _)
      ((abs_get_le current new l).trans (le_max_right _ _)) equal
  by_contra different
  have tooClose : |new - current| / 2 ≤ 2 * tolerance / (1 - tolerance) * bound := by
    calc |new - current| / 2
        ≤ |(between current new).get level - (between current new).get other| :=
          half_length_le different
      _ ≤ |(between current new).get level - time| + |time - (between current new).get other| :=
          abs_sub_le _ _ _
      _ ≤ tolerance / (1 - tolerance) * bound + tolerance / (1 - tolerance) * bound := by
          rw [abs_sub_comm _ time]
          exact add_le_add (near level equal) (near other equal')
      _ = 2 * tolerance / (1 - tolerance) * bound := by ring
  exact absurd resolved (not_lt.mpr tooClose)

/-! ## Lists of levels -/

/-- The time of a level is found at this level if it is the first one to be compared. -/
theorem match?_get (tolerant : 0 ≤ tolerance) (window : StepWindow ℝ) (level : TimeLevel)
    (levels : List TimeLevel) :
    window.match? tolerance (window.get level) (level :: levels) = some level :=
  List.find?_cons_of_pos (timesEqual_self tolerant (window.get level))

section

variable {α : Type} [Scalar α] {window : StepWindow α} {tolerance time : α}
  {levels : List TimeLevel}

theorem timesEqual_of_match? (found : window.match? tolerance time levels = some level) :
    timesEqual tolerance time (window.get level) = true := by
  have matched := List.find?_some found
  exact matched

/-- Where at most one level can match, the first match is the only one. -/
theorem match?_eq_some_iff
    (unique : ∀ level other, timesEqual tolerance time (window.get level) = true →
      timesEqual tolerance time (window.get other) = true → level = other) :
    window.match? tolerance time levels = some level ↔
      level ∈ levels ∧ timesEqual tolerance time (window.get level) = true := by
  constructor
  · intro found
    exact ⟨List.mem_of_find?_eq_some found, timesEqual_of_match? found⟩
  · rintro ⟨member, equal⟩
    have isSome : (window.match? tolerance time levels).isSome = true :=
      List.find?_isSome.mpr ⟨level, member, equal⟩
    rcases Option.isSome_iff_exists.mp isSome with ⟨first, found⟩
    rw [found, unique first level (timesEqual_of_match? found) equal]

end

/--
In a window whose half is longer than twice the widened tolerance, no time matches two levels, the
level that a time matches depends only on which levels are asked for, and the time of each of them
matches it.
-/
theorem match?_unambiguous (tolerance current new : ℝ) (positive : 0 < tolerance)
    (below : tolerance < 1)
    (resolved :
      2 * tolerance / (1 - tolerance) * max 1 (max |current| |new|) < |new - current| / 2) :
    (∀ time level other,
      timesEqual tolerance time ((between current new).get level) = true →
      timesEqual tolerance time ((between current new).get other) = true → level = other) ∧
    (∀ time levels levels', (∀ level, level ∈ levels ↔ level ∈ levels') →
      (between current new).match? tolerance time levels =
        (between current new).match? tolerance time levels') ∧
    ∀ level levels, level ∈ levels →
      (between current new).match? tolerance ((between current new).get level) levels =
        some level := by
  have unique (time : ℝ) (level other : TimeLevel)
      (equal : timesEqual tolerance time ((between current new).get level) = true)
      (equal' : timesEqual tolerance time ((between current new).get other) = true) :
      level = other :=
    eq_of_timesEqual positive.le below resolved equal equal'
  refine ⟨unique, ?_, ?_⟩
  · intro time levels levels' same
    ext level
    rw [match?_eq_some_iff (unique time), match?_eq_some_iff (unique time), same level]
  · intro level levels member
    exact (match?_eq_some_iff (unique _)).mpr ⟨member, timesEqual_self positive.le _⟩

/--
A step backwards through zero with a coarse tolerance.  The time `11.1` is equal to `10` only
because it is larger itself, and it is found at the current level in every list of all levels.
-/
theorem match?_unambiguous_backwards :
    (0 : ℝ) < 1 / 10 ∧ (1 / 10 : ℝ) < 1 ∧
      2 * (1 / 10) / (1 - 1 / 10) * max 1 (max |(10 : ℝ)| |-10|) < |(-10 : ℝ) - 10| / 2 ∧
      1 / 10 * max 1 |(10 : ℝ)| < |(111 / 10 : ℝ) - 10| ∧
      (∀ levels, (∀ level, level ∈ levels) →
        (between 10 (-10)).match? (1 / 10) (111 / 10 : ℝ) levels = some .current) ∧
      (between 10 (-10)).match? (1 / 10) ((between 10 (-10)).get .half : ℝ) [.new, .half, .new] =
        some .half := by
  have positive : (0 : ℝ) < 1 / 10 := by norm_num
  have below : (1 / 10 : ℝ) < 1 := by norm_num
  have resolved : 2 * (1 / 10) / (1 - 1 / 10) * max 1 (max |(10 : ℝ)| |-10|) <
      |(-10 : ℝ) - 10| / 2 := by
    norm_num
  have larger : 1 / 10 * max 1 |(10 : ℝ)| < |(111 / 10 : ℝ) - 10| := by
    norm_num [abs_of_pos]
  rcases match?_unambiguous (1 / 10) 10 (-10) positive below resolved with
    ⟨-, reordered, found⟩
  refine ⟨positive, below, resolved, larger, ?_, found .half _ (by simp)⟩
  intro levels all
  have equal : timesEqual (1 / 10 : ℝ) (111 / 10) ((between 10 (-10)).get .current) = true := by
    rw [timesEqual_iff]
    norm_num [between, TimeLevels.get, abs_of_pos]
  calc (between 10 (-10)).match? (1 / 10) (111 / 10 : ℝ) levels
      = (between 10 (-10)).match? (1 / 10) (111 / 10) [.current, .half, .new] :=
        reordered _ _ _ fun level => by cases level <;> simp [all]
    _ = some .current := List.find?_cons_of_pos equal

end StepWindow

end ImmersedBody
