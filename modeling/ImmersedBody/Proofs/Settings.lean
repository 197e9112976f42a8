import ImmersedBody.Proofs.Json.Numbers
import ImmersedBody.Proofs.Json.Records
import ImmersedBody.Proofs.Outcomes
import ImmersedBody.Settings

/-!
# Settings come back as they were written

Settings that pass their check are read back from their own text, on one line or on many, whatever
their name, order and tolerance are.  There is one exception.  The check bounds the tolerance from
below only, so it lets positive infinity pass; infinity is written as null, and null is not taken
for a number.

The main result is `Settings.read_text_iff`.
-/

namespace ImmersedBody

/-- Infinity is the only positive number that is not finite. -/
theorem eq_infinity_of_pos {x : Float} (positive : 0 < x) (infinite : ¬ x.isFinite = true) :
    x = 1 / 0 := by
  have whole := ofModel_pack_unpack x
  have above : (Float.Model.UnpackedFloat.zero .positive).lt x.toModel.unpack = true :=
    of_decide_eq_true positive
  have unbounded : ¬ x.toModel.unpack.isFinite = true :=
    infinite
  generalize x.toModel.unpack = unpacked at *
  cases unpacked with
  | notANumber =>
      cases above
  | infinity sign =>
      cases sign with
      | positive =>
          rw [← whole]
          decide +kernel
      | negative =>
          cases above
  | zero sign =>
      exact absurd rfl unbounded
  | finite sign mantissa exponent positive =>
      exact absurd rfl unbounded

namespace Settings

open Reader

variable {settings : Settings Float}

/-- Settings are read back if their order fits and their tolerance is finite. -/
theorem answers_text (order : settings.quadratureOrder < wordCount) :
    Answers reader settings.text
      (if settings.timeTolerance.isFinite then some settings else none) := by
  have orders := answers_natural settings.quadratureOrder wordCount
  rw [if_pos order] at orders
  have collects : Collects recordKind
      [("object_name", .string settings.objectName),
        ("quadrature_order", .natural settings.quadratureOrder),
        ("time_epsilon", .number settings.timeTolerance)] recordKind.start _ :=
    .take rfl rfl rfl (answers_string settings.objectName) fun _ =>
      .take rfl rfl rfl orders fun _ =>
        .take rfl rfl rfl (answers_float settings.timeTolerance) fun _ => .nil
  have answers := answers_record collects
  by_cases finite : settings.timeTolerance.isFinite = true
  · rw [if_pos finite] at answers
    rw [if_pos finite]
    exact answers
  · rw [if_neg finite] at answers
    rw [if_neg finite]
    exact answers

/-- What the check demands of settings. -/
theorem check_eq_ok_iff :
    settings.check = .ok () ↔ settings.objectName ≠ "" ∧
      settings.quadratureOrder ≤ maximumOrder ∧ 0 < settings.timeTolerance := by
  have lower : (!Scalar.lt 0 settings.timeTolerance) = true ↔ ¬ 0 < settings.timeTolerance := by
    rw [Bool.not_eq_true', Scalar.lt]
    exact decide_eq_false_iff_not
  rw [check, refuse_eq_ok_iff, refuse_eq_ok_iff, refuse_eq_ok_iff, lower, not_not, not_lt,
    String.isEmpty_iff]
  simp

/-- What reading makes of the text of settings that pass their check, in either layout. -/
theorem read_text (accepted : settings.check = .ok ()) (layout : JsonLayout) :
    ∃ details, read (String.ofList (settings.text layout)) =
      if settings.timeTolerance.isFinite then .ok settings else .error (.unreadable details) := by
  have order : settings.quadratureOrder < wordCount :=
    (check_eq_ok_iff.mp accepted).2.1.trans_lt (by decide)
  have symbols : Symbol.ofString (String.ofList (settings.text layout)) =
      (settings.text layout).map .char := by
    rw [Symbol.ofString, String.toList_ofList]
  rw [read, symbols, (answers_text order).whole layout]
  by_cases finite : settings.timeTolerance.isFinite = true
  · refine ⟨"", ?_⟩
    rw [if_pos finite, if_pos finite]
    simp only [verdict, accepted]
  · simp only [if_neg finite]
    exact ⟨_, rfl⟩

/-- The check lets one tolerance pass that is not finite. -/
theorem isFinite_iff_of_check (accepted : settings.check = .ok ()) :
    settings.timeTolerance.isFinite = true ↔ settings.timeTolerance ≠ 1 / 0 := by
  constructor
  · intro finite infinity
    rw [infinity] at finite
    exact absurd finite (by decide +kernel)
  · intro bounded
    by_contra infinite
    exact bounded (eq_infinity_of_pos (check_eq_ok_iff.mp accepted).2.2 infinite)

theorem read_text_of_ne (accepted : settings.check = .ok ())
    (bounded : settings.timeTolerance ≠ 1 / 0) (layout : JsonLayout) :
    read (String.ofList (settings.text layout)) = .ok settings := by
  rcases read_text accepted layout with ⟨details, found⟩
  rw [found, if_pos ((isFinite_iff_of_check accepted).mpr bounded)]

theorem read_text_of_infinity (accepted : settings.check = .ok ())
    (infinity : settings.timeTolerance = 1 / 0) (layout : JsonLayout) :
    ∃ details, read (String.ofList (settings.text layout)) = .error (.unreadable details) := by
  have infinite : ¬ settings.timeTolerance.isFinite = true :=
    fun finite => (isFinite_iff_of_check accepted).mp finite infinity
  rcases read_text accepted layout with ⟨details, found⟩
  exact ⟨details, by rw [found, if_neg infinite]⟩

/-! ## The main result -/

/--
Settings that pass their check are read back from their text exactly if their tolerance is not
infinite.  Otherwise the text is not taken for settings.
-/
theorem read_text_iff (settings : Settings Float) (accepted : settings.check = .ok ())
    (layout : JsonLayout) :
    (read (String.ofList (settings.text layout)) = .ok settings ↔
      settings.timeTolerance ≠ 1 / 0) ∧
    (settings.timeTolerance = 1 / 0 →
      ∃ details, read (String.ofList (settings.text layout)) = .error (.unreadable details)) := by
  refine ⟨⟨?_, fun bounded => read_text_of_ne accepted bounded layout⟩,
    fun infinity => read_text_of_infinity accepted infinity layout⟩
  intro taken infinity
  rcases read_text_of_infinity accepted infinity layout with ⟨details, refused⟩
  rw [refused] at taken
  cases taken

/-- The highest order, and the smallest tolerance that is told apart from zero. -/
def extreme : Settings Float :=
  ⟨"a \"b\"\n", 30, 5e-324⟩

theorem read_text_extreme : read extreme.text.compact = .ok extreme := by
  have accepted : extreme.check = .ok () := by
    decide +kernel
  have bounded : extreme.timeTolerance ≠ 1 / 0 := by
    decide +kernel
  exact (read_text_iff extreme accepted none).1.mpr bounded

/-- An infinite tolerance passes the check, but its text cannot be read. -/
theorem infinite_tolerance_lost :
    check (⟨"m", 5, 1 / 0⟩ : Settings Float) = .ok () ∧
      ∃ details, read (text ⟨"m", 5, 1 / 0⟩).compact = .error (.unreadable details) := by
  have accepted : check (⟨"m", 5, 1 / 0⟩ : Settings Float) = .ok () := by
    decide +kernel
  exact ⟨accepted, read_text_of_infinity accepted rfl none⟩

end Settings

end ImmersedBody
