import ImmersedBody.Proofs.Json.Numbers
import ImmersedBody.Proofs.Json.Records
import ImmersedBody.Restart.Text

/-!
# Restart records come back as they were written

A record is written as a text, and read from the text or from its bytes.  A record of the current
version whose velocities are finite comes back as it was, whatever its name and however many
structures it has.  A record of another version is told by its version.  A velocity that is not
finite is written too, but its text is not taken for a record: `RestartRecord.read_indented` says
what reading makes of the text of any record.

The main result is `RestartRecord.round_trip`.
-/

namespace ImmersedBody

/-! ## Bytes -/

namespace Symbol

theorem ofBytesFrom_utf8Encode (before : ByteArray) (cs : List Char) :
    ofBytesFrom (before ++ cs.utf8Encode) before.size = cs.map char := by
  induction cs generalizing before with
  | nil =>
      rw [ofBytesFrom, if_neg (by simp)]
      rfl
  | cons c cs ih =>
      have split : before ++ (c :: cs).utf8Encode =
          (before ++ [c].utf8Encode) ++ cs.utf8Encode := by
        rw [List.utf8Encode_cons, ByteArray.append_assoc]
      have size : (before ++ [c].utf8Encode).size = before.size + c.utf8Size := by
        rw [ByteArray.size_append, List.utf8Encode_singleton]
        simp
      have inside : before.size < (before ++ (c :: cs).utf8Encode).size := by
        have := c.utf8Size_pos
        rw [split, ByteArray.size_append, size]
        omega
      have decoded : (before ++ (c :: cs).utf8Encode).utf8DecodeChar? before.size = some c := by
        rw [ByteArray.utf8DecodeChar?_eq_utf8DecodeChar?_extract,
          ByteArray.extract_append_eq_right rfl ByteArray.size_append,
          List.utf8DecodeChar?_utf8Encode_cons]
      rw [ofBytesFrom, if_pos inside, decoded]
      simp only
      rw [← size, split, ih]
      rfl

/-- The bytes of a text are read as the text. -/
theorem ofBytes_toUTF8 (text : String) : ofBytes text.toUTF8 = ofString text := by
  have whole := ofBytesFrom_utf8Encode ByteArray.empty text.toList
  rw [ByteArray.empty_append, String.utf8Encode_toList] at whole
  exact whole

end Symbol

/-! ## Velocities and records -/

namespace Reader

variable {β γ : Type}

/-- Of values that are kept or refused one by one, all are kept or none. -/
theorem mapM_keep (kept : β → Prop) [DecidablePred kept] (values : List β) :
    (values.map fun value => if kept value then some value else none).mapM id =
      if ∀ value ∈ values, kept value then some values else none := by
  induction values with
  | nil =>
      simp
  | cons value values ih =>
      rw [List.map_cons, List.mapM_cons, ih]
      simp only [List.forall_mem_cons]
      by_cases first : kept value
      · by_cases others : ∀ value ∈ values, kept value
        · rw [if_pos first, if_pos others, if_pos (And.intro first others)]
          rfl
        · rw [if_pos first, if_neg others, if_neg (others ∘ And.right)]
          rfl
      · rw [if_neg first, if_neg (first ∘ And.left)]
        rfl

/-- Items that are read back one by one. -/
theorem forall₂_answers {item : Reader β} {text : γ → JsonText} {answer : γ → Option β}
    (each : ∀ value, Answers item (text value) (answer value)) (values : List γ) :
    List.Forall₂ (Answers item) (values.map text) (values.map answer) := by
  rw [List.forall₂_map_left_iff, List.forall₂_map_right_iff, List.forall₂_same]
  exact fun value _ => each value

end Reader

open Reader

/-- All components are finite. -/
def Vec3.IsFinite (v : Vec3 Float) : Prop :=
  ∀ x ∈ v.toList, x.isFinite = true

instance (v : Vec3 Float) : Decidable v.IsFinite :=
  inferInstanceAs (Decidable (∀ x ∈ v.toList, x.isFinite = true))

namespace RigidVelocity

/-- All components are finite. -/
def IsFinite (velocity : RigidVelocity Float) : Prop :=
  velocity.translational.IsFinite ∧ velocity.rotational.IsFinite

instance (velocity : RigidVelocity Float) : Decidable velocity.IsFinite :=
  inferInstanceAs (Decidable (_ ∧ _))

/-- The vector with the components of a list of three. -/
def vector? : List Float → Option (Vec3 Float)
  | [x, y, z] => some ⟨x, y, z⟩
  | _ => none

theorem readVector_eq : readVector = (do given (vector? (← array 3 float))) := by
  rw [readVector]
  congr 1
  funext components
  rcases components with _ | ⟨x, _ | ⟨y, _ | ⟨z, _ | _⟩⟩⟩ <;> rfl

/-- A vector is read back if its components are finite. -/
theorem answers_vector (v : Vec3 Float) :
    Answers readVector (vectorText v) (if v.IsFinite then some v else none) := by
  have each := answers_array (forall₂_answers answers_float v.toList)
  rw [mapM_keep (fun x : Float => x.isFinite = true)] at each
  have taken := each.bind_given vector?
  rw [readVector_eq]
  by_cases finite : v.IsFinite
  · rw [if_pos finite]
    rw [if_pos (show ∀ x ∈ v.toList, x.isFinite = true from finite)] at taken
    exact taken
  · rw [if_neg finite]
    rw [if_neg (show ¬ ∀ x ∈ v.toList, x.isFinite = true from finite)] at taken
    exact taken

variable {translational rotational : String}

/-- A velocity is read back if its components are finite. -/
theorem answers_velocity (apart : translational ≠ rotational) (velocity : RigidVelocity Float) :
    Answers (record (recordKind translational rotational))
      (recordText translational rotational velocity)
      (if velocity.IsFinite then some velocity else none) := by
  have found : (recordKind translational rotational).fields.find? (·.name == translational) =
      (recordKind translational rotational).fields[0]? := by
    simp [recordKind]
  have found' : (recordKind translational rotational).fields.find? (·.name == rotational) =
      (recordKind translational rotational).fields[1]? := by
    simp [recordKind, apart]
  have collects : Collects (recordKind translational rotational)
      [(translational, vectorText velocity.translational),
        (rotational, vectorText velocity.rotational)] (none, none) _ :=
    .take found rfl rfl (answers_vector velocity.translational) fun _ =>
      .take found' rfl rfl (answers_vector velocity.rotational) fun _ => .nil
  have answers := answers_record collects
  by_cases finite : velocity.translational.IsFinite
  · by_cases finite' : velocity.rotational.IsFinite
    · rw [if_pos finite, if_pos finite'] at answers
      rw [if_pos (show velocity.IsFinite from ⟨finite, finite'⟩)]
      exact answers
    · rw [if_pos finite, if_neg finite'] at answers
      rw [if_neg (show ¬ velocity.IsFinite from finite' ∘ And.right)]
      exact answers
  · rw [if_neg finite] at answers
    rw [if_neg (show ¬ velocity.IsFinite from finite ∘ And.left)]
    exact answers

end RigidVelocity

namespace RestartRecord

theorem answers_velocity (velocity : RigidVelocity Float) :
    Answers velocityReader (velocityText velocity)
      (if velocity.IsFinite then some velocity else none) :=
  RigidVelocity.answers_velocity (by decide) velocity

theorem answers_velocities (velocities : List (RigidVelocity Float)) :
    Answers (list velocityReader) (.list (velocities.map velocityText))
      (if ∀ velocity ∈ velocities, velocity.IsFinite then some velocities else none) := by
  have each := answers_list (forall₂_answers answers_velocity velocities)
  rw [mapM_keep RigidVelocity.IsFinite] at each
  exact each

/-- All velocities are finite. -/
def IsFinite (record : RestartRecord Float) : Prop :=
  ∀ velocity ∈ record.velocities, velocity.IsFinite

instance (record : RestartRecord Float) : Decidable record.IsFinite :=
  inferInstanceAs (Decidable (∀ velocity ∈ record.velocities, velocity.IsFinite))

variable {record : RestartRecord Float}

/-- A record with a version of 32 bits is read back if its velocities are finite. -/
theorem answers_text (version : record.version < 0x100000000) :
    Answers reader record.text (if record.IsFinite then some record else none) := by
  have versions := answers_natural record.version 0x100000000
  rw [if_pos version] at versions
  have collects : Collects recordKind
      [("object_name", .string record.objectName), ("version", .natural record.version),
        ("structures", .list (record.velocities.map velocityText))] recordKind.start _ :=
    .take rfl rfl rfl (answers_string record.objectName) fun _ =>
      .take rfl rfl rfl versions fun _ =>
        .take rfl rfl rfl (answers_velocities record.velocities) fun _ => .nil
  have answers := answers_record collects
  by_cases finite : record.IsFinite
  · rw [if_pos (show ∀ velocity ∈ record.velocities, velocity.IsFinite from finite)] at answers
    rw [if_pos finite]
    exact answers
  · rw [if_neg (show ¬ ∀ velocity ∈ record.velocities, velocity.IsFinite from finite)] at answers
    rw [if_neg finite]
    exact answers

/-- What reading makes of the text of a record. -/
theorem read_indented (version : record.version < 0x100000000) :
    ∃ details, read (Symbol.ofString record.text.indented) =
      if record.IsFinite then
        if record.version = currentVersion then .ok record
        else .error (.versionMismatch record.version currentVersion)
      else .error (.malformed details) := by
  have symbols : Symbol.ofString record.text.indented = (record.text (some 0)).map .char := by
    rw [Symbol.ofString, JsonText.indented, String.toList_ofList]
  rw [read, symbols, (answers_text version).whole (some 0)]
  by_cases finite : record.IsFinite
  · refine ⟨"", ?_⟩
    rw [if_pos finite, if_pos finite]
    simp only [verdict, checkVersion]
    split_ifs <;> rfl
  · simp only [if_neg finite]
    exact ⟨_, rfl⟩

/-- A place takes a text if there is room for it and the place does not fail at its end. -/
structure Sink.Takes (sink : Sink) (text : String) : Prop where
  room : ∀ capacity ∈ sink.capacity, text.utf8ByteSize ≤ capacity
  completes : sink.failsAtEnd = false

/-- What is written is the text of the record, to any place that takes it. -/
theorem write_iff {sink : Sink} {written : String} :
    record.write sink = .ok written ↔
      written = record.text.indented ∧ sink.Takes record.text.indented := by
  have full : sink.capacity.any (· < record.text.indented.utf8ByteSize) = true ↔
      ¬ ∀ capacity ∈ sink.capacity, record.text.indented.utf8ByteSize ≤ capacity := by
    cases sink.capacity <;> simp
  rw [write]
  split_ifs with short failing
  · exact iff_of_false not_false fun takes => full.mp short takes.2.room
  · refine iff_of_false not_false fun takes => ?_
    rw [takes.2.completes] at failing
    cases failing
  · constructor
    · rintro ⟨⟩
      exact ⟨rfl, not_not.mp (mt full.mpr short), Bool.eq_false_iff.mpr failing⟩
    · rintro ⟨rfl, -⟩
      rfl

/-- Two structures, with a name that has to be escaped and components at both ends of the range. -/
def twoBodies : RestartRecord Float :=
  .current "Körper \"7\"\n\u0001\\ 🐟"
    [⟨⟨0.1, -0.0, 5e-324⟩, ⟨1e22, -2.5e-7, 1.7976931348623157e308⟩⟩, ⟨⟨0, 0, 0⟩, ⟨0, 0, 1⟩⟩]

/-! ## The main result -/

/--
A restart record comes back as it was written, from its text and from its bytes, or is refused for
its version.
-/
theorem round_trip (record : RestartRecord Float) (version : record.version < 0x100000000)
    (finite : record.IsFinite) :
    (∀ sink : Sink, sink.Takes record.text.indented →
      record.write sink = .ok record.text.indented) ∧
    (∀ sink written, record.write sink = .ok written → written = record.text.indented) ∧
    (record.version = currentVersion →
      read (Symbol.ofString record.text.indented) = .ok record ∧
        read (Symbol.ofBytes record.text.indented.toUTF8) = .ok record) ∧
    (record.version ≠ currentVersion →
      read (Symbol.ofString record.text.indented) =
          .error (.versionMismatch record.version currentVersion) ∧
        read (Symbol.ofBytes record.text.indented.toUTF8) =
          .error (.versionMismatch record.version currentVersion)) := by
  rcases read_indented version with ⟨_, read⟩
  rw [if_pos finite] at read
  rw [Symbol.ofBytes_toUTF8, read]
  refine ⟨fun _ takes => write_iff.mpr ⟨rfl, takes⟩, fun _ _ wrote => (write_iff.mp wrote).1,
    ?_, ?_⟩
  · intro current
    rw [if_pos current]
    exact ⟨rfl, rfl⟩
  · intro other
    rw [if_neg other]
    exact ⟨rfl, rfl⟩

theorem two_bodies_round_trip :
    read (Symbol.ofString twoBodies.text.indented) = .ok twoBodies ∧
      read (Symbol.ofString ({ twoBodies with version := 2 } : RestartRecord Float).text.indented) =
        .error (.versionMismatch 2 1) := by
  have finite : twoBodies.IsFinite := by
    decide +kernel
  have today := round_trip twoBodies (by decide) finite
  have later := round_trip { twoBodies with version := 2 } (by decide) finite
  exact ⟨(today.2.2.1 rfl).1, (later.2.2.2 (by decide)).1⟩

end RestartRecord

end ImmersedBody
