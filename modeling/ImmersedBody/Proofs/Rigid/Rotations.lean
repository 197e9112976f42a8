import ImmersedBody.Proofs.Space.RigidMap
import ImmersedBody.Rigid.Rotation

/-!
# Rotations

The rotation by a constant angular velocity is orthogonal, keeps to the plane if
its axis stands on the plane, and turns by the sum of two times if it is carried
out twice.  The displacement of a body with a constant velocity is therefore a
rigid map, and the displacements over two times make up that over their sum.
-/

namespace ImmersedBody

/-! ## The formula of Rodrigues -/

/-- The rotation about an axis by an angle with a sine and a cosine. -/
def rodrigues (e : Vec3 ℝ) (s c : ℝ) : Mat3 ℝ :=
  let t := 1 - c
  ⟨⟨c + t * e.x * e.x, t * e.x * e.y - s * e.z, t * e.x * e.z + s * e.y⟩,
    ⟨t * e.x * e.y + s * e.z, c + t * e.y * e.y, t * e.y * e.z - s * e.x⟩,
    ⟨t * e.x * e.z - s * e.y, t * e.y * e.z + s * e.x, c + t * e.z * e.z⟩⟩

section

variable {e : Vec3 ℝ} (unit : e.normSq = 1) {s c : ℝ}

include unit

theorem rodrigues_isOrthogonal (circle : s * s + c * c = 1) :
    (rodrigues e s c).IsOrthogonal := by
  simp only [Vec3.normSq, Vec3.dot] at unit
  ext <;> simp [rodrigues, Mat3.transpose, Vec3.dot] <;> grind

/-- Two rotations about one axis turn by the sum of their angles. -/
theorem rodrigues_mul (s' c' : ℝ) :
    (rodrigues e s c).mul (rodrigues e s' c') =
      rodrigues e (s * c' + c * s') (c * c' - s * s') := by
  simp only [Vec3.normSq, Vec3.dot] at unit
  ext <;> simp [rodrigues, Mat3.transpose, Vec3.dot] <;> grind

end

/-! ## Rotation by an angular velocity -/

/-- Whether an angular velocity turns the plane within itself.  In space every one will do. -/
def Dim.TurnsWithin (dim : Dim) (ω : Vec3 ℝ) : Prop :=
  dim = .two → ω.x = 0 ∧ ω.y = 0

section

variable (ω : Vec3 ℝ) (time time' : ℝ)

/-- The axis of an angular velocity that can be told from zero. -/
theorem normSq_divide_norm (positive : 0 < ω.norm) : (ω.divide ω.norm).normSq = 1 := by
  have square := ω.norm_mul_self
  have nonzero : ω.norm ≠ 0 := positive.ne'
  simp only [Vec3.normSq, Vec3.dot, Vec3.divide] at square ⊢
  field_simp
  linarith

/-- Either the body does not turn, or it turns about its axis. -/
theorem rotation_cases :
    (∀ time, rotation ω time = 1) ∨
      (ω.divide ω.norm).normSq = 1 ∧
        ∀ time, rotation ω time =
          rodrigues (ω.divide ω.norm) (Real.sin (ω.norm * time)) (Real.cos (ω.norm * time)) := by
  by_cases tiny : Scalar.le ω.norm Scalar.epsilon = true
  · left
    intro time
    simp [rotation, tiny]
  · right
    have positive : 0 < ω.norm :=
      Scalar.epsilon_real_pos.trans (lt_of_not_ge (Scalar.le_real_iff _ _ |>.not.mp tiny))
    refine ⟨normSq_divide_norm ω positive, fun time => ?_⟩
    simp only [rotation, tiny]
    rfl

theorem rotation_isOrthogonal : (rotation ω time).IsOrthogonal := by
  rcases rotation_cases ω with still | ⟨unit, turns⟩
  · rw [still]
    exact Mat3.isOrthogonal_one
  · rw [turns]
    apply rodrigues_isOrthogonal unit
    linarith [Real.sin_sq_add_cos_sq (ω.norm * time)]

theorem rotation_keepsPlane (x : ω.x = 0) (y : ω.y = 0) : (rotation ω time).KeepsPlane := by
  rcases rotation_cases ω with still | ⟨-, turns⟩
  · rw [still]
    exact ⟨rfl, rfl, rfl, rfl⟩
  · rw [turns]
    refine ⟨?_, ?_, ?_, ?_⟩ <;> simp [rodrigues, Vec3.divide, x, y]

theorem rotation_zero : rotation ω 0 = 1 := by
  rcases rotation_cases ω with still | ⟨-, turns⟩
  · exact still 0
  · rw [turns, mul_zero, Real.sin_zero, Real.cos_zero]
    ext <;> simp [rodrigues]

/-- Turning over two times in succession is turning over their sum. -/
theorem rotation_add :
    (rotation ω time).mul (rotation ω time') = rotation ω (time + time') := by
  rcases rotation_cases ω with still | ⟨unit, turns⟩
  · rw [still, still, still, Mat3.one_mul]
  · rw [turns, turns, turns, rodrigues_mul unit, mul_add, Real.sin_add, Real.cos_add]

end

/-! ## Displacements -/

namespace RigidDisplacement

variable {dim : Dim} (displacement : RigidDisplacement ℝ)

/-- Whether the rotation of a displacement is one of the plane or of space. -/
structure IsRigid (dim : Dim) : Prop where
  orthogonal : displacement.rotation.IsOrthogonal
  planar : dim = .two → displacement.rotation.KeepsPlane

variable (center translational rotational : Vec3 ℝ) (time time' : ℝ)

theorem about_isRigid (turns : dim.TurnsWithin rotational) :
    (about center translational rotational time).IsRigid dim where
  orthogonal := rotation_isOrthogonal rotational time
  planar plane := rotation_keepsPlane rotational time (turns plane).1 (turns plane).2

/-- The displacement of a sum of two vectors. -/
theorem apply_add (v w : Vec3 ℝ) :
    displacement.apply (v + w) = displacement.rotation.apply v + displacement.apply w := by
  ext <;> simp [apply, Vec3.dot] <;> ring

/-- The center of a motion with a constant velocity. -/
theorem about_apply_center :
    (about center translational rotational time).apply center =
      center + translational.scale time := by
  ext <;> simp [about, apply, Vec3.dot]

/-- A motion that goes on with its velocity, about where its center has come to. -/
theorem about_apply_about (x : Vec3 ℝ) :
    (about (center + translational.scale time) translational rotational time').apply
        ((about center translational rotational time).apply x) =
      (about center translational rotational (time + time')).apply x := by
  have turned := congrArg (fun a => a.apply (x - center))
    (rotation_add rotational time' time)
  simp only [Mat3.mul_apply, add_comm time' time] at turned
  have offset (r v : Vec3 ℝ) : center + r + v.scale time -
      (center + v.scale time) = r := by
    ext <;> simp
  simp only [about, apply, offset, turned]
  ext <;> simp <;> ring

end RigidDisplacement

namespace RigidMap

variable {dim : Dim} (map : RigidMap dim) {displacement : RigidDisplacement ℝ}

/-- A rigid map followed by a displacement. -/
noncomputable def moved (rigid : displacement.IsRigid dim) : RigidMap dim where
  linear := displacement.rotation.mul map.linear
  offset := dim.flatten (displacement.apply map.offset)
  orthogonal := rigid.orthogonal.mul map.orthogonal
  planar := fun plane => (rigid.planar plane).mul (map.planar plane)
  flat_offset := dim.flatten_flatten _

/-- In the plane, what remains of the displaced point is what the displaced map yields. -/
theorem moved_apply (rigid : displacement.IsRigid dim) (x : Vec3 ℝ) :
    (map.moved rigid).apply (dim.flatten x) =
      dim.flatten (displacement.apply (map.apply (dim.flatten x))) := by
  rw [apply, moved, Mat3.mul_apply, apply, RigidDisplacement.apply_add, Dim.flatten_add,
    Dim.flatten_apply _ _ rigid.planar, Dim.flatten_apply _ _ map.planar, Dim.flatten_flatten]

end RigidMap

end ImmersedBody
