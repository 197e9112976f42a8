import ImmersedBody.Proofs.Rigid.Rotations

/-!
# The group of rotations about an axis

The rotations by one angular velocity over all times form a group with one
parameter: each of them is orthogonal, has determinant one and leaves the angular
velocity where it is, their products add the times, and the way back is the
transpose.  `rotation_isRotationGroup` states this together with what an angular
velocity that stands on the plane does within the plane.
-/

namespace ImmersedBody

/-! ## The action of the formula of Rodrigues -/

section

variable (e : Vec3 ℝ) (s c : ℝ)

/-- What a rotation does to a vector: the part along the axis stays, the rest turns around it. -/
theorem rodrigues_apply (v : Vec3 ℝ) :
    (rodrigues e s c).apply v =
      v.scale c + (e.cross v).scale s + e.scale (e.dot v * (1 - c)) := by
  ext <;> simp [rodrigues, Vec3.dot, Vec3.cross] <;> ring

/-- The axis and all vectors along it stay where they are. -/
theorem rodrigues_apply_scale (unit : e.normSq = 1) (length : ℝ) :
    (rodrigues e s c).apply (e.scale length) = e.scale length := by
  have along : e.dot (e.scale length) = length := by
    rw [Vec3.dot_scale, ← Vec3.normSq, unit, one_mul]
  rw [rodrigues_apply, along]
  ext <;> simp [Vec3.cross] <;> ring

/-- The rotation by the opposite angle is the transposed one. -/
theorem rodrigues_neg : rodrigues e (-s) c = (rodrigues e s c).transpose := by
  ext <;> simp [rodrigues, Mat3.transpose] <;> ring

end

/-! ## One parameter -/

/-- The rotation of the plane by an angle, which leaves the third axis where it is. -/
noncomputable def Mat3.planarRotation (angle : ℝ) : Mat3 ℝ :=
  ⟨⟨Real.cos angle, -Real.sin angle, 0⟩, ⟨Real.sin angle, Real.cos angle, 0⟩, ⟨0, 0, 1⟩⟩

/-- A family of matrices, one for each time, that turns everything about one axis. -/
structure IsRotationGroup (axis : Vec3 ℝ) (turned : ℝ → Mat3 ℝ) : Prop where
  orthogonal : ∀ time, (turned time).IsOrthogonal
  det : ∀ time, (turned time).det = 1
  fixes : ∀ time, (turned time).apply axis = axis
  add : ∀ time time', (turned time).mul (turned time') = turned (time + time')
  neg : ∀ time, turned (-time) = (turned time).transpose

section

variable (ω : Vec3 ℝ) (time : ℝ)

variable {ω} in
/-- An angular velocity that can be told from zero turns about its axis, by its length. -/
theorem rotation_of_turning (turning : Scalar.epsilon < ω.norm) :
    rotation ω time =
      rodrigues (ω.divide ω.norm) (Real.sin (ω.norm * time)) (Real.cos (ω.norm * time)) := by
  have notTiny : ¬ Scalar.le ω.norm Scalar.epsilon = true := by
    rw [Scalar.le_real_iff]
    exact not_le.mpr turning
  simp only [rotation, notTiny]
  rfl

theorem rotation_apply_self : (rotation ω time).apply ω = ω := by
  rcases rotation_cases ω with still | ⟨unit, turns⟩
  · rw [still, Mat3.one_apply]
  · have nonzero : ω.norm ≠ 0 := by
      intro zero
      simp [zero, Vec3.normSq, Vec3.dot, Vec3.divide] at unit
    have axis : (ω.divide ω.norm).scale ω.norm = ω := by
      ext <;> simp [Vec3.divide, div_mul_cancel₀ _ nonzero]
    have kept := rodrigues_apply_scale _ (Real.sin (ω.norm * time)) (Real.cos (ω.norm * time)) unit
      ω.norm
    rwa [axis, ← turns] at kept

theorem rotation_neg : rotation ω (-time) = (rotation ω time).transpose := by
  rcases rotation_cases ω with still | ⟨-, turns⟩
  · rw [still, still]
    rfl
  · rw [turns, turns, mul_neg, Real.sin_neg, Real.cos_neg, rodrigues_neg]

/-- A rotation is carried out in two halves, each of which keeps volumes up to orientation. -/
theorem det_rotation : (rotation ω time).det = 1 := by
  rw [← add_halves time, ← rotation_add, Mat3.det_mul]
  exact (rotation_isOrthogonal ω (time / 2)).det_mul_self

end

/-! ## Rotations of the plane -/

section

variable {ω : Vec3 ℝ} (x : ω.x = 0) (y : ω.y = 0)

include x y

theorem norm_of_standing : ω.norm = |ω.z| := by
  have square : ω.normSq = ω.z * ω.z := by
    rw [Vec3.normSq, Vec3.dot, x, y]
    ring
  change Real.sqrt ω.normSq = |ω.z|
  rw [square, Real.sqrt_mul_self_eq_abs]

/-- An axis that stands on the plane turns it by the signed angular velocity times the time. -/
theorem rotation_eq_planarRotation (turning : Scalar.epsilon < ω.norm) (time : ℝ) :
    rotation ω time = Mat3.planarRotation (ω.z * time) := by
  have positive : 0 < |ω.z| := by
    rw [← norm_of_standing x y]
    exact Scalar.epsilon_real_pos.trans turning
  rw [rotation_of_turning time turning, norm_of_standing x y]
  rcases abs_cases ω.z with ⟨upward, -⟩ | ⟨downward, -⟩
  · rw [upward] at positive ⊢
    have axis : ω.divide ω.z = ⟨0, 0, 1⟩ := by
      ext <;> simp [Vec3.divide, x, y, div_self positive.ne']
    ext <;> simp [rodrigues, Mat3.planarRotation, axis]
  · rw [downward] at positive ⊢
    have axis : ω.divide (-ω.z) = ⟨0, 0, -1⟩ := by
      ext <;> simp [Vec3.divide, x, y, div_neg, div_self (neg_ne_zero.mp positive.ne')]
    ext <;> simp [rodrigues, Mat3.planarRotation, axis]

/-- Every point of the plane stays in it, and every point of the plane is reached from it. -/
theorem rotation_image_plane (time : ℝ) :
    (rotation ω time).apply '' {v | v.z = 0} = {v | v.z = 0} := by
  have stays (t : ℝ) (v : Vec3 ℝ) (flat : v.z = 0) : ((rotation ω t).apply v).z = 0 := by
    rcases rotation_keepsPlane ω t x y with ⟨-, -, zx, zy⟩
    simp [Vec3.dot, zx, zy, flat]
  apply Set.Subset.antisymm
  · rintro _ ⟨v, flat, rfl⟩
    exact stays time v flat
  · intro v flat
    refine ⟨(rotation ω (-time)).apply v, stays (-time) v flat, ?_⟩
    rw [← Mat3.mul_apply, rotation_add, add_neg_cancel, rotation_zero, Mat3.one_apply]

end

/--
The rotations by an angular velocity are a group with the time as its parameter.  An angular
velocity that can be told from zero turns the part of a vector across its axis by its length times
the time.  One that stands on the plane maps the plane onto itself, and turns it by its third
component times the time.
-/
theorem rotation_isRotationGroup (ω : Vec3 ℝ) :
    IsRotationGroup ω (rotation ω) ∧
      (Scalar.epsilon < ω.norm → ∀ (time : ℝ) (v : Vec3 ℝ),
        (rotation ω time).apply v =
          v.scale (Real.cos (ω.norm * time)) +
            ((ω.divide ω.norm).cross v).scale (Real.sin (ω.norm * time)) +
            (ω.divide ω.norm).scale
              ((ω.divide ω.norm).dot v * (1 - Real.cos (ω.norm * time)))) ∧
      (ω.x = 0 → ω.y = 0 → ∀ time : ℝ,
        (rotation ω time).apply '' {v | v.z = 0} = {v | v.z = 0} ∧
          (Scalar.epsilon < ω.norm → rotation ω time = Mat3.planarRotation (ω.z * time))) := by
  refine ⟨⟨rotation_isOrthogonal ω, det_rotation ω, rotation_apply_self ω, rotation_add ω,
    rotation_neg ω⟩, ?_, ?_⟩
  · intro turning time v
    rw [rotation_of_turning time turning, rodrigues_apply]
  · intro x y time
    exact ⟨rotation_image_plane x y time,
      fun turning => rotation_eq_planarRotation x y turning time⟩

/-- A quarter turn clockwise, by the general formula and within the plane. -/
theorem rotation_isRotationGroup_clockwise :
    (⟨0, 0, -2⟩ : Vec3 ℝ).x = 0 ∧ (⟨0, 0, -2⟩ : Vec3 ℝ).y = 0 ∧
      (Scalar.epsilon : ℝ) < Vec3.norm ⟨0, 0, -2⟩ ∧
      (rotation ⟨0, 0, -2⟩ (Real.pi / 4)).apply ⟨1, 0, 5⟩ = (⟨0, -1, 5⟩ : Vec3 ℝ) ∧
      (rotation ⟨0, 0, -2⟩ (Real.pi / 4)).apply '' {v | v.z = 0} = {v | v.z = 0} ∧
      rotation ⟨0, 0, -2⟩ (Real.pi / 4) = (⟨⟨0, 1, 0⟩, ⟨-1, 0, 0⟩, ⟨0, 0, 1⟩⟩ : Mat3 ℝ) := by
  have length : Vec3.norm (⟨0, 0, -2⟩ : Vec3 ℝ) = 2 := by
    rw [norm_of_standing rfl rfl]
    norm_num
  have turning : (Scalar.epsilon : ℝ) < Vec3.norm ⟨0, 0, -2⟩ := by
    rw [length]
    norm_num [Scalar.epsilon]
  have general := (rotation_isRotationGroup ⟨0, 0, -2⟩).2.1 turning (Real.pi / 4) ⟨1, 0, 5⟩
  have planar := (rotation_isRotationGroup ⟨0, 0, -2⟩).2.2 rfl rfl (Real.pi / 4)
  have quarter : (2 : ℝ) * (Real.pi / 4) = Real.pi / 2 := by ring
  refine ⟨rfl, rfl, turning, ?_, planar.1, ?_⟩
  · rw [general, length, quarter]
    ext <;> norm_num [Vec3.cross, Vec3.dot, Vec3.divide]
  · rw [planar.2 turning, neg_mul, quarter]
    ext <;> simp [Mat3.planarRotation]

end ImmersedBody
