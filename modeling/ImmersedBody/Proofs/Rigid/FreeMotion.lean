import ImmersedBody.Proofs.Rigid.Equivariance
import ImmersedBody.Proofs.Rigid.Placements

/-!
# Motion with a constant rigid velocity

A structure that moves freely with a constant velocity goes along one path: after
every time its nodes are where the displacement over this time takes their places
in the reference mesh.  The center of mass that is computed from these positions
is the one that has been displaced, so a displacement about it goes on along the
path.
-/

namespace ImmersedBody

open NodalField

variable {shape : Shape}

namespace RigidMap

/-- The reflection of space that fixes exactly the plane, or no reflection in space itself. -/
noncomputable def mirror : (dim : Dim) → RigidMap dim
  | .three => .identity .three
  | .two => {
      linear := ⟨⟨1, 0, 0⟩, ⟨0, 1, 0⟩, ⟨0, 0, -1⟩⟩
      offset := 0
      orthogonal := by
        rw [Mat3.IsOrthogonal]
        ext <;> simp [Mat3.transpose, Vec3.dot]
      planar := fun _ => ⟨rfl, rfl, rfl, rfl⟩
      flat_offset := rfl }

theorem mirror_apply_eq_iff {dim : Dim} {v : Vec3 ℝ} :
    (mirror dim).apply v = v ↔ dim.flatten v = v := by
  cases dim with
  | two =>
      simp [Vec3.ext_iff, mirror, apply, Vec3.dot, Dim.flatten_two]
      constructor <;> intro same <;> linarith
  | three =>
      simp [mirror]

end RigidMap

namespace MassProperties

/-- The center of mass of nodes in the plane is in the plane: it is its own mirror image. -/
theorem flatten_center {mesh : Mesh shape ℝ} {cells : List Nat} {positions : NodalField ℝ}
    {rule : QuadratureRule ℝ} {mass : MassProperties ℝ}
    (block : positions.layout.blockSize = shape.dim.size)
    (computed : (compute mesh cells positions rule).alone = .ok mass) :
    shape.dim.flatten mass.center = mass.center := by
  have images : ∀ node < mesh.vertices.size, ∀ x, positions.vector shape.dim node = .ok x →
      positions.vector shape.dim node = .ok ((RigidMap.mirror shape.dim).apply x) := by
    intro node _ x read
    rw [RigidMap.mirror_apply_eq_iff.mpr (nodeHolds_of_vector block read).2, read]
  have mirrored := compute_moved (RigidMap.mirror shape.dim) images computed
  rw [computed, Except.ok.injEq] at mirrored
  exact RigidMap.mirror_apply_eq_iff.mp (congrArg MassProperties.center mirrored).symm

end MassProperties

/-! ## The path -/

/-- Where a constant velocity about a center of mass takes a point over a time. -/
noncomputable def RigidVelocity.along (velocity : RigidVelocity ℝ) (center : Vec3 ℝ) (time : ℝ) :
    Vec3 ℝ → Vec3 ℝ :=
  (RigidDisplacement.about center velocity.translational velocity.rotational time).apply

namespace RigidVelocity

/-- A velocity that a structure of a dimension can have. -/
structure Fits (dim : Dim) (velocity : RigidVelocity ℝ) : Prop where
  flat : dim.flatten velocity.translational = velocity.translational
  turns : dim.TurnsWithin velocity.rotational

variable {dim : Dim} {velocity : RigidVelocity ℝ} {center : Vec3 ℝ}

theorem along_apply (time : ℝ) (x : Vec3 ℝ) :
    velocity.along center time x =
      center + velocity.translational.scale time +
        (rotation velocity.rotational time).apply (x - center) := by
  ext <;> simp [along, RigidDisplacement.about, RigidDisplacement.apply] <;> ring

theorem along_center (time : ℝ) :
    velocity.along center time center = center + velocity.translational.scale time :=
  RigidDisplacement.about_apply_center ..

@[simp]
theorem along_zero (x : Vec3 ℝ) : velocity.along center 0 x = x := by
  rw [along_apply, rotation_zero, Mat3.one_apply]
  ext <;> simp

/-- Going on along the path, about where the center has come to. -/
theorem along_along (time time' : ℝ) (x : Vec3 ℝ) :
    velocity.along (velocity.along center time center) time' (velocity.along center time x) =
      velocity.along center (time + time') x := by
  rw [along_center]
  exact RigidDisplacement.about_apply_about ..

/-- The path does not leave the plane. -/
theorem flatten_along (fits : velocity.Fits dim) (flat : dim.flatten center = center) (time : ℝ)
    (x : Vec3 ℝ) :
    dim.flatten (velocity.along center time x) = velocity.along center time (dim.flatten x) := by
  have planar : dim = .two → (rotation velocity.rotational time).KeepsPlane := fun plane =>
    rotation_keepsPlane _ _ (fits.turns plane).1 (fits.turns plane).2
  rw [along_apply, along_apply, Dim.flatten_add, Dim.flatten_add, Dim.flatten_scale,
    Dim.flatten_apply _ _ planar, Dim.flatten_sub, flat, fits.flat]

/-- The displacement of the reference configuration over a time is a rigid map. -/
theorem exists_rigidMap (fits : velocity.Fits dim) (flat : dim.flatten center = center)
    (time : ℝ) :
    ∃ map : RigidMap dim, ∀ x, dim.flatten x = x → map.apply x = velocity.along center time x := by
  refine ⟨(RigidMap.identity dim).moved (RigidDisplacement.about_isRigid center
    velocity.translational velocity.rotational time fits.turns), fun x planar => ?_⟩
  have moved := (RigidMap.identity dim).moved_apply (RigidDisplacement.about_isRigid center
    velocity.translational velocity.rotational time fits.turns) x
  rw [planar, RigidMap.identity_apply] at moved
  rw [moved, ← along, flatten_along fits flat, planar]

end RigidVelocity

/-! ## Structures on their path -/

namespace RigidStructure

/-- A free structure in its reference configuration, with its mass properties and a velocity. -/
structure SetsOut (order : Nat) (mass : MassProperties ℝ) (velocity : RigidVelocity ℝ)
    (first : RigidStructure shape ℝ) : Prop where
  motion : first.motion = .free
  covers : first.layout.Covers first.mesh
  placed : first.positions.Places first.layout first.mesh fun x => x
  weighed : (first.massAt first.positions order).alone = .ok mass
  fits : velocity.Fits shape.dim

/-- A structure that is what another one was, apart from where it is and how it moves. -/
structure Follows (first body : RigidStructure shape ℝ) : Prop where
  mesh : body.mesh = first.mesh
  partition : body.partition = first.partition
  layout : body.layout = first.layout
  motion : body.motion = first.motion

theorem Follows.trans {first between last : RigidStructure shape ℝ}
    (earlier : Follows first between) (later : Follows between last) : Follows first last where
  mesh := later.mesh.trans earlier.mesh
  partition := later.partition.trans earlier.partition
  layout := later.layout.trans earlier.layout
  motion := later.motion.trans earlier.motion

/-- Positions after a time on the path of a structure. -/
def OnPath (mass : MassProperties ℝ) (velocity : RigidVelocity ℝ) (first : RigidStructure shape ℝ)
    (time : ℝ) (positions : NodalField ℝ) : Prop :=
  positions.Places first.layout first.mesh (velocity.along mass.center time)

namespace SetsOut

variable {order : Nat} {mass : MassProperties ℝ} {velocity : RigidVelocity ℝ}
  {first : RigidStructure shape ℝ} {time : ℝ} {positions : NodalField ℝ}

theorem flat (out : SetsOut order mass velocity first) :
    shape.dim.flatten mass.center = mass.center := by
  apply MassProperties.flatten_center _ out.weighed
  rw [out.placed.layout_eq]
  exact out.covers.block

theorem onPath_zero (out : SetsOut order mass velocity first) :
    OnPath mass velocity first 0 first.positions where
  layout_eq := out.placed.layout_eq
  vector_eq := by
    intro node inside
    rw [RigidVelocity.along_zero]
    exact out.placed.vector_eq node inside

/-- The mass properties can be computed anywhere on the path; their center has come along. -/
theorem exists_mass (out : SetsOut order mass velocity first)
    (onPath : OnPath mass velocity first time positions) {body : RigidStructure shape ℝ}
    (follows : Follows first body) :
    ∃ mass', (body.massAt positions order).alone = .ok mass' ∧
      mass'.center = velocity.along mass.center time mass.center := by
  rcases RigidVelocity.exists_rigidMap out.fits out.flat time with ⟨map, agrees⟩
  have images : ∀ node < first.mesh.vertices.size, ∀ x,
      first.positions.vector shape.dim node = .ok x →
        positions.vector shape.dim node = .ok (map.apply x) := by
    intro node inside x read
    rw [out.placed.vector_eq node inside, Except.ok.injEq] at read
    have planar : shape.dim.flatten x = x := by
      rw [← read, Mesh.place, Dim.flatten_flatten]
    rw [agrees x planar, onPath.vector_eq node inside, read]
  have moved := MassProperties.compute_moved map images out.weighed
  refine ⟨mass.moved map, ?_, agrees _ out.flat⟩
  rw [massAt, follows.mesh, follows.partition]
  exact moved

theorem center_eq (out : SetsOut order mass velocity first)
    (onPath : OnPath mass velocity first time positions) {body : RigidStructure shape ℝ}
    (follows : Follows first body) {mass' : MassProperties ℝ}
    (computed : (body.massAt positions order).alone = .ok mass') :
    mass'.center = velocity.along mass.center time mass.center := by
  rcases out.exists_mass onPath follows with ⟨found, same, center⟩
  rw [computed, Except.ok.injEq] at same
  rw [same, center]

/-- A displacement about the center of mass goes on along the path. -/
theorem onPath_add (out : SetsOut order mass velocity first) {length : ℝ}
    (displaced : positions.Places first.layout first.mesh fun x => shape.dim.flatten
      (velocity.along (velocity.along mass.center time mass.center) length
        (velocity.along mass.center time x))) :
    OnPath mass velocity first (time + length) positions where
  layout_eq := displaced.layout_eq
  vector_eq := by
    intro node inside
    rw [displaced.vector_eq node inside, RigidVelocity.along_along,
      RigidVelocity.flatten_along out.fits out.flat, Mesh.place, Dim.flatten_flatten]

end SetsOut

end RigidStructure

end ImmersedBody
