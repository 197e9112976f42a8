import ImmersedBody.Proofs.Quadrature.Lines
import ImmersedBody.Proofs.Element.Affine
import ImmersedBody.Proofs.Rigid.Soundness
import ImmersedBody.Rigid.Motion

/-!
# Mass properties of a moved structure

If the nodes of a structure are moved by a rigid map, its samples are moved in the
same way and keep their volumes.  The volume of the structure does not change, its
center of mass is moved like its nodes, and its inertia tensor turns with it:
`compute?_moved`.  This holds for every quadrature rule, whatever it is exact for.
-/

namespace ImmersedBody

variable {shape : Shape}

/-! ## Tensors in a turned frame -/

namespace Mat3

/-- A tensor as it is seen after a turn. -/
def turned (q a : Mat3 ℝ) : Mat3 ℝ :=
  (q.mul a).mul q.transpose

variable (q a b : Mat3 ℝ) (v w : Vec3 ℝ) (factor : ℝ)

theorem turned_zero : q.turned 0 = 0 := by
  ext <;> simp [turned, transpose, Vec3.dot]

theorem turned_add : q.turned (a + b) = q.turned a + q.turned b := by
  ext <;> simp [turned, transpose, Vec3.dot] <;> ring

theorem turned_sub : q.turned (a - b) = q.turned a - q.turned b := by
  ext <;> simp [turned, transpose, Vec3.dot] <;> ring

theorem turned_scale : q.turned (a.scale factor) = (q.turned a).scale factor := by
  ext <;> simp [turned, transpose, Vec3.dot] <;> ring

theorem turned_outer : q.turned (outer v w) = outer (q.apply v) (q.apply w) := by
  ext <;> simp [turned, transpose, outer, Vec3.dot] <;> ring

theorem IsOrthogonal.turned_one {q : Mat3 ℝ} (orthogonal : q.IsOrthogonal) : q.turned 1 = 1 := by
  have mul_one : q.mul 1 = q := by
    ext <;> simp [transpose, Vec3.dot]
  rw [turned, mul_one, orthogonal.mul_transpose]

end Mat3

/-! ## Samples -/

namespace Sample

variable (map : RigidMap shape.dim)

/-- A sample that is moved and keeps its volume. -/
noncomputable def moved (s : Sample ℝ) : Sample ℝ :=
  ⟨map.apply s.position, s.volume⟩

theorem samples_moved (element : Element shape ℝ) (rule : QuadratureRule ℝ) :
    Element.samples (element.map map.apply : Element shape ℝ) rule =
      (element.samples rule).map (moved map) := by
  rw [Element.samples, Element.samples, List.map_map]
  apply List.map_congr_left
  intro q _
  simp only [Function.comp, moved, Element.position_map, Scalar.abs_real,
    Element.abs_volumeFactor_map]

theorem moments_moved (samples : List (Sample ℝ)) :
    moments (samples.map (moved map)) =
      (map.linear.apply (moments samples).1 + map.offset.scale (moments samples).2,
        (moments samples).2) := by
  let image (sums : Vec3 ℝ × ℝ) : Vec3 ℝ × ℝ :=
    (map.linear.apply sums.1 + map.offset.scale sums.2, sums.2)
  have start : ((0, 0) : Vec3 ℝ × ℝ) = image (0, 0) := by
    simp only [image, Mat3.apply_zero, Prod.mk.injEq, and_true]
    ext <;> simp
  rw [moments, List.foldl_map, start]
  apply List.foldl_hom image
  rintro ⟨first, volume⟩ s
  simp only [image, moved, RigidMap.apply, Mat3.apply_add, Mat3.apply_scale, Prod.mk.injEq,
    and_true]
  ext <;> simp <;> ring

theorem inertiaDensity_moved (center : Vec3 ℝ) (s : Sample ℝ) :
    (s.moved map).inertiaDensity (map.apply center) =
      map.linear.turned (s.inertiaDensity center) := by
  simp only [inertiaDensity, moved, map.apply_sub, map.normSq_linear, Mat3.turned_sub,
    Mat3.turned_scale, map.orthogonal.turned_one, Mat3.turned_outer]

theorem inertia_moved (center : Vec3 ℝ) (samples : List (Sample ℝ)) :
    inertia (map.apply center) (samples.map (moved map)) =
      map.linear.turned (inertia center samples) := by
  rw [inertia, List.foldl_map, ← map.linear.turned_zero]
  apply List.foldl_hom map.linear.turned
  intro sum s
  rw [inertiaDensity_moved, Mat3.turned_add, Mat3.turned_scale]
  rfl

end Sample

/-! ## Mass properties -/

namespace MassProperties

section

variable {α : Type} [Scalar α]

/-- The mass properties of samples. -/
def ofSamples (samples : List (Sample α)) : Except (Stop α) (MassProperties α) :=
  let (first, volume) := Sample.moments samples
  if !Scalar.lt 0 volume then .error (.because (.nonPositiveVolume volume))
  else .ok ⟨volume, first.divide volume, Sample.inertia (first.divide volume) samples⟩

/-- On the only rank mass properties are those of the samples there. -/
theorem alone_compute (mesh : Mesh shape α) (cells : List Nat) (positions : NodalField α)
    (rule : QuadratureRule α) :
    (compute mesh cells positions rule).alone =
      (mesh.samples cells positions rule).bind ofSamples := by
  rw [compute, Collective.alone_bind, Collective.alone_mk_pure]
  cases mesh.samples cells positions rule with
  | error stop =>
      rfl
  | ok samples =>
      simp only [Except.bind, ofSamples, Collective.alone_bind, Collective.alone_sum]
      by_cases empty : !Scalar.lt 0 (Sample.moments samples).2
      · rw [if_pos empty]
        exact congrArg Collective.alone (if_pos empty)
      · rw [if_neg empty]
        refine (congrArg Collective.alone (if_neg empty)).trans ?_
        simp

end

/-- The mass properties after a rigid motion. -/
noncomputable def moved (map : RigidMap shape.dim) (mass : MassProperties ℝ) :
    MassProperties ℝ where
  volume := mass.volume
  center := map.apply mass.center
  inertia := map.linear.turned mass.inertia

section

variable (map : RigidMap shape.dim)

theorem ofSamples_moved {samples : List (Sample ℝ)} {mass : MassProperties ℝ}
    (found : ofSamples samples = .ok mass) :
    ofSamples (samples.map (Sample.moved map)) = .ok (mass.moved map) := by
  simp only [ofSamples, Sample.moments_moved, refuse_eq_ok_iff] at found ⊢
  rcases found with ⟨positive, found⟩
  cases found
  refine ⟨positive, ?_⟩
  have nonzero : (Sample.moments samples).2 ≠ 0 := by
    intro zero
    simp [zero] at positive
  have center (first : Vec3 ℝ) :
      (map.linear.apply first + map.offset.scale (Sample.moments samples).2).divide
          (Sample.moments samples).2 =
        map.apply (first.divide (Sample.moments samples).2) := by
    ext <;> simp [Vec3.divide, RigidMap.apply, Vec3.dot] <;> field_simp
  rw [center, Sample.inertia_moved]
  rfl

variable {mesh : Mesh shape ℝ} {cells : List Nat} {positions image : NodalField ℝ}
  (images : ∀ node < mesh.vertices.size, ∀ x, positions.vector shape.dim node = .ok x →
    image.vector shape.dim node = .ok (map.apply x))

include images

theorem onCell_moved {number : Nat} (inside : number < mesh.cells.size) {element : Element shape ℝ}
    (read : positions.onCell shape.dim mesh.cells[number] = .ok element) :
    image.onCell shape.dim mesh.cells[number] = .ok (element.map map.apply) := by
  rw [NodalField.onCell, vector_mapM_eq_ok_iff] at read ⊢
  rw [Vector.toList_map]
  apply mapM_eq_ok_map_of_mapM _ read
  intro node member
  rcases List.getElem_of_mem member with ⟨i, below, rfl⟩
  apply images
  simpa using mesh.inBounds number inside i (by simpa using below)

theorem samples_moved {rule : QuadratureRule ℝ} {samples : List (Sample ℝ)}
    (found : mesh.samples cells positions rule = .ok samples) :
    mesh.samples cells image rule = .ok (samples.map (Sample.moved map)) := by
  have onCells : ∀ number ∈ cells, ∀ samples,
      mesh.cellSamples positions rule number = .ok samples →
        mesh.cellSamples image rule number = .ok (samples.map (Sample.moved map)) := by
    intro number _ samples sampled
    rw [Mesh.cellSamples] at sampled ⊢
    by_cases inside : number < mesh.cells.size
    · rw [Array.getElem?_eq_getElem inside] at sampled ⊢
      rcases bind_eq_ok_iff.mp sampled with ⟨element, read, taken⟩
      cases taken
      simp only [onCell_moved map images inside read]
      exact congrArg Except.ok (Sample.samples_moved map element rule)
    · rw [Array.getElem?_eq_none (Nat.le_of_not_lt inside)] at sampled
      cases sampled
  rcases bind_eq_ok_iff.mp found with ⟨lists, worked, flat⟩
  cases flat
  rw [Mesh.samples, mapM_eq_ok_map_of_mapM onCells worked, List.map_flatten]
  rfl

/-- Moving the nodes by a rigid map moves the mass properties by any rule. -/
theorem compute_moved {rule : QuadratureRule ℝ} {mass : MassProperties ℝ}
    (found : (compute mesh cells positions rule).alone = .ok mass) :
    (compute mesh cells image rule).alone = .ok (mass.moved map) := by
  rw [alone_compute] at found ⊢
  rcases bind_eq_ok_iff.mp found with ⟨samples, sampled, computed⟩
  rw [samples_moved map images sampled]
  exact ofSamples_moved map computed

end

/--
The mass properties of a structure are moved with its nodes, for a quadrature rule
of any strength: the volume is the same, the center of mass is the image of the
center of mass, and the inertia tensor is turned by the linear part of the map.
-/
theorem compute?_moved {mesh : Mesh shape ℝ} {cells : List Nat} {strength : Nat}
    (map : RigidMap shape.dim) {positions image : NodalField ℝ}
    (images : ∀ node < mesh.vertices.size, ∀ x, positions.vector shape.dim node = .ok x →
      image.vector shape.dim node = .ok (map.apply x))
    {mass : MassProperties ℝ}
    (found : (compute? mesh cells positions strength).alone = .ok mass) :
    (compute? mesh cells image strength).alone =
      .ok ⟨mass.volume, map.apply mass.center,
        (map.linear.mul mass.inertia).mul map.linear.transpose⟩ := by
  simp only [compute?, Collective.alone_bind, Collective.alone_mk_pure] at found ⊢
  generalize first : mesh.samples (cells.take 1) positions .empty = looked at found
  cases looked with
  | error stop =>
      cases found
  | ok samples =>
      rw [samples_moved map images first]
      generalize (shape.ruleFor? cells strength : Except Fault (QuadratureRule ℝ)) = chosen
        at found ⊢
      cases chosen with
      | error stop =>
          cases found
      | ok rule =>
          exact compute_moved map images found

end MassProperties

/-! ## A square of two triangles -/

/-- The lowest rule for triangles has one point. -/
theorem Shape.rule_triangle_zero :
    (triangle.rule 0 : QuadratureRule ℝ) = ⟨[⟨2, ⟨-1 / 2, 0, 0⟩⟩]⟩ := by
  simp [rule, ruleFrom, LineRule.pointsFor, LineRule.gauss_one, QuadratureRule.collapsedSquare]
  norm_num

/-- A square of two triangles. -/
def MassProperties.square : Mesh .triangle ℝ where
  vertices := #[⟨0, 0, 0⟩, ⟨2, 0, 0⟩, ⟨0, 2, 0⟩, ⟨2, 2, 0⟩]
  cells := #[.range 3, #v[3, 2, 1]]
  inBounds := by decide

/-- The square of two triangles, which slides along an axis and turns. -/
noncomputable def StructureDescription.turningSquare : StructureDescription .triangle ℝ where
  mesh := MassProperties.square
  motion := .free
  nodalVelocity := .rigid .two
  initialVelocity := ⟨⟨1, 0, 0⟩, ⟨0, 0, 2⟩⟩

namespace MassProperties

/-- The field of four nodes in the plane with the given vectors. -/
def fourNodes (vectors : Nat → Vec3 ℝ) : NodalField ℝ :=
  .ofFn ⟨8, ⟨0, 8⟩, #[], 2, Dim.two.size_pos, by decide, by decide, by simp, by simp⟩
    fun i _ => (vectors (i / 2)).coordinate (i % 2)

theorem vector_fourNodes (vectors : Nat → Vec3 ℝ) :
    ∀ node < 4, (fourNodes vectors).vector .two node =
      .ok ⟨(vectors node).x, (vectors node).y, 0⟩ := by
  intro node inside
  match node, inside with
  | 0, _ | 1, _ | 2, _ | 3, _ =>
      rfl

/-- The places of the vertices of the square. -/
def corner (node : Nat) : Vec3 ℝ :=
  ⟨((2 * (node % 2) : Nat) : ℝ), ((2 * (node / 2) : Nat) : ℝ), 0⟩

/-- A quarter turn that is followed by a shift. -/
noncomputable def quarterTurn : RigidMap .two where
  linear := ⟨⟨0, -1, 0⟩, ⟨1, 0, 0⟩, ⟨0, 0, 1⟩⟩
  offset := ⟨3, 0, 0⟩
  orthogonal := by
    rw [Mat3.IsOrthogonal]
    ext <;> simp [Mat3.transpose, Vec3.dot]
  planar := fun _ => ⟨rfl, rfl, rfl, rfl⟩
  flat_offset := rfl

/-- The samples of the square, triangle by triangle. -/
theorem samples_square (cells : List (Fin 2)) (rule : QuadratureRule ℝ) :
    square.samples (cells.map Fin.val) (fourNodes corner) rule =
      .ok (cells.flatMap fun (number : Fin 2) =>
        Element.samples (square.cells[number].map corner : Element .triangle ℝ) rule) := by
  have onCells : (cells.map Fin.val).mapM (square.cellSamples (fourNodes corner) rule) =
      .ok (cells.map fun (number : Fin 2) =>
        Element.samples (square.cells[number].map corner : Element .triangle ℝ) rule) := by
    rw [List.mapM_map]
    apply mapM_eq_ok_map
    intro number _
    have vectors : ∀ node < square.vertices.size,
        (fourNodes corner).vector Shape.triangle.dim node = .ok (corner node) :=
      vector_fourNodes corner
    have below : number < square.cells.size := number.isLt
    have read : (fourNodes corner).onCell Shape.triangle.dim square.cells[number] =
        .ok (square.cells[number].map corner) :=
      NodalField.onCell_of_vectors vectors below
    rw [Function.comp, Mesh.cellSamples, Array.getElem?_eq_getElem below]
    exact bind_eq_ok_iff.mpr ⟨_, read, rfl⟩
  rw [Mesh.samples, onCells, List.flatMap_def]
  rfl

/-- The rule with one point sees the square as two points of equal volume. -/
theorem samples_square_triangle_zero :
    square.samples [0, 1] (fourNodes corner) (Shape.triangle.rule 0) =
      .ok [⟨⟨1 / 2, 1, 0⟩, 2⟩, ⟨⟨3 / 2, 1, 0⟩, 2⟩] := by
  have sampled := samples_square [0, 1] (Shape.triangle.rule 0)
  simp only [List.map, Fin.val_zero, Fin.val_one] at sampled
  rw [sampled]
  have first : Vector.range 3 = #v[0, 1, 2] := rfl
  simp [Shape.rule_triangle_zero, Element.samples, square, first, Element.position, interpolate,
    Shape.basis, Element.volumeFactor, Element.derivative, jacobian, Shape.gradients, corner,
    Dim.det, Mat3.minorDet, Mat3.outer]
  constructor <;> ext <;> simp <;> norm_num

theorem compute_square :
    (compute square [0, 1] (fourNodes corner) (Shape.triangle.rule 0)).alone =
      .ok ⟨4, ⟨1, 1, 0⟩, ⟨⟨0, 0, 0⟩, ⟨0, 1, 0⟩, ⟨0, 0, 1⟩⟩⟩ := by
  simp only [alone_compute, samples_square_triangle_zero, Except.bind, ofSamples, Sample.moments,
    List.foldl_cons, List.foldl_nil]
  have center : (((0 : Vec3 ℝ) + Vec3.scale ⟨1 / 2, 1, 0⟩ 2 + Vec3.scale ⟨3 / 2, 1, 0⟩ 2).divide
      (0 + 2 + 2)) = ⟨1, 1, 0⟩ := by
    ext <;> norm_num [Vec3.divide]
  rw [center]
  have inertia : Sample.inertia ⟨1, 1, 0⟩ [⟨⟨1 / 2, 1, 0⟩, 2⟩, ⟨⟨3 / 2, 1, 0⟩, 2⟩] =
      (⟨⟨0, 0, 0⟩, ⟨0, 1, 0⟩, ⟨0, 0, 1⟩⟩ : Mat3 ℝ) := by
    ext <;> norm_num [Sample.inertia, Sample.inertiaDensity, Vec3.normSq, Vec3.dot, Mat3.outer]
  rw [inertia]
  norm_num

theorem compute?_square :
    (compute? square [0, 1] (fourNodes corner) 0).alone =
      .ok ⟨4, ⟨1, 1, 0⟩, ⟨⟨0, 0, 0⟩, ⟨0, 1, 0⟩, ⟨0, 0, 1⟩⟩⟩ := by
  have looked : square.samples ([0, 1].take 1) (fourNodes corner) .empty = .ok [] :=
    samples_square [0] .empty
  have rule : (Shape.triangle.ruleFor? [0, 1] 0 : Except Fault (QuadratureRule ℝ)) =
      .ok (Shape.triangle.rule 0) := rfl
  rw [compute?]
  simp only [Collective.alone_bind, Collective.alone_mk_pure, looked, rule, Except.mapError]
  exact compute_square

/-- The square after a quarter turn. -/
theorem compute?_square_moved :
    (compute? square [0, 1] (fourNodes fun node => quarterTurn.apply (corner node)) 0).alone =
      .ok ⟨4, ⟨2, 1, 0⟩, ⟨⟨1, 0, 0⟩, ⟨0, 0, 0⟩, ⟨0, 0, 1⟩⟩⟩ := by
  have images : ∀ node < square.vertices.size, ∀ x,
      (fourNodes corner).vector .two node = .ok x →
        (fourNodes fun node => quarterTurn.apply (corner node)).vector .two node =
          .ok (quarterTurn.apply x) := by
    intro node inside x read
    rw [vector_fourNodes _ node inside, Except.ok.injEq] at read
    rw [vector_fourNodes _ node inside, ← read]
    exact congrArg Except.ok (by ext <;> simp [quarterTurn, RigidMap.apply, Vec3.dot])
  have moved := @compute?_moved .triangle _ _ _ quarterTurn _ _ images _ compute?_square
  rw [moved]
  simp only [Except.ok.injEq, mk.injEq, true_and]
  constructor
  · ext <;> norm_num [quarterTurn, RigidMap.apply, Vec3.dot]
  · ext <;> norm_num [quarterTurn, Mat3.transpose, Vec3.dot]

end MassProperties

end ImmersedBody
