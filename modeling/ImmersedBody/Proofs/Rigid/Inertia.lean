import ImmersedBody.Proofs.Rigid.DistributedIntegrals
import ImmersedBody.Proofs.Rigid.Power

/-!
# The shape of inertia tensors

The center of mass and the inertia tensor of a structure are those of point masses:
the first moment about the center vanishes, the tensor is symmetric and positive
semidefinite, and its trace is twice the second moment.  In the plane the axis across
the plane is a principal one, and carries as much as the two others together.
`MassProperties.isMassOf_samples` states this for the mass properties by a rule of any
strength with weights that are not negative, on the only rank and on any number of
ranks.
-/

namespace ImmersedBody

variable {shape : Shape}

/-! ## Sums of samples -/

theorem exactAddition_real : ExactAddition ℝ :=
  ⟨add_assoc, add_comm, zero_add⟩

theorem Vec3.exactAddition : ExactAddition (Vec3 ℝ) where
  assoc u v w := by ext <;> simp <;> ring
  comm v w := by ext <;> simp <;> ring
  zero_add v := by ext <;> simp

/-- The sum of the diagonal entries. -/
def Mat3.trace (a : Mat3 ℝ) : ℝ :=
  a.row0.x + a.row1.y + a.row2.z

namespace Sample

variable (center : Vec3 ℝ) (samples : List (Sample ℝ)) (s : Sample ℝ)

theorem moments_fst :
    (moments samples).1 = (samples.map fun s => s.position.scale s.volume).sum := by
  rw [← Vec3.exactAddition.foldl_eq_sum]
  exact (List.foldl_hom Prod.fst fun _ _ => rfl).symm

theorem moments_snd : (moments samples).2 = (samples.map Sample.volume).sum := by
  rw [← exactAddition_real.foldl_eq_sum]
  exact (List.foldl_hom Prod.snd fun _ _ => rfl).symm

/-- The first moment about another point. -/
theorem sum_offsets :
    (samples.map fun s => (s.position - center).scale s.volume).sum =
      (moments samples).1 - center.scale (moments samples).2 := by
  rw [moments_fst, moments_snd]
  induction samples with
  | nil =>
      ext <;> simp
  | cons s samples ih =>
      simp only [List.map_cons, List.sum_cons, ih]
      ext <;> simp <;> ring

/-- What adds up over tensors adds up over the samples. -/
theorem map_inertia {f : Mat3 ℝ → ℝ} (zero : f 0 = 0) (add : ∀ a b, f (a + b) = f a + f b) :
    f (inertia center samples) =
      (samples.map fun s => f ((s.inertiaDensity center).scale s.volume)).sum := by
  rw [← exactAddition_real.foldl_eq_sum, ← zero]
  exact (List.foldl_hom f fun sum s => (add sum _).symm).symm

/-- By the identity of Lagrange, the quadratic form of a sample is a square. -/
theorem dot_inertiaDensity_apply (v : Vec3 ℝ) :
    v.dot (((s.inertiaDensity center).scale s.volume).apply v) =
      ((s.position - center).cross v).normSq * s.volume := by
  simp [inertiaDensity, Mat3.outer, Vec3.dot, Vec3.normSq, Vec3.cross]
  ring

theorem trace_inertiaDensity :
    ((s.inertiaDensity center).scale s.volume).trace =
      2 * ((s.position - center).normSq * s.volume) := by
  simp [Mat3.trace, inertiaDensity, Mat3.outer, Vec3.dot, Vec3.normSq]
  ring

/-- The tensor of every sample is symmetric, and so is that of the sum. -/
theorem transpose_inertia : (inertia center samples).transpose = inertia center samples := by
  have kept (sum : Mat3 ℝ) (s : Sample ℝ) :
      sum.transpose + (s.inertiaDensity center).scale s.volume =
        (sum + (s.inertiaDensity center).scale s.volume).transpose := by
    ext <;> simp [Mat3.transpose, inertiaDensity, Mat3.outer, mul_comm]
  exact (List.foldl_hom Mat3.transpose kept).symm

theorem trace_inertia :
    (inertia center samples).trace =
      2 * (samples.map fun s => (s.position - center).normSq * s.volume).sum := by
  have add (a b : Mat3 ℝ) : (a + b).trace = a.trace + b.trace := by
    simp only [Mat3.trace, Mat3.add_row0, Mat3.add_row1, Mat3.add_row2, Vec3.add_x, Vec3.add_y,
      Vec3.add_z]
    ring
  rw [map_inertia center samples (by simp [Mat3.trace]) add, ← List.sum_map_mul_left]
  simp only [trace_inertiaDensity]

theorem inertia_semidefinite (nonnegative : ∀ s ∈ samples, 0 ≤ s.volume) (v : Vec3 ℝ) :
    0 ≤ v.dot ((inertia center samples).apply v) := by
  rw [map_inertia center samples (f := fun a => v.dot (a.apply v))]
  · apply List.sum_nonneg
    intro term member
    rcases List.mem_map.mp member with ⟨s, inside, rfl⟩
    rw [dot_inertiaDensity_apply]
    apply mul_nonneg _ (nonnegative s inside)
    rw [← Vec3.norm_mul_self]
    exact mul_self_nonneg _
  · simp [Vec3.dot]
  · intro a b
    simp only [Vec3.dot, Mat3.apply_x, Mat3.apply_y, Mat3.apply_z, Mat3.add_row0, Mat3.add_row1,
      Mat3.add_row2, Vec3.add_x, Vec3.add_y, Vec3.add_z]
    ring

theorem moments_planar (flat : ∀ s ∈ samples, s.position.z = 0) : (moments samples).1.z = 0 := by
  have third : (moments samples).1.z = (samples.map fun s => s.position.z * s.volume).sum :=
    getElem_momentVector exactAddition_real samples (by decide : 2 < 4)
  rw [third]
  apply List.sum_eq_zero
  intro term member
  rcases List.mem_map.mp member with ⟨s, inside, rfl⟩
  rw [flat s inside, zero_mul]

/-- Samples in a plane with their center. -/
theorem inertia_planar (flat : ∀ s ∈ samples, s.position.z = 0) (within : center.z = 0) :
    (inertia center samples).row0.z = 0 ∧ (inertia center samples).row1.z = 0 ∧
      (inertia center samples).row2.z =
        (inertia center samples).row0.x + (inertia center samples).row1.y := by
  have vanishes {f : Mat3 ℝ → ℝ} (zero : f 0 = 0) (add : ∀ a b, f (a + b) = f a + f b)
      (each : ∀ s ∈ samples, f ((s.inertiaDensity center).scale s.volume) = 0) :
      f (inertia center samples) = 0 := by
    rw [map_inertia center samples zero add]
    apply List.sum_eq_zero
    intro term member
    rcases List.mem_map.mp member with ⟨s, inside, rfl⟩
    exact each s inside
  refine ⟨?_, ?_, ?_⟩
  · apply vanishes (f := fun a => a.row0.z) rfl fun _ _ => rfl
    intro s inside
    simp [inertiaDensity, Mat3.outer, flat s inside, within]
  · apply vanishes (f := fun a => a.row1.z) rfl fun _ _ => rfl
    intro s inside
    simp [inertiaDensity, Mat3.outer, flat s inside, within]
  · apply sub_eq_zero.mp
    apply vanishes (f := fun a => a.row2.z - (a.row0.x + a.row1.y))
    · simp
    · intro a b
      simp only [Mat3.add_row0, Mat3.add_row1, Mat3.add_row2, Vec3.add_x, Vec3.add_y, Vec3.add_z]
      ring
    · intro s inside
      simp [inertiaDensity, Mat3.outer, Vec3.normSq, Vec3.dot, flat s inside, within]
      ring

end Sample

/-! ## Mass properties of samples -/

namespace MassProperties

/-- Mass properties are those of samples, taken as point masses in a dimension. -/
structure IsMassOf (dim : Dim) (samples : List (Sample ℝ)) (mass : MassProperties ℝ) : Prop where
  volume : mass.volume = (samples.map Sample.volume).sum
  /-- The first moment about the center of mass vanishes. -/
  balanced : (samples.map fun s => (s.position - mass.center).scale s.volume).sum = 0
  symmetric : mass.inertia.transpose = mass.inertia
  semidefinite : ∀ v : Vec3 ℝ, 0 ≤ v.dot (mass.inertia.apply v)
  trace : mass.inertia.trace =
    2 * (samples.map fun s => (s.position - mass.center).normSq * s.volume).sum
  planar : dim = .two → mass.center.z = 0 ∧ mass.inertia.row0.z = 0 ∧ mass.inertia.row1.z = 0 ∧
    mass.inertia.row2.z = mass.inertia.row0.x + mass.inertia.row1.y

variable {dim : Dim} {samples others : List (Sample ℝ)} {mass : MassProperties ℝ}

theorem IsMassOf.of_perm (isMass : mass.IsMassOf dim samples) (perm : samples.Perm others) :
    mass.IsMassOf dim others :=
  { isMass with
    volume := by rw [isMass.volume, (perm.map Sample.volume).sum_eq]
    balanced := by rw [← Vec3.exactAddition.sum_eq_of_perm (perm.map _), isMass.balanced]
    trace := by rw [isMass.trace, (perm.map _).sum_eq] }

/-- The mass properties of samples with volumes that are not negative. -/
theorem isMassOf_of_ofSamples (found : ofSamples samples = .ok mass)
    (nonnegative : ∀ s ∈ samples, 0 ≤ s.volume)
    (flat : dim = .two → ∀ s ∈ samples, s.position.z = 0) : mass.IsMassOf dim samples := by
  simp only [ofSamples, refuse_eq_ok_iff] at found
  rcases found with ⟨positive, found⟩
  cases found
  have nonzero : (Sample.moments samples).2 ≠ 0 := by
    intro zero
    simp [zero] at positive
  have center : ((Sample.moments samples).1.divide (Sample.moments samples).2).scale
      (Sample.moments samples).2 = (Sample.moments samples).1 := by
    ext <;> simp [Vec3.divide, div_mul_cancel₀ _ nonzero]
  have within (plane : dim = .two) :
      ((Sample.moments samples).1.divide (Sample.moments samples).2).z = 0 := by
    rw [Vec3.divide, Sample.moments_planar samples (flat plane), zero_div]
  exact {
    volume := Sample.moments_snd samples
    balanced := by
      rw [Sample.sum_offsets, center]
      ext <;> simp
    symmetric := Sample.transpose_inertia _ samples
    semidefinite := Sample.inertia_semidefinite _ samples nonnegative
    trace := Sample.trace_inertia _ samples
    planar := fun plane =>
      ⟨within plane, Sample.inertia_planar _ samples (flat plane) (within plane)⟩ }

end MassProperties

/-! ## Samples of a mesh -/

section

variable {mesh : Mesh shape ℝ} {cells : List Nat} {positions : NodalField ℝ}
  {rule : QuadratureRule ℝ} {samples : List (Sample ℝ)}

/-- Every sample of a mesh is one of an element that has been read. -/
theorem Mesh.exists_element_of_mem_samples
    (found : mesh.samples cells positions rule = .ok samples) {s : Sample ℝ}
    (member : s ∈ samples) :
    ∃ (cell : Cell shape) (element : Element shape ℝ),
      positions.onCell shape.dim cell = .ok element ∧ s ∈ element.samples rule := by
  rcases bind_eq_ok_iff.mp found with ⟨lists, worked, flat⟩
  cases flat
  rcases List.mem_flatten.mp member with ⟨list, inside, member⟩
  rcases exists_of_mem_mapM worked inside with ⟨number, -, sampled⟩
  rw [Mesh.cellSamples] at sampled
  cases stored : mesh.cells[number]? with
  | none =>
      rw [stored] at sampled
      cases sampled
  | some cell =>
      rw [stored] at sampled
      rcases bind_eq_ok_iff.mp sampled with ⟨element, read, taken⟩
      cases taken
      exact ⟨cell, element, read, member⟩

theorem Mesh.volume_nonneg_of_mem_samples (nonnegative : ∀ q ∈ rule.points, 0 ≤ q.weight)
    (found : mesh.samples cells positions rule = .ok samples) :
    ∀ s ∈ samples, 0 ≤ s.volume := by
  intro s member
  rcases Mesh.exists_element_of_mem_samples found member with ⟨cell, element, -, sampled⟩
  rcases List.mem_map.mp sampled with ⟨q, inside, rfl⟩
  exact mul_nonneg (abs_nonneg _) (nonnegative q inside)

/-- In the plane an element interpolates from nodes in the plane. -/
theorem Mesh.flat_of_mem_samples (plane : shape.dim = .two)
    (found : mesh.samples cells positions rule = .ok samples) :
    ∀ s ∈ samples, s.position.z = 0 := by
  intro s member
  rcases Mesh.exists_element_of_mem_samples found member with ⟨cell, element, read, sampled⟩
  rcases List.mem_map.mp sampled with ⟨q, -, rfl⟩
  have planar : element.map shape.dim.flatten = element := by
    apply Vector.ext
    intro i below
    rw [NodalField.onCell, vector_mapM_eq_ok_iff] at read
    have inside : element[i] ∈ element.toList := by simp
    rcases exists_of_mem_mapM read inside with ⟨node, -, found⟩
    rw [Vector.getElem_map, NodalField.flatten_vector found]
  have inPlane := element.position_flatten q.point
  rw [planar, plane, Dim.flatten_two] at inPlane
  exact congrArg Vec3.z inPlane

end

namespace MassProperties

variable {mesh : Mesh shape ℝ} {cells : List Nat} {positions : NodalField ℝ} {strength : Nat}

/-- Mass properties by a rule of any strength are those of the samples by this rule. -/
theorem exists_samples_of_compute? {mass : MassProperties ℝ}
    (found : (compute? mesh cells positions strength).alone = .ok mass) :
    ∃ samples, mesh.samples cells positions (shape.rule strength) = .ok samples ∧
      ofSamples samples = .ok mass := by
  have computed : (compute mesh cells positions (shape.rule strength)).alone = .ok mass := by
    cases first : mesh.samples (cells.take 1) positions .empty with
    | error stop =>
        rw [compute?, first] at found
        cases found
    | ok looked =>
        cases chosen : (shape.ruleFor? cells strength : Except Fault (QuadratureRule ℝ)) with
        | error fault =>
            rw [compute?, first, chosen] at found
            cases found
        | ok rule =>
            rw [← compute?_eq_compute first chosen, found]
  rw [alone_compute] at computed
  exact bind_eq_ok_iff.mp computed

end MassProperties

/-! ## Mass properties on a cluster -/

section

variable {p : Nat} {mesh : Mesh shape ℝ} {positions : Team p → NodalField ℝ} {strength : Nat}

/-- The samples of all ranks are those of the reference in another order. -/
theorem FreshField.exists_samples_perm (fresh : FreshField mesh positions) (someone : 0 < p)
    (rule : QuadratureRule ℝ) :
    ∃ samples : Team p → List (Sample ℝ),
      (∀ member, mesh.samples (Partition.ofMesh mesh member.seat).cells (positions member) rule =
        .ok (samples member)) ∧
      (samples none).Perm ((List.finRange p).flatMap fun rank => samples (some rank)) := by
  rcases fresh.exists_samples rule with ⟨onCell, sampled, agree⟩
  exact ⟨_, sampled, (Partition.perm_onCells someone (agree exactAddition_real)).symm⟩

/-- Any coordinates can be distributed over all ranks of any cluster. -/
theorem FreshField.exists_positions (mesh : Mesh shape ℝ) {coordinates : Array ℝ}
    (size_eq : coordinates.size = mesh.vertices.size * shape.dim.size) :
    ∃ positions : Seat → NodalField ℝ,
      ∀ p, FreshField mesh fun member : Team p => positions member.seat := by
  have laidOut (seat : Seat) := Partition.exists_layout mesh seat shape.dim.size_pos
  choose layouts made _ using laidOut
  let positions (seat : Seat) : NodalField ℝ :=
    (NodalField.ofGlobal (layouts seat) coordinates).toOption.getD (.zeros (layouts seat))
  refine ⟨positions, fun p => ?_⟩
  rcases FreshField.exists_ofGlobal (fun member : Team p => made member.seat) size_eq with
    ⟨fields, created, fresh⟩
  have placed : (fun member : Team p => positions member.seat) = fields := by
    funext member
    simp only [positions, created]
    rfl
  rw [placed]
  exact fresh

end

namespace MassProperties

/-- All ranks end with one outcome: mass properties of all samples, where these have a volume. -/
def AgreedOn {p : Nat} (dim : Dim) (samples : List (Sample ℝ))
    (results : Fin p → Except (Stop ℝ) (MassProperties ℝ)) : Prop :=
  ∃ outcome, results = (fun _ => outcome) ∧
    (0 < (samples.map Sample.volume).sum → ∃ mass, outcome = .ok mass) ∧
    ∀ mass, outcome = .ok mass → mass.IsMassOf dim samples

theorem exists_ofSamples {samples : List (Sample ℝ)}
    (positive : 0 < (samples.map Sample.volume).sum) :
    ∃ mass, ofSamples samples = .ok mass := by
  rw [← Sample.moments_snd] at positive
  simp only [ofSamples, refuse_eq_ok_iff]
  exact ⟨_, by simpa using positive, rfl⟩

/--
Mass properties are those of the samples that a rule of some strength takes, where its weights are
not negative.  This holds on the only rank for any cells, and for a mesh that is distributed over
ranks under every schedule, with the samples of all ranks.
-/
theorem isMassOf_samples (mesh : Mesh shape ℝ) (strength : Nat)
    (nonnegative : ∀ q ∈ (shape.rule strength : QuadratureRule ℝ).points, 0 ≤ q.weight) :
    (∀ (cells : List Nat) (positions : NodalField ℝ) (mass : MassProperties ℝ),
      (compute? mesh cells positions strength).alone = .ok mass →
        ∃ samples, mesh.samples cells positions (shape.rule strength) = .ok samples ∧
          mass.IsMassOf shape.dim samples) ∧
    ∀ p, 0 < p → shape.rule? strength = .ok (shape.rule strength : QuadratureRule ℝ) →
      ∀ positions : Seat → NodalField ℝ,
        FreshField mesh (fun member : Team p => positions member.seat) →
          ∃ samples : Fin p → List (Sample ℝ),
            (∀ rank : Fin p, mesh.samples (Partition.ofMesh mesh (.of rank)).cells
              (positions (.of rank)) (shape.rule strength) = .ok (samples rank)) ∧
            ∀ (fails : Except (Stop ℝ) (MassProperties ℝ) → Bool) (schedule : List Nat),
              let reached := Cluster.history fails p (fun seat =>
                (compute? mesh (Partition.ofMesh mesh seat).cells (positions seat) strength).run)
                schedule
              Cluster.InStep (p := p) (AgreedOn shape.dim ((List.finRange p).flatMap samples))
                reached.1 reached.2 := by
  have alone (cells : List Nat) (positions : NodalField ℝ) (mass : MassProperties ℝ)
      (found : (compute? mesh cells positions strength).alone = .ok mass) :
      ∃ samples, mesh.samples cells positions (shape.rule strength) = .ok samples ∧
        mass.IsMassOf shape.dim samples := by
    rcases exists_samples_of_compute? found with ⟨samples, sampled, computed⟩
    refine ⟨samples, sampled, isMassOf_of_ofSamples computed ?_ ?_⟩
    · exact Mesh.volume_nonneg_of_mem_samples nonnegative sampled
    · exact fun plane => Mesh.flat_of_mem_samples plane sampled
  refine ⟨alone, ?_⟩
  intro p someone fits positions fresh
  rcases fresh.exists_samples_perm someone (shape.rule strength) with ⟨samples, sampled, perm⟩
  refine ⟨fun rank => samples (some rank), fun rank => sampled (some rank), ?_⟩
  intro fails schedule
  apply Cluster.inStep_history someone _ fails schedule
  have joint : Collective.Joint (fun member : Team p => compute? mesh
      (Partition.ofMesh mesh member.seat).cells (positions member.seat) strength) Same := by
    simp only [fresh.compute?_eq_compute fits]
    exact joint_massProperties someone fresh _
  apply (joint.lockstep_same exactAddition_real).imp
  rintro results rfl
  have reference : (compute? mesh (Partition.ofMesh mesh (Team.seat (Option.none : Team p))).cells
      (positions (Team.seat (Option.none : Team p))) strength).alone =
        ofSamples (samples Option.none) := by
    rw [fresh.compute?_eq_compute fits, alone_compute, sampled]
    rfl
  refine ⟨_, rfl, ?_, ?_⟩
  · intro positive
    rw [reference]
    apply exists_ofSamples
    rwa [(perm.map Sample.volume).sum_eq]
  · intro mass found
    rcases alone _ _ mass found with ⟨others, sampledAgain, isMass⟩
    rw [sampled, Except.ok.injEq] at sampledAgain
    exact (sampledAgain ▸ isMass).of_perm perm

/-- The square of two triangles, on the only rank and on two ranks that take turns. -/
theorem isMassOf_samples_square :
    (∀ q ∈ (Shape.triangle.rule 0 : QuadratureRule ℝ).points, 0 ≤ q.weight) ∧
    (∃ samples, square.samples [0, 1] (fourNodes corner) (Shape.triangle.rule 0) = .ok samples ∧
      IsMassOf .two samples ⟨4, ⟨1, 1, 0⟩, ⟨⟨0, 0, 0⟩, ⟨0, 1, 0⟩, ⟨0, 0, 1⟩⟩⟩) ∧
    ∃ (positions : Seat → NodalField ℝ) (samples : Fin 2 → List (Sample ℝ)),
      (∀ rank : Fin 2, square.samples (Partition.ofMesh square (.of rank)).cells
        (positions (.of rank)) (Shape.triangle.rule 0) = .ok (samples rank)) ∧
      let reached := Cluster.history (fun _ => false) 2 (fun seat =>
        (compute? square (Partition.ofMesh square seat).cells (positions seat) 0).run)
        [0, 1, 0, 1, 0, 1, 0, 1]
      Cluster.InStep (p := 2) (AgreedOn .two ((List.finRange 2).flatMap samples))
        reached.1 reached.2 := by
  have nonnegative : ∀ q ∈ (Shape.triangle.rule 0 : QuadratureRule ℝ).points, 0 ≤ q.weight := by
    rw [Shape.rule_triangle_zero]
    intro q member
    rw [List.mem_singleton.mp member]
    norm_num
  rcases isMassOf_samples square 0 nonnegative with ⟨alone, distributed⟩
  refine ⟨nonnegative, alone [0, 1] (fourNodes corner) _ compute?_square, ?_⟩
  have coordinates : (#[0, 0, 2, 0, 0, 2, 2, 2] : Array ℝ).size =
      square.vertices.size * Shape.triangle.dim.size := rfl
  rcases FreshField.exists_positions square coordinates with ⟨positions, fresh⟩
  rcases distributed 2 (by decide) rfl positions (fresh 2) with ⟨samples, sampled, inStep⟩
  exact ⟨positions, samples, sampled, inStep _ _⟩

end MassProperties

end ImmersedBody
