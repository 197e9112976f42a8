import ImmersedBody.Proofs.Rigid.Equivariance
import ImmersedBody.Proofs.Rigid.Integrals
import ImmersedBody.Proofs.Rational
import ImmersedBody.Proofs.Ranks.Reproduction

/-!
# Integrals over a distributed mesh

Positions and force densities are given by the values of all their entries.  Every rank
takes its part of them and integrates over its own cells, of which it may have none.

The main theorem is `Mesh.reproduces_integrals`: in exact arithmetic, the ranks of a
cluster of any size end with the mass properties and with the net force that the only
rank finds, or with the failure that it meets.
-/

namespace ImmersedBody

variable {α : Type} [Scalar α] {shape : Shape} {p : Nat}

/-! ## Rules that are looked up -/

section

variable {mesh : Mesh shape α} {cells : List Nat} {positions forces : NodalField α}
  {rule : QuadratureRule α} {strength : Nat}

/-- Where all cells can be sampled, so can the first one. -/
theorem Mesh.exists_samples_first {samples : List (Sample α)}
    (found : mesh.samples cells positions rule = .ok samples) :
    ∃ looked, mesh.samples (cells.take 1) positions rule = .ok looked := by
  rcases bind_eq_ok_iff.mp found with ⟨lists, worked, -⟩
  cases cells with
  | nil =>
      exact ⟨[], rfl⟩
  | cons number cells =>
      rw [List.mapM_cons] at worked
      rcases bind_eq_ok_iff.mp worked with ⟨list, sampled, -⟩
      have once : [number].mapM (mesh.cellSamples positions rule) =
          .ok ([number].map fun _ => list) := by
        apply mapM_eq_ok_map
        intro other inside
        rw [List.mem_singleton.mp inside, sampled]
      exact ⟨[list].flatten, bind_eq_ok_iff.mpr ⟨[list], once, rfl⟩⟩

/-- Without a cell there is no sample, and any rule will do. -/
theorem Mesh.samples_nil (rule : QuadratureRule α) : mesh.samples [] positions rule = .ok [] :=
  rfl

omit [Scalar α] in
theorem Collective.mk_pure_bind {β γ : Type} (value : β) (next : β → Collective α γ) :
    (ExceptT.mk (pure (.ok value)) : Collective α β) >>= next = next value :=
  rfl

/-- A rule that has been found for cells is that of the shape, unless there is no cell. -/
theorem MassProperties.compute?_eq_compute {looked : List (Sample α)}
    (first : mesh.samples (cells.take 1) positions .empty = .ok looked)
    (chosen : shape.ruleFor? cells strength = .ok rule) :
    compute? mesh cells positions strength =
      compute mesh cells positions (shape.rule strength) := by
  have same : mesh.samples cells positions rule =
      mesh.samples cells positions (shape.rule strength) := by
    cases cells with
    | nil =>
        rw [Mesh.samples_nil, Mesh.samples_nil]
    | cons number cells =>
        rcases bind_eq_ok_iff.mp chosen with ⟨-, -, found⟩
        rw [pure_eq_ok_iff.mp found]
  rw [compute?, first, Collective.mk_pure_bind, chosen, Except.mapError, Collective.mk_pure_bind,
    compute, same, compute]

/-- A rule that fits is found for any cells. -/
theorem Shape.exists_ruleFor? (fits : shape.rule? strength =
    .ok (shape.rule strength : QuadratureRule α)) (cells : List Nat) :
    ∃ rule : QuadratureRule α, shape.ruleFor? cells strength = .ok rule := by
  rw [Shape.ruleFor?, fits]
  split
  · exact ⟨_, rfl⟩
  · exact ⟨_, rfl⟩

/-- The force by a rule that fits is that by the rule of the shape, on cells that there are. -/
theorem generalizedForce?_eq_generalizedForce
    (fits : shape.rule? strength = .ok (shape.rule strength : QuadratureRule α))
    (inside : ∀ number ∈ cells, number < mesh.cells.size) (center : Vec3 α) :
    generalizedForce? mesh mesh cells positions forces center strength =
      generalizedForce mesh mesh cells positions forces center (shape.rule strength) := by
  have reached : cells.head?.all (· < mesh.cells.size) = true := by
    cases cells with
    | nil =>
        rfl
    | cons number cells =>
        exact decide_eq_true (inside number List.mem_cons_self)
  rw [generalizedForce?, if_pos ⟨rfl, reached⟩]
  cases cells with
  | nil =>
      rfl
  | cons number cells =>
      have chosen : shape.ruleFor? (number :: cells) strength =
          .ok (shape.rule strength : QuadratureRule α) :=
        fits
      rw [chosen, Except.mapError, Collective.mk_pure_bind]

/-- Samples have mass properties, or no volume. -/
theorem MassProperties.ofSamples_cases (samples : List (Sample α)) :
    (∃ mass, ofSamples samples = .ok mass) ∨
      ∃ volume, Scalar.lt 0 volume = false ∧
        ofSamples samples = .error (.because (.nonPositiveVolume volume)) := by
  by_cases empty : !Scalar.lt 0 (Sample.moments samples).2
  · have void : Scalar.lt 0 (Sample.moments samples).2 = false := by
      simpa using empty
    exact Or.inr ⟨_, void, if_pos empty⟩
  · exact Or.inl ⟨_, if_neg empty⟩

end

/-- A rule that fits is used by all members of a team; those without a cell do not need one. -/
theorem FreshField.compute?_eq_compute {mesh : Mesh shape α} {positions : Team p → NodalField α}
    {strength : Nat} (fresh : FreshField mesh positions)
    (fits : shape.rule? strength = .ok (shape.rule strength : QuadratureRule α))
    (member : Team p) :
    MassProperties.compute? mesh (Partition.ofMesh mesh member.seat).cells (positions member)
        strength =
      MassProperties.compute mesh (Partition.ofMesh mesh member.seat).cells (positions member)
        (shape.rule strength) := by
  rcases fresh.exists_samples .empty with ⟨onCell, sampled, -⟩
  rcases Mesh.exists_samples_first (sampled member) with ⟨looked, first⟩
  rcases Shape.exists_ruleFor? fits (Partition.ofMesh mesh member.seat).cells with ⟨rule, chosen⟩
  exact MassProperties.compute?_eq_compute first chosen

/-! ## Parts of fields -/

namespace Mesh

/-- The part of a field that a rank holds, given the values of all entries of the field. -/
def fieldOn (mesh : Mesh shape α) (values : Array α) (seat : Seat) :
    Except (Stop α) (NodalField α) := do
  let layout ← ((Partition.ofMesh mesh seat).layout shape.dim.size).mapError .fault
  (NodalField.ofGlobal layout values).mapError fun e => .because (.field e)

/-- There have to be as many values as the mesh has coordinates. -/
def Fits (mesh : Mesh shape α) (values : Array α) : Prop :=
  values.size = mesh.vertices.size * shape.dim.size

/-- The parts of a field make a fresh field. -/
theorem exists_fieldOn {mesh : Mesh shape α} {values : Array α} (fits : mesh.Fits values) :
    ∃ fields : Team p → NodalField α,
      (∀ member, mesh.fieldOn values member.seat = .ok (fields member)) ∧
        FreshField mesh fields := by
  have laidOut (member : Team p) :=
    Partition.exists_layout mesh member.seat shape.dim.size_pos
  choose layouts made _ using laidOut
  rcases FreshField.exists_ofGlobal made fits with ⟨fields, created, fresh⟩
  refine ⟨fields, ?_, fresh⟩
  intro member
  rw [fieldOn, made]
  show (NodalField.ofGlobal (layouts member) values).mapError _ = _
  rw [created, Except.mapError]

omit [Scalar α] in
/-- Values that are too many or too few are refused, on every rank for the same reason. -/
theorem fieldOn_eq_error {mesh : Mesh shape α} {values : Array α} (misfit : ¬ mesh.Fits values)
    (seat : Seat) :
    mesh.fieldOn values seat = .error (.because (.field
      (.lengthMismatch (mesh.vertices.size * shape.dim.size) values.size))) := by
  rcases Partition.exists_layout mesh seat shape.dim.size_pos with ⟨layout, made, laidOut⟩
  have length : layout.globalLength = mesh.vertices.size * shape.dim.size := laidOut.globalLength
  have refused : NodalField.ofGlobal layout values =
      .error (.lengthMismatch (mesh.vertices.size * shape.dim.size) values.size) := by
    rw [NodalField.ofGlobal, dif_neg (length ▸ misfit), length]
  rw [fieldOn, made]
  show (NodalField.ofGlobal layout values).mapError _ = _
  rw [refused, Except.mapError]

theorem joint_fieldOn (mesh : Mesh shape α) (values : Array α) :
    Collective.Joint (fun member : Team p =>
      (ExceptT.mk (pure (mesh.fieldOn values member.seat)) : Collective α (NodalField α)))
      (FreshField mesh) := by
  by_cases fits : mesh.Fits values
  · rcases exists_fieldOn fits with ⟨fields, taken, fresh⟩
    exact Collective.joint_mk_pure taken fresh
  · simp only [fieldOn_eq_error fits]
    exact Collective.joint_throw trivial

/-! ## Integrals -/

/-- A rank takes its part of the positions and takes part in computing the mass properties. -/
def massWork (mesh : Mesh shape α) (positions : Array α) (rule : QuadratureRule α) (seat : Seat) :
    Collective α (MassProperties α) := do
  let x ← ExceptT.mk (pure (mesh.fieldOn positions seat))
  MassProperties.compute mesh (Partition.ofMesh mesh seat).cells x rule

/-- The same work, with a rule that is looked up by its strength. -/
def massWork? (mesh : Mesh shape α) (positions : Array α) (strength : Nat) (seat : Seat) :
    Collective α (MassProperties α) := do
  let x ← ExceptT.mk (pure (mesh.fieldOn positions seat))
  MassProperties.compute? mesh (Partition.ofMesh mesh seat).cells x strength

/-- A rank takes its parts of positions and forces and takes part in finding the net force. -/
def forceWork (mesh : Mesh shape α) (positions forces : Array α) (center : Vec3 α)
    (rule : QuadratureRule α) (seat : Seat) : Collective α (Vector α shape.dim.rigidSize) := do
  let x ← ExceptT.mk (pure (mesh.fieldOn positions seat))
  let f ← ExceptT.mk (pure (mesh.fieldOn forces seat))
  generalizedForce mesh mesh (Partition.ofMesh mesh seat).cells x f center rule

/-- The same work, with a rule that is looked up by its strength. -/
def forceWork? (mesh : Mesh shape α) (positions forces : Array α) (center : Vec3 α)
    (strength : Nat) (seat : Seat) : Collective α (Vector α shape.dim.rigidSize) := do
  let x ← ExceptT.mk (pure (mesh.fieldOn positions seat))
  let f ← ExceptT.mk (pure (mesh.fieldOn forces seat))
  generalizedForce? mesh mesh (Partition.ofMesh mesh seat).cells x f center strength

theorem joint_massWork (someone : 0 < p) (mesh : Mesh shape α) (positions : Array α)
    (rule : QuadratureRule α) :
    Collective.Joint (fun member : Team p => mesh.massWork positions rule member.seat) Same := by
  apply Collective.joint_bind (mesh.joint_fieldOn positions)
  intro fields fresh
  exact joint_massProperties someone fresh rule

theorem joint_forceWork (someone : 0 < p) (mesh : Mesh shape α) (positions forces : Array α)
    (center : Vec3 α) (rule : QuadratureRule α) :
    Collective.Joint
      (fun member : Team p => mesh.forceWork positions forces center rule member.seat) Same := by
  apply Collective.joint_bind (mesh.joint_fieldOn positions)
  intro fields fresh
  apply Collective.joint_bind (mesh.joint_fieldOn forces)
  intro loads freshLoads
  exact joint_generalizedForce someone fresh freshLoads center rule

/-- On every rank a rule that fits is that of the shape. -/
theorem massWork?_eq_massWork {strength : Nat}
    (fits : shape.rule? strength = .ok (shape.rule strength : QuadratureRule α))
    (mesh : Mesh shape α) (positions : Array α) :
    mesh.massWork? positions strength = mesh.massWork positions (shape.rule strength) := by
  funext seat
  rw [massWork?, massWork]
  by_cases whole : mesh.Fits positions
  · let self : Team seat.size := some ⟨seat.rank, seat.rank_lt⟩
    rcases exists_fieldOn whole with ⟨fields, taken, fresh⟩
    have here : mesh.fieldOn positions seat = .ok (fields self) := taken self
    rw [here]
    exact fresh.compute?_eq_compute fits self
  · rw [fieldOn_eq_error whole]
    rfl

/-- On every rank a rule that fits is that of the shape. -/
theorem forceWork?_eq_forceWork {strength : Nat}
    (fits : shape.rule? strength = .ok (shape.rule strength : QuadratureRule α))
    (mesh : Mesh shape α) (positions forces : Array α) (center : Vec3 α) :
    mesh.forceWork? positions forces center strength =
      mesh.forceWork positions forces center (shape.rule strength) := by
  funext seat
  have inside : ∀ number ∈ (Partition.ofMesh mesh seat).cells, number < mesh.cells.size :=
    fun number owned => (Partition.mem_cells.mp owned).1
  simp only [forceWork?, forceWork, generalizedForce?_eq_generalizedForce fits inside]

/-- The only rank finds mass properties, or there is no volume. -/
theorem massWork_alone {mesh : Mesh shape α} {positions : Array α} (whole : mesh.Fits positions)
    (rule : QuadratureRule α) :
    (∃ mass, (mesh.massWork positions rule .alone).alone = .ok mass) ∨
      ∃ volume, Scalar.lt 0 volume = false ∧
        (mesh.massWork positions rule .alone).alone =
          .error (.because (.nonPositiveVolume volume)) := by
  rcases exists_fieldOn (p := 0) whole with ⟨fields, taken, fresh⟩
  rcases fresh.exists_samples rule with ⟨onCell, sampled, -⟩
  have here : mesh.fieldOn positions .alone = .ok (fields none) := taken none
  have found : mesh.samples (Partition.ofMesh mesh .alone).cells (fields none) rule =
      .ok ((Partition.ofMesh mesh .alone).cells.flatMap (onCell none)) :=
    sampled none
  rw [massWork, here, Collective.mk_pure_bind, MassProperties.alone_compute, found, Except.bind]
  exact MassProperties.ofSamples_cases _

/-- The only rank finds a net force. -/
theorem exists_forceWork_alone {mesh : Mesh shape α} {positions forces : Array α}
    (whole : mesh.Fits positions) (wholeForces : mesh.Fits forces) (center : Vec3 α)
    (rule : QuadratureRule α) :
    ∃ total, (mesh.forceWork positions forces center rule .alone).alone = .ok total := by
  rcases exists_fieldOn (p := 0) whole with ⟨fields, taken, fresh⟩
  rcases exists_fieldOn (p := 0) wholeForces with ⟨loads, takenLoads, freshLoads⟩
  rcases fresh.exists_pointForces freshLoads rule with ⟨onCell, found, -⟩
  have here : mesh.fieldOn positions .alone = .ok (fields none) := taken none
  have hereLoads : mesh.fieldOn forces .alone = .ok (loads none) := takenLoads none
  have gathered : (Partition.ofMesh mesh .alone).cells.mapM
      (forcesOnCell mesh mesh (fields none) (loads none) rule) =
        .ok ((Partition.ofMesh mesh .alone).cells.map (onCell none)) :=
    found none
  simp only [forceWork, here, hereLoads, generalizedForce, ne_eq, not_true_eq_false, if_false,
    Collective.mk_pure_bind, gathered, Collective.alone_sum]
  exact ⟨_, rfl⟩

/--
Positions and force densities on a mesh are given by the values of all entries.  In exact
arithmetic, the ranks of a cluster of any size end with the mass properties and with the
net force that the only rank finds, for a rule of any strength.  If there are as many
values as there have to be, the only rank finds mass properties or no volume, and a net
force.  To look up a rule that fits into memory makes no difference on any rank.
-/
theorem reproduces_integrals (additive : ExactAddition α) (someone : 0 < p)
    (mesh : Mesh shape α) (positions forces : Array α) (center : Vec3 α) (strength : Nat) :
    Cluster.Reproduces p (mesh.massWork positions (shape.rule strength)) ∧
    Cluster.Reproduces p (mesh.forceWork positions forces center (shape.rule strength)) ∧
    (mesh.Fits positions →
      ((∃ mass, (mesh.massWork positions (shape.rule strength) .alone).alone = .ok mass) ∨
        ∃ volume, Scalar.lt 0 volume = false ∧
          (mesh.massWork positions (shape.rule strength) .alone).alone =
            .error (.because (.nonPositiveVolume volume))) ∧
      (mesh.Fits forces → ∃ total,
        (mesh.forceWork positions forces center (shape.rule strength) .alone).alone =
          .ok total)) ∧
    (shape.rule? strength = .ok (shape.rule strength : QuadratureRule α) →
      mesh.massWork? positions strength = mesh.massWork positions (shape.rule strength) ∧
      mesh.forceWork? positions forces center strength =
        mesh.forceWork positions forces center (shape.rule strength)) := by
  refine ⟨?_, ?_, ?_, ?_⟩
  · exact (joint_massWork someone mesh positions _).reproduces additive someone
  · exact (joint_forceWork someone mesh positions forces center _).reproduces additive someone
  · intro whole
    exact ⟨massWork_alone whole _, fun wholeForces =>
      exists_forceWork_alone whole wholeForces center _⟩
  · intro fits
    exact ⟨massWork?_eq_massWork fits mesh positions,
      forceWork?_eq_forceWork fits mesh positions forces center⟩

/-- Two triangles that have no vertex in common. -/
def islands : Mesh .triangle ℚ where
  vertices := #[⟨0, 0, 0⟩, ⟨2, 0, 0⟩, ⟨0, 2, 0⟩, ⟨4, 0, 0⟩, ⟨6, 0, 0⟩, ⟨4, 2, 0⟩]
  cells := #[.range 3, #v[3, 4, 5]]
  inBounds := by decide

/-- A force density on the triangles, entry by entry. -/
def islandForces : Array ℚ :=
  #[1, 0, 1, 0, 1, 0, 0, 1, 0, 1, 0, 1]

/-- The two triangles on three ranks, of which the last one has no cell. -/
theorem reproduces_integrals_islands :
    ExactAddition ℚ ∧
    (Partition.ofMesh islands ⟨0, 3, by decide⟩).cells = [0] ∧
    (Partition.ofMesh islands ⟨1, 3, by decide⟩).cells = [1] ∧
    (Partition.ofMesh islands ⟨2, 3, by decide⟩).cells = [] ∧
    Cluster.Reproduces 3 (islands.massWork? islands.coordinates 0) ∧
    (islands.massWork? islands.coordinates 0 .alone).alone =
      .ok ⟨4, ⟨5 / 2, 1, 0⟩, ⟨⟨0, 0, 0⟩, ⟨0, 16, 0⟩, ⟨0, 0, 16⟩⟩⟩ ∧
    Cluster.Reproduces 3 (islands.forceWork? islands.coordinates islandForces 0 0) ∧
    (islands.forceWork? islands.coordinates islandForces 0 0 .alone).alone =
      .ok #v[2, 2, 7] := by
  have additive : ExactAddition ℚ := ⟨Rat.add_assoc, Rat.add_comm, Rat.zero_add⟩
  have someone : 0 < 3 := by decide
  rcases reproduces_integrals additive someone islands islands.coordinates islandForces 0 0 with
    ⟨mass, force, -, lookedUp⟩
  rcases lookedUp rfl with ⟨mass_eq, force_eq⟩
  rw [mass_eq, force_eq]
  exact ⟨additive, by decide, by decide, by decide, mass, by decide +kernel, force,
    by decide +kernel⟩

end Mesh

end ImmersedBody
