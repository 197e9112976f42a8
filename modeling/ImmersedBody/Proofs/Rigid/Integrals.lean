import ImmersedBody.Proofs.Field.Shared
import ImmersedBody.Rigid.Force

/-!
# Integrals of a team

Mass properties and net forces are integrals over the cells of a structure.  Every
member of a team integrates over its own cells, from a fresh field.  All members
then end with the same integral, or all fail for the same reason, and in exact
arithmetic the integral is that of the reference.
-/

namespace ImmersedBody

variable {α : Type} [Scalar α] {shape : Shape} {p : Nat}

/-! ## Sums over cells -/

omit [Scalar α] in
/-- What all ranks find on their cells is what the reference finds on all cells. -/
theorem Partition.perm_onCells {τ : Type} {mesh : Mesh shape α} (someone : 0 < p)
    {onCell : Team p → Nat → List τ}
    (same : ∀ member : Team p, ∀ number ∈ (ofMesh mesh member.seat).cells,
      onCell member number = onCell none number) :
    ((List.finRange p).flatMap fun rank : Fin p =>
      (ofMesh mesh (Team.seat (some rank))).cells.flatMap (onCell (some rank))).Perm
        ((ofMesh mesh (Team.seat (none : Team p))).cells.flatMap (onCell none)) := by
  have perm := (perm_cells mesh someone).flatMap_right (onCell none)
  rw [List.flatMap_assoc] at perm
  have together : ((List.finRange p).flatMap fun rank : Fin p =>
      (ofMesh mesh (Team.seat (some rank))).cells.flatMap (onCell (some rank))) =
        (List.finRange p).flatMap fun rank : Fin p =>
          (ofMesh mesh (.of rank)).cells.flatMap (onCell none) := by
    apply List.flatMap_congr
    intro rank _
    apply List.flatMap_congr
    intro number owned
    exact same (some rank) number owned
  rw [together, cells_of_single Team.seat_size_none]
  exact perm

/-- Every entry is a sum over cells, and what is found on a cell is what the reference finds. -/
theorem Partition.adds_of_cells {τ : Type} {n : Nat} {mesh : Mesh shape α} (someone : 0 < p)
    {values : Team p → Vector α n} {onCell : Team p → Nat → List τ} {measure : τ → Vector α n}
    (same : ExactAddition α → ∀ member : Team p, ∀ number ∈ (ofMesh mesh member.seat).cells,
      onCell member number = onCell none number)
    (summed : ExactAddition α → ∀ (member : Team p) i (_ : i < n),
      (values member)[i] = (((ofMesh mesh member.seat).cells.flatMap (onCell member)).map
        fun item => (measure item)[i]).sum) :
    Adds values := by
  apply adds_of_items _ summed
  intro additive
  exact perm_onCells someone (same additive)

theorem Mat3.getElem_toVector_add (a b : Mat3 α) {i : Nat} (inside : i < 9) :
    (a + b).toVector[i] = a.toVector[i] + b.toVector[i] := by
  match i, inside with
  | 0, _ | 1, _ | 2, _ | 3, _ | 4, _ | 5, _ | 6, _ | 7, _ | 8, _ => rfl

theorem Mat3.getElem_toVector_zero {i : Nat} (inside : i < 9) :
    (0 : Mat3 α).toVector[i] = 0 := by
  match i, inside with
  | 0, _ | 1, _ | 2, _ | 3, _ | 4, _ | 5, _ | 6, _ | 7, _ | 8, _ => rfl

theorem Dim.getElem_pack_add (dim : Dim) (v w v' w' : Vec3 α) {i : Nat}
    (inside : i < dim.rigidSize) :
    (dim.pack (v + v') (w + w'))[i] = (dim.pack v w)[i] + (dim.pack v' w')[i] := by
  cases dim with
  | two =>
      match i, inside with
      | 0, _ | 1, _ | 2, _ => rfl
  | three =>
      match i, inside with
      | 0, _ | 1, _ | 2, _ | 3, _ | 4, _ | 5, _ => rfl

theorem Dim.getElem_pack_zero (dim : Dim) {i : Nat} (inside : i < dim.rigidSize) :
    (dim.pack (0 : Vec3 α) 0)[i] = 0 := by
  cases dim with
  | two =>
      match i, inside with
      | 0, _ | 1, _ | 2, _ => rfl
  | three =>
      match i, inside with
      | 0, _ | 1, _ | 2, _ | 3, _ | 4, _ | 5, _ => rfl

namespace Sample

/-- Position times volume, and volume. -/
def moment (s : Sample α) : Vector α 4 :=
  let first := s.position.scale s.volume
  #v[first.x, first.y, first.z, s.volume]

/-- The moments of samples as they are put into a sum over the ranks. -/
def momentVector (samples : List (Sample α)) : Vector α 4 :=
  let sums := moments samples
  #v[sums.1.x, sums.1.y, sums.1.z, sums.2]

theorem getElem_momentVector (additive : ExactAddition α) (samples : List (Sample α)) {i : Nat}
    (inside : i < 4) :
    (momentVector samples)[i] = (samples.map fun s => s.moment[i]).sum := by
  let view (sums : Vec3 α × α) : Vector α 4 := #v[sums.1.x, sums.1.y, sums.1.z, sums.2]
  have empty : ∀ i (_ : i < 4), (view (0, 0))[i] = 0 := by
    intro i below
    match i, below with
    | 0, _ | 1, _ | 2, _ | 3, _ => rfl
  have step : ∀ (sums : Vec3 α × α) (s : Sample α) i (_ : i < 4),
      (view (sums.1 + s.position.scale s.volume, sums.2 + s.volume))[i] =
        (view sums)[i] + s.moment[i] := by
    intro sums s i below
    match i, below with
    | 0, _ | 1, _ | 2, _ | 3, _ => rfl
  exact additive.getElem_foldl empty step samples inside

theorem getElem_inertia (additive : ExactAddition α) (center : Vec3 α)
    (samples : List (Sample α)) {i : Nat} (inside : i < 9) :
    (inertia center samples).toVector[i] =
      (samples.map fun s => ((s.inertiaDensity center).scale s.volume).toVector[i]).sum :=
  additive.getElem_foldl (fun _ => Mat3.getElem_toVector_zero)
    (fun sum s _ => Mat3.getElem_toVector_add sum ((s.inertiaDensity center).scale s.volume))
    samples inside

end Sample

theorem PointForce.getElem_net (additive : ExactAddition α) (dim : Dim) (center : Vec3 α)
    (forces : List (PointForce α)) {i : Nat} (inside : i < dim.rigidSize) :
    (dim.pack (net center forces).1 (net center forces).2)[i] =
      (forces.map fun q =>
        (dim.pack q.force ((q.position - center).cross q.force))[i]).sum := by
  let view (sums : Vec3 α × Vec3 α) : Vector α dim.rigidSize := dim.pack sums.1 sums.2
  have step : ∀ (sums : Vec3 α × Vec3 α) (q : PointForce α) i (_ : i < dim.rigidSize),
      (view (sums.1 + q.force, sums.2 + (q.position - center).cross q.force))[i] =
        (view sums)[i] + (dim.pack q.force ((q.position - center).cross q.force))[i] :=
    fun sums q _ => dim.getElem_pack_add sums.1 sums.2 q.force _
  have empty : ∀ i (_ : i < dim.rigidSize), (view (0, 0))[i] = 0 :=
    fun _ => dim.getElem_pack_zero
  exact additive.getElem_foldl empty step forces inside

/-! ## Mass properties -/

/-- Every member samples its cells, in exact arithmetic as the reference does. -/
theorem FreshField.exists_samples {mesh : Mesh shape α} {positions : Team p → NodalField α}
    (fresh : FreshField mesh positions) (rule : QuadratureRule α) :
    ∃ onCell : Team p → Nat → List (Sample α),
      (∀ member, mesh.samples (Partition.ofMesh mesh member.seat).cells (positions member) rule =
        .ok ((Partition.ofMesh mesh member.seat).cells.flatMap (onCell member))) ∧
      (ExactAddition α → ∀ member : Team p,
        ∀ number ∈ (Partition.ofMesh mesh member.seat).cells,
          onCell member number = onCell none number) := by
  rcases fresh.exists_elements with ⟨elements, read, agree⟩
  let onCell (member : Team p) (number : Nat) : List (Sample α) :=
    if inside : number < mesh.cells.size then (elements member number inside).samples rule else []
  refine ⟨onCell, ?_, ?_⟩
  · intro member
    have each : ∀ number ∈ (Partition.ofMesh mesh member.seat).cells,
        mesh.cellSamples (positions member) rule number = .ok (onCell member number) := by
      intro number owned
      have inside := (Partition.mem_cells.mp owned).1
      rw [Mesh.cellSamples, Array.getElem?_eq_getElem inside]
      simp only [read member number owned inside, onCell, dif_pos inside]
      rfl
    rw [Mesh.samples, mapM_eq_ok_map each]
    rfl
  · intro additive member number owned
    have inside := (Partition.mem_cells.mp owned).1
    simp only [onCell, dif_pos inside, agree additive member number owned inside]

/-- All members of a team compute the same mass properties. -/
theorem joint_massProperties {mesh : Mesh shape α} {positions : Team p → NodalField α}
    (someone : 0 < p) (fresh : FreshField mesh positions) (rule : QuadratureRule α) :
    Collective.Joint (fun member : Team p =>
      MassProperties.compute mesh (Partition.ofMesh mesh member.seat).cells (positions member)
        rule) Same := by
  rcases fresh.exists_samples rule with ⟨onCell, sampled, agree⟩
  let samples (member : Team p) : List (Sample α) :=
    (Partition.ofMesh mesh member.seat).cells.flatMap (onCell member)
  have found : Collective.Joint (fun member : Team p => (ExceptT.mk (pure
      (mesh.samples (Partition.ofMesh mesh member.seat).cells (positions member) rule)) :
        Collective α (List (Sample α)))) (· = samples) :=
    Collective.joint_mk_pure sampled rfl
  apply Collective.joint_bind found
  rintro _ rfl
  have moments : Adds fun member : Team p => Sample.momentVector (samples member) :=
    Partition.adds_of_cells someone agree fun additive member i inside =>
      Sample.getElem_momentVector additive (samples member) inside
  apply Collective.joint_bind (Collective.joint_sum moments fun total _ => same_const total)
  intro totals same
  rw [same.eq]
  by_cases empty : !Scalar.lt (0 : α) (totals none)[3]
  · simp only [if_pos empty]
    exact Collective.joint_throw trivial
  · simp only [if_neg empty]
    let center := Vec3.divide ⟨(totals none)[0], (totals none)[1], (totals none)[2]⟩
      (totals none)[3]
    have inertias : Adds fun member : Team p =>
        (Sample.inertia center (samples member)).toVector :=
      Partition.adds_of_cells someone agree fun additive member i inside =>
        Sample.getElem_inertia additive center (samples member) inside
    apply Collective.joint_bind (Collective.joint_sum inertias fun total _ => same_const total)
    intro tensors sameTensor
    rw [sameTensor.eq]
    exact Collective.joint_pure (same_const _)

/-! ## Net forces -/

/-- Every member finds the forces on its cells, in exact arithmetic as the reference does. -/
theorem FreshField.exists_pointForces {mesh : Mesh shape α}
    {positions forces : Team p → NodalField α} (fresh : FreshField mesh positions)
    (freshForces : FreshField mesh forces) (rule : QuadratureRule α) :
    ∃ onCell : Team p → Nat → List (PointForce α),
      (∀ member, (Partition.ofMesh mesh member.seat).cells.mapM
        (forcesOnCell mesh mesh (positions member) (forces member) rule) =
          .ok ((Partition.ofMesh mesh member.seat).cells.map (onCell member))) ∧
      (ExactAddition α → ∀ member : Team p,
        ∀ number ∈ (Partition.ofMesh mesh member.seat).cells,
          onCell member number = onCell none number) := by
  rcases fresh.exists_elements with ⟨elements, read, agree⟩
  rcases freshForces.exists_elements with ⟨loads, readLoads, agreeLoads⟩
  let onCell (member : Team p) (number : Nat) : List (PointForce α) :=
    if inside : number < mesh.cells.size then
      cellForces (mesh.element number inside) (elements member number inside)
        (loads member number inside) rule
    else []
  refine ⟨onCell, ?_, ?_⟩
  · intro member
    apply mapM_eq_ok_map
    intro number owned
    have inside := (Partition.mem_cells.mp owned).1
    rw [forcesOnCell, Array.getElem?_eq_getElem inside, Mesh.element?, dif_pos inside]
    simp only [read member number owned inside, readLoads member number owned inside, onCell,
      dif_pos inside]
    rfl
  · intro additive member number owned
    have inside := (Partition.mem_cells.mp owned).1
    simp only [onCell, dif_pos inside, agree additive member number owned inside,
      agreeLoads additive member number owned inside]

/-- All members of a team find the same net force. -/
theorem joint_generalizedForce {mesh : Mesh shape α} {positions forces : Team p → NodalField α}
    (someone : 0 < p) (fresh : FreshField mesh positions) (freshForces : FreshField mesh forces)
    (center : Vec3 α) (rule : QuadratureRule α) :
    Collective.Joint (fun member : Team p =>
      generalizedForce mesh mesh (Partition.ofMesh mesh member.seat).cells (positions member)
        (forces member) center rule) Same := by
  rcases fresh.exists_pointForces freshForces rule with ⟨onCell, found, agree⟩
  simp only [generalizedForce, ne_eq, not_true_eq_false, if_false]
  have gathered : Collective.Joint (fun member : Team p => (ExceptT.mk (pure
      ((Partition.ofMesh mesh member.seat).cells.mapM
        (forcesOnCell mesh mesh (positions member) (forces member) rule))) :
          Collective α (List (List (PointForce α)))))
      (· = fun member => (Partition.ofMesh mesh member.seat).cells.map (onCell member)) :=
    Collective.joint_mk_pure found rfl
  apply Collective.joint_bind gathered
  rintro _ rfl
  apply Collective.joint_sum _ fun total _ => same_const total
  exact Partition.adds_of_cells someone agree fun additive member i inside =>
    PointForce.getElem_net additive shape.dim center _ inside

end ImmersedBody
