import ImmersedBody.Proofs.Field.Exchange
import ImmersedBody.Proofs.Mesh.Distribution
import ImmersedBody.Proofs.Ranks.Sums
import ImmersedBody.Rigid.Mass

/-!
# Fields of a team

The members of a team share a field if each of them holds its part of it: in exact
arithmetic, the entries that a rank owns are those of the reference.  The field is
*fresh* if its ghosts are up to date and, in exact arithmetic, those of the
reference as well.

Writing keeps a field shared if all members write the same, and closing it makes
it fresh.  The nodes of its cells can be read by every rank from a fresh field.
-/

namespace ImmersedBody

variable {α : Type} [Scalar α] {shape : Shape} {p : Nat}

/-- Each member of a team holds its part of one field on the nodes of a mesh. -/
structure SharedField (mesh : Mesh shape α) (fields : Team p → NodalField α) : Prop where
  layout : ∀ member,
    (Partition.ofMesh mesh member.seat).layout shape.dim.size = .ok (fields member).layout
  agrees : ExactAddition α → ∀ member entry, (fields member).layout.Owns entry →
    (fields member).get entry = (fields none).get entry

/-- A shared field whose ghosts are up to date. -/
structure FreshField (mesh : Mesh shape α) (fields : Team p → NodalField α) : Prop extends
    SharedField mesh fields where
  synchronized : ∀ member, (fields member).synchronized = true
  copies : ExactAddition α → ∀ member entry value, (fields member).get entry = .ok value →
    (fields none).get entry = .ok value

namespace Partition

omit [Scalar α] in
/-- The reference owns the nodes that any member owns. -/
theorem contains_none {mesh : Mesh shape α} {member : Team p} {node : Nat}
    (owned : (ofMesh mesh member.seat).owned.Contains node) :
    (ofMesh mesh (Team.seat (none : Team p))).owned.Contains node :=
  Seat.contains_block_of_single Team.seat_size_none
    (Nat.lt_of_lt_of_le owned.2 (member.seat.stop_block_le mesh.vertices.size))

omit [Scalar α] in
/-- The reference owns the entries that any member owns. -/
theorem owns_none {mesh : Mesh shape α} {dim : Dim} {layouts : Team p → FieldLayout}
    (layout : ∀ member, (ofMesh mesh member.seat).layout dim.size = .ok (layouts member))
    {member : Team p} {entry : Nat} (owns : (layouts member).Owns entry) :
    (layouts none).Owns entry := by
  have place_lt : entry % dim.size < dim.size := Nat.mod_lt _ dim.size_pos
  rw [← Nat.div_add_mod' entry dim.size] at owns ⊢
  rw [(laidOut_of_layout (layout member)).owns_iff place_lt] at owns
  exact ((laidOut_of_layout (layout none)).owns_iff place_lt).mpr (contains_none owns)

end Partition

namespace SharedField

open NodalField

variable {mesh : Mesh shape α} {fields : Team p → NodalField α} {member : Team p} {node : Nat}

theorem laidOut (shared : SharedField mesh fields) (member : Team p) :
    (Partition.ofMesh mesh member.seat).LaidOut shape.dim.size (fields member).layout :=
  Partition.laidOut_of_layout (shared.layout member)

theorem block (shared : SharedField mesh fields) (member : Team p) :
    (fields member).layout.blockSize = shape.dim.size :=
  (shared.laidOut member).blockSize_eq

theorem globalLength_eq (shared : SharedField mesh fields) (member : Team p) :
    (fields member).layout.globalLength = mesh.vertices.size * shape.dim.size :=
  (shared.laidOut member).globalLength

/-- Two shared fields on one mesh have the same layouts. -/
theorem layout_eq {others : Team p → NodalField α} (shared : SharedField mesh fields)
    (shared' : SharedField mesh others) (member : Team p) :
    (fields member).layout = (others member).layout := by
  have same := shared.layout member
  rw [shared'.layout member, Except.ok.injEq] at same
  exact same.symm

theorem mem_nodes (shared : SharedField mesh fields) :
    node ∈ (fields member).layout.nodes ↔
      (Partition.ofMesh mesh member.seat).owned.Contains node :=
  (shared.laidOut member).mem_nodes shape.dim.size_pos

theorem ownsNode (shared : SharedField mesh fields)
    (owned : (Partition.ofMesh mesh member.seat).owned.Contains node) :
    (fields member).OwnsNode shape.dim node :=
  fun _ below => ((shared.laidOut member).owns_iff below).mpr owned

/-- Members that hold the same vectors at the nodes that they own share a field. -/
theorem of_nodes {vectors : Team p → Nat → Vec3 α}
    (layout : ∀ member,
      (Partition.ofMesh mesh member.seat).layout shape.dim.size = .ok (fields member).layout)
    (holds : ∀ member node, (Partition.ofMesh mesh member.seat).owned.Contains node →
      (fields member).NodeHolds shape.dim node (vectors member node))
    (same : ExactAddition α → ∀ member node,
      (Partition.ofMesh mesh member.seat).owned.Contains node →
        vectors member node = vectors none node) :
    SharedField mesh fields where
  layout := layout
  agrees := by
    intro additive member entry owns
    have place_lt : entry % shape.dim.size < shape.dim.size := Nat.mod_lt _ shape.dim.size_pos
    rw [← Nat.div_add_mod' entry shape.dim.size] at owns ⊢
    have owned := ((Partition.laidOut_of_layout (layout member)).owns_iff place_lt).mp owns
    rw [holds member _ owned _ place_lt,
      holds none _ (Partition.contains_none owned) _ place_lt]
    simp only [same additive member _ owned]

/-- Every member can read the nodes that it owns, in exact arithmetic as the reference does. -/
theorem exists_vectors (shared : SharedField mesh fields) :
    ∃ vectors : Team p → Nat → Vec3 α,
      (∀ member node, (Partition.ofMesh mesh member.seat).owned.Contains node →
        (fields member).vector shape.dim node = .ok (vectors member node)) ∧
      (ExactAddition α → ∀ member node,
        (Partition.ofMesh mesh member.seat).owned.Contains node →
          vectors member node = vectors none node) := by
  let vectors (member : Team p) (node : Nat) : Vec3 α :=
    (((fields member).vector shape.dim node).toOption).getD 0
  have readable : ∀ member node, (Partition.ofMesh mesh member.seat).owned.Contains node →
      (fields member).vector shape.dim node = .ok (vectors member node) := by
    intro member node owned
    have found : ∃ v, (fields member).vector shape.dim node = .ok v := by
      apply NodalField.exists_vector_of_readable (shared.block member)
      intro place below
      rcases NodalField.get_of_owns (shared.ownsNode owned place below) with ⟨_, found⟩
      exact ⟨_, found⟩
    rcases found with ⟨v, found⟩
    simp only [vectors, found]
    rfl
  refine ⟨vectors, readable, ?_⟩
  intro additive member node owned
  have here := readable member node owned
  have there := readable none node (Partition.contains_none owned)
  rcases NodalField.nodeHolds_of_vector (shared.block member) here with ⟨holds, flat⟩
  have holdsThere : (fields none).NodeHolds shape.dim node (vectors member node) := by
    intro place below
    rw [← shared.agrees additive member _ (shared.ownsNode owned place below), holds place below]
  rw [NodalField.vector_of_nodeHolds (shared.block none) holdsThere, flat,
    Except.ok.injEq] at there
  exact there

/-! ## Ways to write -/

/-- The same value in every entry. -/
theorem constant {layouts : Team p → FieldLayout} (value : α)
    (layout : ∀ member,
      (Partition.ofMesh mesh member.seat).layout shape.dim.size = .ok (layouts member)) :
    SharedField mesh fun member => NodalField.constant (layouts member) value where
  layout := layout
  agrees := by
    intro additive member entry owns
    have own : (layouts member).Owns entry := owns
    rw [get_constant own, get_constant (Partition.owns_none layout own)]

/-- The values of one function on all entries. -/
theorem fill (shared : SharedField mesh fields) (value : Nat → α) :
    SharedField mesh fun member => (fields member).fill value where
  layout := shared.layout
  agrees := by
    intro additive member entry owns
    have own : (fields member).layout.Owns entry := owns
    rw [get_fill own, get_fill (Partition.owns_none shared.layout own)]

theorem scale (shared : SharedField mesh fields) (factor : α) :
    SharedField mesh fun member => (fields member).scale factor where
  layout := shared.layout
  agrees := by
    intro additive member entry owns
    have own : (fields member).layout.Owns entry := owns
    rw [NodalField.scale, NodalField.scale, get_map, get_map,
      shared.agrees additive member entry own]

/-- A shared field can be copied into another one. -/
theorem copyFrom {sources : Team p → NodalField α} (shared : SharedField mesh fields)
    (source : SharedField mesh sources) (member : Team p) :
    (fields member).copyFrom (sources member) = .ok (sources member) := by
  have same := shared.layout_eq source member
  rw [NodalField.copyFrom, compatible, same, beq_self_eq_true, if_pos rfl]

/-- Every member writes what it finds for the nodes that it owns. -/
theorem exists_writeNodes {value : Team p → Nat → Except (Stop α) (Vec3 α)}
    {vectors : Team p → Nat → Vec3 α} (shared : SharedField mesh fields)
    (found : ∀ member node, (Partition.ofMesh mesh member.seat).owned.Contains node →
      value member node = .ok (vectors member node))
    (same : ExactAddition α → ∀ member node,
      (Partition.ofMesh mesh member.seat).owned.Contains node →
        vectors member node = vectors none node) :
    ∃ afters, (∀ member, NodalVelocity.writeNodes shape.dim (value member) (fields member) =
      .ok () (afters member)) ∧ SharedField mesh afters := by
  have each : ∀ member, ∃ after, NodalVelocity.writeNodes shape.dim (value member)
      (fields member) = .ok () after ∧ after.layout = (fields member).layout ∧
        ∀ node ∈ (fields member).layout.nodes,
          after.NodeHolds shape.dim node (vectors member node) := by
    intro member
    apply NodalVelocity.exists_writeNodes (shared.block member)
    intro node inside
    have owned := shared.mem_nodes.mp inside
    exact ⟨shared.ownsNode owned, found member node owned⟩
  choose afters written layouts holds using each
  refine ⟨afters, written, .of_nodes ?_ ?_ same⟩
  · intro member
    rw [layouts]
    exact shared.layout member
  · intro member node owned
    exact holds member node (shared.mem_nodes.mpr owned)

/-- Every member writes what one function makes of another field, node by node. -/
theorem exists_writeMapped {sources : Team p → NodalField α} (source : SharedField mesh sources)
    (target : SharedField mesh fields) {f : Team p → Vec3 α → Vec3 α} (same : Same f) :
    ∃ afters, (∀ member, NodalVelocity.writeNodes shape.dim
        (fun node => do
          let x ← (sources member).vector shape.dim node
          return f member x) (fields member) = .ok () (afters member)) ∧
      SharedField mesh afters := by
  rcases source.exists_vectors with ⟨vectors, read, agree⟩
  have found : ∀ member node, (Partition.ofMesh mesh member.seat).owned.Contains node →
      (do let x ← (sources member).vector shape.dim node
          return f member x : Except (Stop α) (Vec3 α)) = .ok (f member (vectors member node)) := by
    intro member node owned
    rw [read member node owned]
    rfl
  apply target.exists_writeNodes found
  intro additive member node owned
  rw [agree additive member node owned, same.eq]

/-- Every member displaces the nodes that it owns. -/
theorem exists_displace {sources : Team p → NodalField α} (shared : SharedField mesh fields)
    (source : SharedField mesh sources) {displacements : Team p → RigidDisplacement α}
    (same : Same displacements) :
    ∃ afters, (∀ member, displace shape.dim (displacements member) (sources member)
      (fields member) = .ok () (afters member)) ∧ SharedField mesh afters := by
  have each : ∀ member, ∃ after, displace shape.dim (displacements member) (sources member)
      (fields member) = .ok () after ∧ after.layout = (fields member).layout ∧
        ∀ node, (Partition.ofMesh mesh member.seat).owned.start ≤ node →
          node < (Partition.ofMesh mesh member.seat).owned.stop →
            ∀ x, (sources member).vector shape.dim node = .ok x →
              after.NodeHolds shape.dim node ((displacements member).apply x) :=
    fun member => NodalField.exists_displace (shared.layout_eq source member)
      (source.block member) (source.laidOut member).owned
  choose afters displaced layouts holds using each
  rcases source.exists_vectors with ⟨vectors, read, agree⟩
  have written : ∀ member node, (Partition.ofMesh mesh member.seat).owned.Contains node →
      (afters member).NodeHolds shape.dim node
        ((displacements member).apply (vectors member node)) :=
    fun member node owned => holds member node owned.1 owned.2 _ (read member node owned)
  refine ⟨afters, displaced, .of_nodes ?_ written ?_⟩
  · intro member
    rw [layouts]
    exact shared.layout member
  · intro additive member node owned
    rw [same member, agree additive member node owned]

/-! ## Refreshing ghosts -/

/-- Where every member is alone there are no ghosts to refresh. -/
theorem fresh_of_single (shared : SharedField mesh fields)
    (single : ∀ member : Team p, member.seat.size = 1) :
    FreshField mesh fun member => { fields member with synchronized := true } := by
  have agrees : ExactAddition α → ∀ member entry, (fields member).layout.Owns entry →
      NodalField.get { fields member with synchronized := true } entry =
        NodalField.get { fields none with synchronized := true } entry := by
    intro additive member entry owns
    rw [get_synchronized owns, get_synchronized (Partition.owns_none shared.layout owns),
      shared.agrees additive member entry owns]
  refine { layout := shared.layout, agrees := agrees, synchronized := fun _ => rfl, copies := ?_ }
  intro additive member entry value found
  rcases owns_or_mem_of_get found with owns | ⟨foreign, -, j, inside, rfl, -⟩
  · rw [← agrees additive member entry owns]
    exact found
  · -- the member owns all entries, so it has no ghosts
    have bound := (fields member).layout.ghost_lt j inside
    exact absurd (Partition.LaidOut.owns_of_single (single member) (shared.laidOut member) bound)
      foreign

/-- Ghosts that are taken from the sum of what the ranks own are those of the reference. -/
theorem fresh_of_refreshed (shared : SharedField mesh fields) (someone : 0 < p)
    {values : Fin p → Vector α (mesh.vertices.size * shape.dim.size)}
    {total : Vector α (mesh.vertices.size * shape.dim.size)} {closed : Team p → NodalField α}
    (layouts : ∀ member, (closed member).layout = (fields member).layout)
    (synchronized : ∀ member, (closed member).synchronized = true)
    (kept : ∀ member entry, (fields member).layout.Owns entry →
      (closed member).get entry = (fields member).get entry)
    (contributed : ∀ rank entry (inside : entry < mesh.vertices.size * shape.dim.size),
      ((fields (some rank)).layout.Owns entry →
          (fields (some rank)).get entry = .ok (values rank)[entry]) ∧
        (¬ (fields (some rank)).layout.Owns entry → (values rank)[entry] = 0))
    (copied : ∀ rank entry value, (closed (some rank)).get entry = .ok value →
      ¬ (fields (some rank)).layout.Owns entry → total[entry]? = some value)
    (summed : ExactAddition α → Totals values total) : FreshField mesh closed := by
  have layout : ∀ member,
      (Partition.ofMesh mesh member.seat).layout shape.dim.size = .ok (closed member).layout := by
    intro member
    rw [layouts]
    exact shared.layout member
  have agrees : ExactAddition α → ∀ member entry, (closed member).layout.Owns entry →
      (closed member).get entry = (closed none).get entry := by
    intro additive member entry owns
    have ownsNone := Partition.owns_none layout owns
    rw [layouts] at owns ownsNone
    rw [kept member entry owns, kept none entry ownsNone, shared.agrees additive member entry owns]
  refine { layout := layout, agrees := agrees, synchronized := synchronized, copies := ?_ }
  intro additive member entry value found
  cases member with
  | none =>
      exact found
  | some rank =>
      by_cases owns : (fields (some rank)).layout.Owns entry
      · rw [← agrees additive (some rank) entry (by rw [layouts]; exact owns)]
        exact found
      · rcases Vector.getElem?_eq_some_iff.mp (copied rank entry value found owns) with
          ⟨inside, total_eq⟩
        rcases Partition.exists_owner someone (fun rank => shared.laidOut (some rank)) inside with
          ⟨owner, ownsEntry, unique⟩
        have sum_eq : total[entry] = (values owner)[entry] := by
          apply (summed additive).eq_of_single additive inside
          intro other different
          exact (contributed other entry inside).2 fun owns => different (unique other owns)
        have ownsClosed : (closed (some owner)).layout.Owns entry := by
          rw [layouts]
          exact ownsEntry
        rw [← agrees additive (some owner) entry ownsClosed, kept _ entry ownsEntry,
          (contributed owner entry inside).1 ownsEntry, ← sum_eq, total_eq]

/-- Closing makes a shared field fresh. -/
theorem completes_close (shared : SharedField mesh fields) (someone : 0 < p) :
    Collective.Completes (fun member => (fields member).close member.seat) (FreshField mesh) := by
  by_cases alone : p = 1
  · have single : ∀ member : Team p, member.seat.size = 1 := by
      intro member
      cases member with
      | none =>
          rfl
      | some rank =>
          exact alone
    have closed : ∀ member, (fields member).close member.seat =
        pure { fields member with synchronized := true } := by
      intro member
      rw [close, if_pos (single member)]
    simp only [closed]
    exact Collective.completes_pure (shared.fresh_of_single single)
  · have several : ∀ rank : Fin p, (Seat.of rank).size ≠ 1 := fun _ => alone
    have refresh := fun rank : Fin p =>
      exists_refresh (several rank) (shared.globalLength_eq (some rank))
    choose values next afters issued contributed finished using refresh
    have reference : (fields none).close (Team.seat (none : Team p)) =
        pure { fields none with synchronized := true } := by
      rw [close, if_pos Team.seat_size_none]
    have family : (fun member => Task.quiet ((fields member).close member.seat).run) =
        fun member : Team p => member.elim
          (.done (.ok { fields none with synchronized := true }))
          fun rank => .reduce "ghost_sync" (values rank) (next rank) := by
      funext member
      cases member with
      | none =>
          show Task.quiet ((fields none).close _).run = _
          rw [reference]
          rfl
      | some rank =>
          exact issued rank
    rw [Collective.Completes, family]
    refine .refresh fun total summed => ?_
    let closed (member : Team p) : NodalField α :=
      member.elim { fields none with synchronized := true } fun rank => afters rank total
    have ended : (fun member : Team p => member.elim
        (.done (.ok { fields none with synchronized := true }) :
          Task α (Except (Stop α) (NodalField α)))
        fun rank => next rank (.ok total)) = fun member => .done (.ok (closed member)) := by
      funext member
      cases member with
      | none =>
          rfl
      | some rank =>
          exact (finished rank total).1
    rw [ended]
    refine .done ⟨closed, rfl, ?_⟩
    apply shared.fresh_of_refreshed someone _ _ _ contributed _ summed
    · rintro (_ | rank)
      · rfl
      · exact (finished rank total).2.1
    · rintro (_ | rank)
      · rfl
      · exact (finished rank total).2.2.1
    · rintro (_ | rank) entry owns
      · exact get_synchronized owns
      · exact (finished rank total).2.2.2.1 entry owns
    · intro rank entry value found foreign
      exact (finished rank total).2.2.2.2 entry value found foreign

end SharedField

namespace FreshField

open NodalField

variable {mesh : Mesh shape α} {fields : Team p → NodalField α} {member : Team p}

/-- The same values of all entries make a fresh field. -/
theorem exists_ofGlobal {layouts : Team p → FieldLayout} {values : Array α}
    (layout : ∀ member,
      (Partition.ofMesh mesh member.seat).layout shape.dim.size = .ok (layouts member))
    (size_eq : values.size = mesh.vertices.size * shape.dim.size) :
    ∃ fields, (∀ member, ofGlobal (layouts member) values = .ok (fields member)) ∧
      FreshField mesh fields := by
  have made : ∀ member, ∃ field, ofGlobal (layouts member) values = .ok field ∧
      field.layout = layouts member ∧ field.synchronized = true := by
    intro member
    have fits : values.size = (layouts member).globalLength := by
      rw [size_eq, (Partition.laidOut_of_layout (layout member)).globalLength]
      rfl
    rw [ofGlobal, dif_pos fits]
    exact ⟨_, rfl, rfl, rfl⟩
  choose fields created layouts_eq synchronized using made
  have same : ∀ member entry value, (fields member).get entry = .ok value →
      (fields none).layout.Owns entry → (fields none).get entry = .ok value := by
    intro member entry value found owns
    rcases get_of_owns owns with ⟨_, there⟩
    have here := getElem?_of_get_ofGlobal (created member) found
    rw [getElem?_of_get_ofGlobal (created none) there, Option.some.injEq] at here
    rw [there, here]
  have layout' : ∀ member,
      (Partition.ofMesh mesh member.seat).layout shape.dim.size = .ok (fields member).layout := by
    intro member
    rw [layouts_eq]
    exact layout member
  refine ⟨fields, created,
    { layout := layout', agrees := ?_, synchronized := synchronized, copies := ?_ }⟩
  · intro _ member entry owns
    rcases get_of_owns owns with ⟨_, here⟩
    rw [here, same member entry _ here (Partition.owns_none layout' owns)]
  · intro _ member entry value found
    apply same member entry value found
    have stored := getElem?_of_get_ofGlobal (created member) found
    rcases Array.getElem?_eq_some_iff.mp stored with ⟨inside, -⟩
    apply Partition.LaidOut.owns_of_single Team.seat_size_none
      (Partition.laidOut_of_layout (layout' none))
    rw [(Partition.laidOut_of_layout (layout' none)).globalLength]
    exact size_eq ▸ inside

/-- Every member can read the nodes that it reaches, in exact arithmetic as the reference does. -/
theorem exists_vector (fresh : FreshField mesh fields) {node : Nat}
    (reaches : (Partition.ofMesh mesh member.seat).Reaches node) :
    ∃ v, (fields member).vector shape.dim node = .ok v ∧
      (ExactAddition α → (fields none).vector shape.dim node = .ok v) := by
  have readable : ∀ place < shape.dim.size,
      ∃ value, (fields member).get (node * shape.dim.size + place) = .ok value := by
    intro place below
    rcases reaches with owned | ghost
    · rcases get_of_owns (fresh.ownsNode owned place below) with ⟨_, found⟩
      exact ⟨_, found⟩
    · exact exists_get_of_mem (fresh.synchronized member)
        (((fresh.laidOut member).mem_ghosts_iff below).mpr ghost)
  rcases exists_vector_of_readable (fresh.block member) readable with ⟨v, found⟩
  refine ⟨v, found, ?_⟩
  intro additive
  rcases nodeHolds_of_vector (fresh.block member) found with ⟨holds, flat⟩
  have there : (fields none).NodeHolds shape.dim node v := fun place below =>
    fresh.copies additive member _ _ (holds place below)
  rw [vector_of_nodeHolds (fresh.block none) there, flat]

/-- Every member can read the nodes of its cells, in exact arithmetic as the reference does. -/
theorem exists_elements (fresh : FreshField mesh fields) :
    ∃ elements : Team p → (number : Nat) → number < mesh.cells.size → Element shape α,
      (∀ member, ∀ number ∈ (Partition.ofMesh mesh member.seat).cells,
        ∀ inside : number < mesh.cells.size,
          (fields member).onCell shape.dim mesh.cells[number] =
            .ok (elements member number inside)) ∧
      (ExactAddition α → ∀ member, ∀ number ∈ (Partition.ofMesh mesh member.seat).cells,
        ∀ inside, elements member number inside = elements none number inside) := by
  let read (member : Team p) (node : Nat) : Vec3 α :=
    ((fields member).vector shape.dim node).toOption.getD 0
  have found : ∀ member, ∀ number ∈ (Partition.ofMesh mesh member.seat).cells,
      ∀ inside : number < mesh.cells.size, ∀ i (_ : i < shape.nodeCount),
        (fields member).vector shape.dim mesh.cells[number][i] =
          .ok (read member mesh.cells[number][i]) := by
    intro member number owned inside i bound
    rcases fresh.exists_vector (Partition.reaches_of_mem_cells owned inside bound) with
      ⟨v, found, -⟩
    simp only [read, found]
    rfl
  refine ⟨fun member number inside => mesh.cells[number].map (read member), ?_, ?_⟩
  · intro member number owned inside
    exact vector_mapM_eq_ok_map (found member number owned inside)
  · intro additive member number owned inside
    apply Vector.ext
    intro i bound
    rcases fresh.exists_vector (Partition.reaches_of_mem_cells owned inside bound) with
      ⟨v, here, there⟩
    simp only [Vector.getElem_map, read, here, there additive]

end FreshField

end ImmersedBody
