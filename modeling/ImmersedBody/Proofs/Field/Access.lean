import ImmersedBody.Proofs.Outcomes
import ImmersedBody.Rigid.Motion

/-!
# Reading and writing the nodes of a field

The values of a node are read as a vector, and written node by node.  The lemmas
here say what can be read after nodes have been written or displaced, in terms of
what could be read before; they do not mention how entries are stored.
-/

namespace ImmersedBody.NodalField

variable {α : Type} {dim : Dim} {node place : Nat}

/-- The rank owns all entries of a node. -/
def OwnsNode (field : NodalField α) (dim : Dim) (node : Nat) : Prop :=
  ∀ place < dim.size, field.layout.Owns (node * dim.size + place)

/-- The entries of a node are the leading components of a vector. -/
def NodeHolds (field : NodalField α) (dim : Dim) (node : Nat) (v : Vec3 α) : Prop :=
  ∀ place (below : place < dim.size),
    field.get (node * dim.size + place) = .ok (dim.coords v)[place]

/-! ## Single entries -/

theorem get_of_owns {field : NodalField α} {entry : Nat} (owns : field.layout.Owns entry) :
    ∃ inside : entry - field.layout.owned.start < field.owned.size,
      field.get entry = .ok field.owned[entry - field.layout.owned.start] := by
  have inside : entry - field.layout.owned.start < field.owned.size := by
    rw [field.owned_size]
    exact IndexRange.offset_lt owns
  exact ⟨inside, by rw [get, dif_pos owns]⟩

/-- An entry that can be read is owned, or it is a ghost that is up to date. -/
theorem owns_or_mem_of_get {field : NodalField α} {entry : Nat} {value : α}
    (found : field.get entry = .ok value) :
    field.layout.Owns entry ∨ ¬ field.layout.Owns entry ∧ field.synchronized = true ∧
      ∃ (j : Nat) (inside : j < field.layout.ghosts.size), field.layout.ghosts[j] = entry ∧
        field.ghosts[j]? = some value := by
  by_cases owns : field.layout.Owns entry
  · exact Or.inl owns
  · right
    rw [get, dif_neg owns] at found
    split at found
    · next j member =>
        split at found
        · next fresh =>
            refine ⟨owns, fresh, j, j.isLt, (Array.finIdxOf?_eq_some_iff.mp member).1, ?_⟩
            rw [Except.ok.injEq] at found
            rw [← found]
            exact Array.getElem?_eq_getElem _
        · cases found
    · cases found

/-- A ghost that is up to date can be read. -/
theorem exists_get_of_mem {field : NodalField α} {entry : Nat}
    (fresh : field.synchronized = true) (ghost : entry ∈ field.layout.ghosts) :
    ∃ value, field.get entry = .ok value := by
  by_cases owns : field.layout.Owns entry
  · rcases get_of_owns owns with ⟨_, found⟩
    exact ⟨_, found⟩
  · rw [get, dif_neg owns]
    split
    · next j member =>
        rw [if_pos fresh]
        exact ⟨_, rfl⟩
    · next absent =>
        exact absurd ghost (Array.finIdxOf?_eq_none_iff.mp absent)

theorem get_synchronized {field : NodalField α} {entry : Nat} (owns : field.layout.Owns entry) :
    get { field with synchronized := true } entry = field.get entry := by
  rw [get, get, dif_pos owns, dif_pos owns]

theorem get_constant {layout : FieldLayout} {value : α} {entry : Nat}
    (owns : layout.Owns entry) : (constant layout value).get entry = .ok value := by
  have own : (constant layout value).layout.Owns entry := owns
  rcases get_of_owns own with ⟨_, found⟩
  rw [found]
  simp [constant]

theorem get_fill {field : NodalField α} {value : Nat → α} {entry : Nat}
    (owns : field.layout.Owns entry) : (field.fill value).get entry = .ok (value entry) := by
  have own : (field.fill value).layout.Owns entry := owns
  rcases get_of_owns own with ⟨_, found⟩
  have position : field.layout.owned.start + (entry - field.layout.owned.start) = entry :=
    Nat.add_sub_cancel' owns.1
  rw [found]
  simp [fill, write, position]

theorem get_map (field : NodalField α) (f : α → α) (entry : Nat) :
    (field.map f).get entry = (field.get entry).map f := by
  rw [get, get]
  by_cases owns : field.layout.Owns entry
  · have own : (field.map f).layout.Owns entry := owns
    rw [dif_pos owns, dif_pos own]
    simp [map, Except.map]
  · have foreign : ¬ (field.map f).layout.Owns entry := owns
    rw [dif_neg owns, dif_neg foreign]
    simp only [map]
    cases field.layout.ghosts.finIdxOf? entry with
    | none =>
        rfl
    | some j =>
        by_cases fresh : field.synchronized = true <;> simp [fresh, Except.map]

/-- A field that is made from the values of all entries has these values. -/
theorem getElem?_of_get_ofGlobal {layout : FieldLayout} {values : Array α} {field : NodalField α}
    {entry : Nat} {value : α} (made : ofGlobal layout values = .ok field)
    (found : field.get entry = .ok value) : values[entry]? = some value := by
  rw [ofGlobal] at made
  split at made
  · next fits =>
      cases made
      rcases owns_or_mem_of_get found with owns | ⟨-, -, j, inside, rfl, stored⟩
      · rcases get_of_owns owns with ⟨_, read⟩
        rw [read, Except.ok.injEq] at found
        have position : layout.owned.start + (entry - layout.owned.start) = entry :=
          Nat.add_sub_cancel' owns.1
        rw [← found]
        simp [ofFn, position, fits, Nat.lt_of_lt_of_le owns.2 layout.stop_le]
      · have below : j < layout.ghosts.size := inside
        have bound : layout.ghosts[j] < values.size := fits ▸ layout.ghost_lt j below
        have copied : (ofFn layout fun i hi => values[i]).ghosts[j]? =
            some values[layout.ghosts[j]] := by
          simp [ofFn, below]
        rw [← stored, copied]
        exact Array.getElem?_eq_getElem bound
  · cases made

/-- An owned entry can be changed, which changes no other owned entry. -/
theorem exists_modify {field : NodalField α} {entry : Nat} (owns : field.layout.Owns entry)
    (f : α → α) :
    ∃ after, field.modify entry f = .ok after ∧ after.layout = field.layout ∧
      after.get entry = (field.get entry).map f ∧
      ∀ other, field.layout.Owns other → other ≠ entry → after.get other = field.get other := by
  let after : NodalField α := { field with
    owned := field.owned.modify (entry - field.layout.owned.start) f
    synchronized := false
    owned_size := by simp [field.owned_size] }
  have ownsAfter : after.layout.Owns entry := owns
  refine ⟨after, by rw [modify, if_pos owns], rfl, ?_, ?_⟩
  · rcases get_of_owns owns with ⟨_, before⟩
    rcases get_of_owns ownsAfter with ⟨_, now⟩
    rw [before, now]
    simp [after, Except.map, Array.getElem_modify_self]
  · intro other ownsOther different
    have apart : entry - field.layout.owned.start ≠ other - field.layout.owned.start := by
      have low := owns.1
      have lowOther := ownsOther.1
      omega
    have stillOwns : after.layout.Owns other := ownsOther
    rcases get_of_owns ownsOther with ⟨_, before⟩
    rcases get_of_owns stillOwns with ⟨_, now⟩
    rw [before, now]
    simp [after, Array.getElem_modify_of_ne apart]

/-- Values are written one after the other into owned entries. -/
theorem exists_setFrom (values : List α) :
    ∀ {field : NodalField α} {first : Nat},
      (∀ i < values.length, field.layout.Owns (first + i)) →
      ∃ after, setFrom first values field = .ok () after ∧ after.layout = field.layout ∧
        (∀ i (inside : i < values.length), after.get (first + i) = .ok values[i]) ∧
        ∀ other, field.layout.Owns other → (∀ i < values.length, other ≠ first + i) →
          after.get other = field.get other := by
  induction values with
  | nil =>
      intro field first owns
      exact ⟨field, rfl, rfl, fun i inside => absurd inside i.not_lt_zero, fun _ _ _ => rfl⟩
  | cons value values ih =>
      intro field first owns
      have ownsFirst : field.layout.Owns first := owns 0 (Nat.zero_lt_succ _)
      rcases exists_modify ownsFirst fun _ => value with ⟨between, written, same, here, elsewhere⟩
      have ownsRest : ∀ i < values.length, between.layout.Owns (first + 1 + i) := by
        intro i inside
        rw [same, Nat.add_assoc, Nat.add_comm 1 i]
        exact owns (i + 1) (Nat.succ_lt_succ inside)
      rcases ih ownsRest with ⟨after, wrote, sameRest, rest, kept⟩
      refine ⟨after, ?_, sameRest.trans same, ?_, ?_⟩
      · have wroteFirst : field.set first value = .ok between := written
        simp only [setFrom, wroteFirst]
        exact wrote
      · intro i inside
        cases i with
        | zero =>
            rw [Nat.add_zero, kept first (by rw [same]; exact ownsFirst) (by omega), here]
            rcases get_of_owns ownsFirst with ⟨_, before⟩
            rw [before]
            rfl
        | succ i =>
            have next : first + (i + 1) = first + 1 + i := by omega
            rw [next]
            exact rest i (Nat.lt_of_succ_lt_succ inside)
      · intro other ownsOther apart
        have notFirst : other ≠ first := apart 0 (Nat.zero_lt_succ _)
        have notRest : ∀ i < values.length, other ≠ first + 1 + i := by
          intro i inside
          rw [Nat.add_assoc, Nat.add_comm 1 i]
          exact apart (i + 1) (Nat.succ_lt_succ inside)
        rw [kept other (by rw [same]; exact ownsOther) notRest, elsewhere other ownsOther notFirst]

/-! ## Nodes -/

/-- An entry tells its node. -/
theorem entry_div (node : Nat) {place : Nat} (below : place < dim.size) :
    (node * dim.size + place) / dim.size = node := by
  rw [Nat.add_comm, Nat.add_mul_div_right _ _ dim.size_pos, Nat.div_eq_of_lt below, Nat.zero_add]

/-- Different nodes have no entry in common. -/
theorem entry_ne {other : Nat} {here there : Nat} (apart : node ≠ other) (below : here < dim.size)
    (belowOther : there < dim.size) : node * dim.size + here ≠ other * dim.size + there := by
  intro same
  apply apart
  rw [← entry_div node below, same, entry_div other belowOther]

/-- What a node holds can be read as a vector. -/
theorem vector_of_nodeHolds [Zero α] {field : NodalField α} {v : Vec3 α}
    (block : field.layout.blockSize = dim.size) (holds : field.NodeHolds dim node v) :
    field.vector dim node = .ok (dim.embed (dim.coords v)) := by
  have entry : ∀ place (below : place < dim.size),
      field.nodeEntry node place = .ok (dim.coords v)[place] := by
    intro place below
    rw [nodeEntry, block, holds place below]
    rfl
  cases dim with
  | two =>
      rw [vector, entry 0 (by decide), entry 1 (by decide)]
      rfl
  | three =>
      rw [vector, entry 0 (by decide), entry 1 (by decide), entry 2 (by decide)]
      rfl

/-- What is read as a vector is what the node holds. -/
theorem nodeHolds_of_vector [Zero α] {field : NodalField α} {v : Vec3 α}
    (block : field.layout.blockSize = dim.size) (found : field.vector dim node = .ok v) :
    field.NodeHolds dim node v ∧ dim.embed (dim.coords v) = v := by
  have entry : ∀ place value, field.nodeEntry node place = .ok value →
      field.get (node * dim.size + place) = .ok value := by
    intro place value read
    rw [nodeEntry, block] at read
    cases found : field.get (node * dim.size + place) with
    | error e =>
        rw [found] at read
        cases read
    | ok stored =>
        rw [found] at read
        cases read
        rfl
  cases dim with
  | two =>
      simp only [vector, bind_eq_ok_iff, pure_eq_ok_iff] at found
      rcases found with ⟨x, readX, y, readY, rfl⟩
      refine ⟨?_, rfl⟩
      intro place below
      match place, below with
      | 0, _ => exact entry 0 x readX
      | 1, _ => exact entry 1 y readY
  | three =>
      simp only [vector, bind_eq_ok_iff, pure_eq_ok_iff] at found
      rcases found with ⟨x, readX, y, readY, z, readZ, rfl⟩
      refine ⟨?_, rfl⟩
      intro place below
      match place, below with
      | 0, _ => exact entry 0 x readX
      | 1, _ => exact entry 1 y readY
      | 2, _ => exact entry 2 z readZ

/-- A node whose entries can be read can be read as a vector. -/
theorem exists_vector_of_readable [Zero α] {field : NodalField α}
    (block : field.layout.blockSize = dim.size)
    (readable : ∀ place < dim.size, ∃ value, field.get (node * dim.size + place) = .ok value) :
    ∃ v, field.vector dim node = .ok v := by
  have entry : ∀ place < dim.size, ∃ value, field.nodeEntry node place = .ok value := by
    intro place below
    rcases readable place below with ⟨value, found⟩
    exact ⟨value, by rw [nodeEntry, block, found]; rfl⟩
  cases dim with
  | two =>
      rcases entry 0 (by decide) with ⟨x, readX⟩
      rcases entry 1 (by decide) with ⟨y, readY⟩
      exact ⟨_, by rw [vector, readX, readY]; rfl⟩
  | three =>
      rcases entry 0 (by decide) with ⟨x, readX⟩
      rcases entry 1 (by decide) with ⟨y, readY⟩
      rcases entry 2 (by decide) with ⟨z, readZ⟩
      exact ⟨_, by rw [vector, readX, readY, readZ]; rfl⟩

/-- The vector of an owned node can be written, which changes no other node. -/
theorem exists_setVector {field : NodalField α} (block : field.layout.blockSize = dim.size)
    (owns : field.OwnsNode dim node) (v : Vec3 α) :
    ∃ after, setVector dim node v field = .ok () after ∧ after.layout = field.layout ∧
      after.NodeHolds dim node v ∧
      ∀ other, field.OwnsNode dim other → other ≠ node → ∀ w,
        field.NodeHolds dim other w → after.NodeHolds dim other w := by
  have length_eq : (dim.coords v).toList.length = dim.size := by simp
  have ownsAll : ∀ place < (dim.coords v).toList.length,
      field.layout.Owns (node * dim.size + place) := by
    rw [length_eq]
    exact owns
  rcases exists_setFrom (dim.coords v).toList ownsAll with ⟨after, wrote, same, here, elsewhere⟩
  refine ⟨after, ?_, same, ?_, ?_⟩
  · rw [setVector, setNode, block]
    exact wrote
  · intro place below
    rw [here place (by rw [length_eq]; exact below)]
    simp
  · intro other ownsOther apart w holds place below
    rw [elsewhere _ (ownsOther place below), holds place below]
    intro i inside
    rw [length_eq] at inside
    exact entry_ne apart below inside

/-! ## Displacements -/

theorem coordinate_eq_getElem (v : Vec3 α) (below : place < dim.size) :
    v.coordinate place = (dim.coords v)[place] := by
  cases dim with
  | two =>
      match place, below with
      | 0, _ | 1, _ => rfl
  | three =>
      match place, below with
      | 0, _ | 1, _ | 2, _ => rfl

section

variable [Scalar α]

/-- The vector of a node among the stored entries is the one that the node holds. -/
theorem nodeVector_eq {values : Array α} {v : Vec3 α}
    (stored : ∀ place (below : place < dim.size),
      values[node * dim.size + place]? = some (dim.coords v)[place]) :
    nodeVector dim values node = dim.embed (dim.coords v) := by
  have entry : ∀ place (below : place < dim.size),
      values.getD (node * dim.size + place) 0 = (dim.coords v)[place] := by
    intro place below
    rw [Array.getD_eq_getD_getElem?, stored place below]
    rfl
  cases dim with
  | two =>
      simp only [nodeVector]
      rw [entry 0 (by decide), entry 1 (by decide)]
      rfl
  | three =>
      simp only [nodeVector]
      rw [entry 0 (by decide), entry 1 (by decide), entry 2 (by decide)]
      rfl

/-- Whole nodes that the rank owns are displaced. -/
theorem exists_displace {displacement : RigidDisplacement α} {source target : NodalField α}
    {first stop : Nat} (same : target.layout = source.layout)
    (block : source.layout.blockSize = dim.size)
    (aligned : source.layout.owned = ⟨first * dim.size, stop * dim.size⟩) :
    ∃ after, displace dim displacement source target = .ok () after ∧
      after.layout = target.layout ∧
      ∀ node, first ≤ node → node < stop → ∀ x, source.vector dim node = .ok x →
        after.NodeHolds dim node (displacement.apply x) := by
  have size_eq : source.owned.size = (stop - first) * dim.size := by
    rw [source.owned_size, aligned, IndexRange.length, Nat.sub_mul]
  have whole : source.owned.size % dim.size = 0 := by
    rw [size_eq, Nat.mul_mod_left]
  have targetSize : target.owned.size = source.owned.size := by
    rw [target.owned_size, source.owned_size, same]
  refine ⟨target.write (displacedEntries dim displacement source.owned target.owned)
    (by simp [displacedEntries]), ?_, rfl, ?_⟩
  · rw [displace, if_neg fun different => different same.symm]
    simp only [if_pos whole]
  · intro node low high x read place below
    rcases nodeHolds_of_vector block read with ⟨holds, flat⟩
    -- the node has the number `node - first` among those that the rank owns
    have offset : ∀ place, node * dim.size + place - first * dim.size =
        (node - first) * dim.size + place := by
      intro place
      rw [Nat.sub_mul, Nat.sub_add_comm (Nat.mul_le_mul_right _ low)]
    have owns : ∀ place < dim.size, source.layout.Owns (node * dim.size + place) := by
      intro place below
      have next : (node + 1) * dim.size ≤ stop * dim.size := Nat.mul_le_mul_right _ high
      have start : first * dim.size ≤ node * dim.size := Nat.mul_le_mul_right _ low
      rw [Nat.add_mul, Nat.one_mul] at next
      rw [FieldLayout.Owns, aligned]
      exact ⟨by show first * dim.size ≤ _; omega, by show _ < stop * dim.size; omega⟩
    have stored : ∀ place (below : place < dim.size),
        source.owned[(node - first) * dim.size + place]? = some (dim.coords x)[place] := by
      intro place below
      rcases get_of_owns (owns place below) with ⟨inside, found⟩
      rw [holds place below, Except.ok.injEq] at found
      simp only [aligned, offset] at inside found
      rw [Array.getElem?_eq_getElem inside, found]
    have moved := (nodeVector_eq stored).trans flat
    have ownsAfter : (target.write (displacedEntries dim displacement source.owned target.owned)
        (by simp [displacedEntries])).layout.Owns (node * dim.size + place) := by
      show target.layout.Owns _
      rw [same]
      exact owns place below
    rcases get_of_owns ownsAfter with ⟨inside, found⟩
    have local_lt : node - first < source.owned.size / dim.size := by
      rw [size_eq, Nat.mul_div_cancel _ dim.size_pos]
      omega
    have quotient := entry_div (node - first) below
    have remainder : ((node - first) * dim.size + place) % dim.size = place := by
      rw [Nat.add_comm, Nat.add_mul_mod_self_right, Nat.mod_eq_of_lt below]
    have start_eq : (target.write (displacedEntries dim displacement source.owned target.owned)
        (by simp [displacedEntries])).layout.owned.start = first * dim.size := by
      show target.layout.owned.start = _
      rw [same, aligned]
    rw [found]
    simp only [start_eq, offset]
    simp [write, displacedEntries, quotient, remainder, local_lt, moved,
      ← coordinate_eq_getElem _ below]

end

end NodalField

namespace NodalVelocity

open NodalField

variable {α : Type} {dim : Dim}

/-- The vectors of owned nodes are written in order. -/
theorem exists_forNodes {value : Nat → Except (Stop α) (Vec3 α)} {v : Nat → Vec3 α}
    (nodes : List Nat) :
    ∀ {field : NodalField α}, field.layout.blockSize = dim.size →
      (∀ node ∈ nodes, field.OwnsNode dim node ∧ value node = .ok (v node)) →
      ∃ after, forNodes (fun node => do
          let u ← read (value node)
          setVector dim node u) nodes field = .ok () after ∧
        after.layout = field.layout ∧ (∀ node ∈ nodes, after.NodeHolds dim node (v node)) ∧
        ∀ other, field.OwnsNode dim other → other ∉ nodes → ∀ w,
          field.NodeHolds dim other w → after.NodeHolds dim other w := by
  induction nodes with
  | nil =>
      intro field _ _
      exact ⟨field, rfl, rfl, fun node member => absurd member List.not_mem_nil,
        fun _ _ _ _ holds => holds⟩
  | cons node nodes ih =>
      intro field block each
      rcases each node List.mem_cons_self with ⟨owns, found⟩
      rcases exists_setVector block owns (v node) with ⟨between, wrote, same, here, elsewhere⟩
      have later : ∀ other ∈ nodes, between.OwnsNode dim other ∧ value other = .ok (v other) := by
        intro other member
        rw [OwnsNode, same]
        exact each other (List.mem_cons_of_mem node member)
      rcases ih (by rw [same]; exact block) later with ⟨after, worked, sameRest, rest, kept⟩
      refine ⟨after, ?_, sameRest.trans same, ?_, ?_⟩
      · have first : (do let u ← read (value node); setVector dim node u :
            EStateM (Stop α) (NodalField α) Unit) field = .ok () between := by
          rw [found]
          exact wrote
        simp only [forNodes, bind, EStateM.bind] at first ⊢
        rw [first]
        exact worked
      · intro other member
        by_cases again : other ∈ nodes
        · exact rest other again
        · rcases List.mem_cons.mp member with rfl | inRest
          · apply kept other _ again _ here
            rw [OwnsNode, same]
            exact owns
          · exact absurd inRest again
      · intro other ownsOther absent w holds
        have apart : other ≠ node := fun equal => absent (equal ▸ List.mem_cons_self)
        have absentRest : other ∉ nodes := fun member => absent (List.mem_cons_of_mem node member)
        apply kept other _ absentRest w (elsewhere other ownsOther apart w holds)
        rw [OwnsNode, same]
        exact ownsOther

/-- All owned nodes are written. -/
theorem exists_writeNodes {value : Nat → Except (Stop α) (Vec3 α)} {v : Nat → Vec3 α}
    {field : NodalField α} (block : field.layout.blockSize = dim.size)
    (each : ∀ node ∈ field.layout.nodes, field.OwnsNode dim node ∧ value node = .ok (v node)) :
    ∃ after, writeNodes dim value field = .ok () after ∧ after.layout = field.layout ∧
      ∀ node ∈ field.layout.nodes, after.NodeHolds dim node (v node) := by
  rcases exists_forNodes field.layout.nodes block each with ⟨after, worked, same, written, -⟩
  exact ⟨after, worked, same, written⟩

end NodalVelocity

end ImmersedBody
