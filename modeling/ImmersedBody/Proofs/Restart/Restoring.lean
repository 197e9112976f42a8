import ImmersedBody.Coordinator.Exchange
import ImmersedBody.Mesh.Split
import ImmersedBody.Proofs.Outcomes
import ImmersedBody.Proofs.Ranks.Alone
import ImmersedBody.Proofs.Restart.RoundTrip

/-!
# Restarting a method

A coordinator puts the current rigid velocities of its structures into a record.  From the text of
the record, a coordinator of the same name with as many structures takes them back between steps.

Every velocity can be set, but only a finite one can be read back.  So a method can be restarted
from what it has written exactly if all current velocities are finite; otherwise its text is
written, but no record is read from it.

The main result is `Coordinator.restarts_iff`.
-/

namespace ImmersedBody.Coordinator

open ImmersedBody.Action

variable {α : Type} {shape : Shape}

/-- Reading the state does not touch it. -/
theorem on_get_bind {β : Type} (f : Coordinator shape α → Work shape α β)
    (c : Coordinator shape α) : (get >>= f : Work shape α β).on c = (f c).on c :=
  rfl

/-- What taking back a record does, between steps and if the record belongs to the method. -/
theorem on_restore {record : RestartRecord α} {c : Coordinator shape α}
    (between : c.protocol.phase.inStep = false)
    (compatible : record.checkCompatible c.name c.count = .ok ()) :
    (restore record : Work shape α Unit).on c =
      .tell (.restored c.name c.count) (.done (.ok (), { c with
        structures := List.zipWith (·.withVelocity ·) c.structures record.velocities })) := by
  rw [restore, on_get_bind, if_neg (by simp [between]), compatible]
  rfl

theorem velocities_zipWith (structures : List (RigidStructure shape α))
    (velocities : List (RigidVelocity α)) (same : structures.length = velocities.length) :
    (List.zipWith (·.withVelocity ·) structures velocities).map (·.velocity) =
      velocities.map .uniform := by
  induction structures generalizing velocities with
  | nil =>
      rw [List.eq_nil_of_length_eq_zero same.symm]
      rfl
  | cons body structures ih =>
      rcases velocities with _ | ⟨velocity, velocities⟩
      · cases same
      · rw [List.zipWith_cons_cons, List.map_cons, ih velocities (Nat.succ.inj same)]
        rfl

/--
Taking back a record gives the current velocities of a coordinator to the structures of another,
at all three times.
-/
def HandsOver (c : Coordinator shape Float) (record : RestartRecord Float) : Prop :=
  ∀ {otherShape : Shape} (other : Coordinator otherShape Float),
    other.protocol.phase.inStep = false → other.name = c.name → other.count = c.count →
      ∃ after, (restore record).on other =
          .tell (.restored other.name other.count) (.done (.ok (), after)) ∧
        after.structures.map (·.velocity) =
          c.structures.map fun body => .uniform body.velocity.current

/-- A text, or its bytes, from which the velocities of a coordinator can be taken back. -/
def RestartsFrom (c : Coordinator shape Float) (text : String) : Prop :=
  ∃ record, RestartRecord.read (Symbol.ofString text) = .ok record ∧
    RestartRecord.read (Symbol.ofBytes text.toUTF8) = .ok record ∧ c.HandsOver record

/-- The record of a coordinator hands its velocities over. -/
theorem handsOver_restartRecord (c : Coordinator shape Float) : c.HandsOver c.restartRecord := by
  intro otherShape other between name count
  have length : c.restartRecord.velocities.length = other.count := by
    rw [restartRecord, RestartRecord.current, List.length_map]
    exact count.symm
  have named : c.restartRecord.objectName = other.name :=
    name.symm
  have compatible : c.restartRecord.checkCompatible other.name other.count = .ok () := by
    rw [RestartRecord.checkCompatible, if_neg (not_not.mpr named),
      if_neg (not_not.mpr length)]
    rfl
  refine ⟨_, on_restore between compatible, ?_⟩
  rw [velocities_zipWith other.structures _ length.symm, restartRecord, RestartRecord.current,
    List.map_map]
  rfl

/-- The current rigid velocities are finite. -/
def HasFiniteVelocities (c : Coordinator shape Float) : Prop :=
  ∀ body ∈ c.structures, body.velocity.current.IsFinite

instance (c : Coordinator shape Float) : Decidable c.HasFiniteVelocities :=
  inferInstanceAs (Decidable (∀ body ∈ c.structures, body.velocity.current.IsFinite))

theorem isFinite_restartRecord (c : Coordinator shape Float) :
    c.restartRecord.IsFinite ↔ c.HasFiniteVelocities := by
  rw [RestartRecord.IsFinite, HasFiniteVelocities, restartRecord, RestartRecord.current]
  exact List.forall_mem_map

/-- What is written for a coordinator with a velocity that is not finite cannot be read. -/
theorem read_restartRecord (c : Coordinator shape Float) :
    ∃ details, RestartRecord.read (Symbol.ofString c.restartRecord.text.indented) =
      if c.HasFiniteVelocities then .ok c.restartRecord else .error (.malformed details) := by
  have version : c.restartRecord.version < 0x100000000 :=
    show RestartRecord.currentVersion < 0x100000000 by decide
  rcases RestartRecord.read_indented version with ⟨details, found⟩
  refine ⟨details, ?_⟩
  rw [found]
  simp only [isFinite_restartRecord]
  rfl

/-! ## A velocity that is not finite -/

/-- A unit square that moves freely. -/
def unitSquare : StructureDescription .quadrilateral Float where
  mesh := .grid ⟨1, 1, 1, 1, 1⟩ ⟨0, 1, 0⟩ .quadrilateral
  motion := .free
  nodalVelocity := .rigid .two
  initialVelocity := ⟨⟨0, 0, 0⟩, ⟨0, 0, 0⟩⟩

/-- The coordinator of the square. -/
def ofUnitSquare : Coordinator .quadrilateral Float :=
  (register (.named "m") [unitSquare] Seat.alone).alone.toOption.get (by decide +kernel)

/-- A rigid velocity that is not finite. -/
def rush : RigidVelocity Float :=
  ⟨⟨1 / 0, 0, 0⟩, ⟨0, 0, 0⟩⟩

/-- The coordinator after the square has been given that velocity. -/
def racing : Coordinator .quadrilateral Float :=
  ((setVelocity 0 rush).on ofUnitSquare).alone.2

/-! ## The main result -/

/--
What is written for a coordinator can be restored exactly if its current velocities are finite.
-/
theorem restarts_iff (c : Coordinator shape Float) :
    (∀ sink : RestartRecord.Sink, sink.Takes c.restartRecord.text.indented →
      c.restartRecord.write sink = .ok c.restartRecord.text.indented) ∧
    (c.RestartsFrom c.restartRecord.text.indented ↔ c.HasFiniteVelocities) ∧
    (¬ c.HasFiniteVelocities →
      ∃ details, RestartRecord.read (Symbol.ofString c.restartRecord.text.indented) =
          .error (.malformed details) ∧
        RestartRecord.read (Symbol.ofBytes c.restartRecord.text.indented.toUTF8) =
          .error (.malformed details)) := by
  rcases read_restartRecord c with ⟨details, read⟩
  refine ⟨fun _ takes => RestartRecord.write_iff.mpr ⟨rfl, takes⟩, ⟨?_, ?_⟩, ?_⟩
  · rintro ⟨record, found, -⟩
    by_contra infinite
    rw [if_neg infinite, found] at read
    cases read
  · intro finite
    rw [if_pos finite] at read
    refine ⟨c.restartRecord, read, ?_, handsOver_restartRecord c⟩
    rw [Symbol.ofBytes_toUTF8, read]
  · intro infinite
    rw [Symbol.ofBytes_toUTF8, read, if_neg infinite]
    exact ⟨details, rfl, rfl⟩

/-- An infinite velocity is accepted, but the method cannot be restarted from what it writes. -/
theorem racing_not_restartsFrom :
    (register (.named "m") [unitSquare] Seat.alone).alone = .ok ofUnitSquare ∧
      ((setVelocity 0 rush).on ofUnitSquare).alone = (.ok (), racing) ∧
      racing.protocol.phase.inStep = false ∧
      ¬ racing.RestartsFrom racing.restartRecord.text.indented := by
  have accepted : ((setVelocity 0 rush).on ofUnitSquare).alone.1 = .ok () :=
    eq_ok_get (by decide +kernel)
  have infinite : ¬ racing.HasFiniteVelocities := by
    decide +kernel
  refine ⟨eq_ok_get _, Prod.ext accepted rfl, by decide +kernel, ?_⟩
  rintro ⟨record, found, -⟩
  rcases read_restartRecord racing with ⟨details, refused⟩
  rw [refused, if_neg infinite] at found
  cases found

end ImmersedBody.Coordinator
