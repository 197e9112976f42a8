import Mathlib.Algebra.Ring.Int.Defs
import ImmersedBody.Proofs.Field.Commands
import ImmersedBody.Proofs.Field.Exchange
import ImmersedBody.Proofs.Mesh.Completeness
import ImmersedBody.Proofs.Ranks.Sums

/-!
# Coherence of shared fields

Each rank of a cluster holds its part of fields that all ranks share, and all ranks
carry out the same commands on them.  Every part mirrors the same sheet, whatever the
commands are and in whatever order the ranks take turns.

So a ghost that can be read has the value that its owner stores, a write makes
ghosts unreadable until they are refreshed, and the whole field can be gathered on
every rank: `FieldCommand.ghosts_coherent`.
-/

namespace ImmersedBody

variable {α : Type} {shape : Shape} {p : Nat}

/-! ## Layouts of all ranks -/

/-- The layouts with which the ranks share fields. -/
structure SharedLayouts (length : Nat) (layouts : Fin p → FieldLayout) : Prop where
  globalLength : ∀ rank, (layouts rank).globalLength = length
  owner : ∀ entry < length, ∃ rank, (layouts rank).Owns entry ∧
    ∀ other, (layouts other).Owns entry → other = rank
  /-- A rank that owns nothing has no ghosts. -/
  owns : ∀ rank, ∀ ghost ∈ (layouts rank).ghosts, ∃ entry, (layouts rank).Owns entry

namespace SharedLayouts

variable {length : Nat} {layouts : Fin p → FieldLayout}

/-- The only rank has no ghosts. -/
theorem not_mem_ghosts (shared : SharedLayouts length layouts) (single : p = 1) (rank : Fin p)
    {entry : Nat} : entry ∉ (layouts rank).ghosts := by
  intro ghost
  rcases Array.mem_iff_getElem.mp ghost with ⟨j, inside, rfl⟩
  have below := (layouts rank).ghost_lt j inside
  rw [shared.globalLength] at below
  rcases shared.owner _ below with ⟨owner, owns, -⟩
  have same : owner = rank := by
    subst single
    exact Subsingleton.elim owner rank
  rw [same] at owns
  exact (layouts rank).ghost_not_owned j inside owns

end SharedLayouts

/-- The layouts of the partitions of a mesh are shared. -/
theorem Partition.sharedLayouts {mesh : Mesh shape α} {blockSize : Nat} (someone : 0 < p)
    {layouts : Fin p → FieldLayout}
    (made : ∀ rank, (ofMesh mesh (.of rank)).layout blockSize = .ok (layouts rank)) :
    SharedLayouts (mesh.vertices.size * blockSize) layouts := by
  have laidOut := fun rank => laidOut_of_layout (made rank)
  refine {
    globalLength := fun rank => (laidOut rank).globalLength
    owner := fun entry inside => exists_owner someone laidOut inside
    owns := ?_ }
  intro rank ghost member
  rw [(laidOut rank).ghosts, List.mem_toArray, List.mem_flatMap] at member
  rcases member with ⟨node, ghostNode, -⟩
  rcases ((ghostClosed_ofMesh mesh (.of rank)).mem_iff node).mp ghostNode with
    ⟨-, number, inCells, inside, -⟩
  -- the rank owns the lowest vertex of its cell
  rcases mem_cells.mp inCells with ⟨_, lowest⟩
  exact ⟨_, ((laidOut rank).owns_iff (laidOut rank).positive).mpr lowest⟩

/-! ## Collective work of all ranks -/

section

variable [Zero α] [Add α] {β γ : Type}

/-- The ranks end in lockstep with values that belong together, and none of them stops. -/
def Collective.Concurs (works : Fin p → Collective α β) (post : (Fin p → β) → Prop) : Prop :=
  Lockstep
    (fun outcomes => ∃ values : Fin p → β, outcomes = (fun rank => .ok (values rank)) ∧
      post values)
    fun rank => Task.quiet (works rank).run

namespace Collective

variable {works : Fin p → Collective α β} {post : (Fin p → β) → Prop}

theorem concurs_pure {values : Fin p → β} (good : post values) :
    Concurs (fun rank => (pure (values rank) : Collective α β)) post :=
  .done ⟨values, rfl, good⟩

theorem concurs_bind {f : Fin p → β → Collective α γ} {post' : (Fin p → γ) → Prop}
    (first : Concurs works post)
    (later : ∀ values, post values → Concurs (fun rank => f rank (values rank)) post') :
    Concurs (fun rank => works rank >>= f rank) post' := by
  show Lockstep _ fun rank => Task.quiet (Task.bind (works rank).run (ExceptT.bindCont (f rank)))
  simp only [Task.quiet_bind]
  apply Lockstep.bind first
  rintro outcomes ⟨values, rfl, good⟩
  exact later values good

theorem Concurs.imp {post' : (Fin p → β) → Prop} (concurs : Concurs works post)
    (weaker : ∀ values, post values → post' values) : Concurs works post' := by
  apply Lockstep.imp concurs
  rintro outcomes ⟨values, rfl, good⟩
  exact ⟨values, rfl, weaker values good⟩

end Collective

/-! ## Gathering -/

/-- Adding zero changes nothing. -/
structure NeutralZero (α : Type) [Zero α] [Add α] : Prop where
  zero_add : ∀ a : α, 0 + a = a
  add_zero : ∀ a : α, a + 0 = a

variable {length : Nat} {layouts : Fin p → FieldLayout} {sheet : Sheet α}
  {fields : Fin p → NodalField α}

/-- The sum of what the ranks contribute is what stands on the sheet. -/
theorem Totals.toArray_eq (neutral : NeutralZero α) (shared : SharedLayouts length layouts)
    (someone : 0 < p) (mirrors : ∀ rank, (fields rank).Mirrors (layouts rank) sheet)
    {values : Fin p → Vector α length} {total : Vector α length}
    (contributed : ∀ rank entry (inside : entry < length),
      ((fields rank).layout.Owns entry → (fields rank).get entry = .ok (values rank)[entry]) ∧
        (¬ (fields rank).layout.Owns entry → (values rank)[entry] = 0))
    (totals : Totals values total) : total.toArray = sheet.values := by
  have size_eq : sheet.values.size = length :=
    (mirrors ⟨0, someone⟩).size_eq.trans (shared.globalLength ⟨0, someone⟩)
  apply Array.ext
  · rw [Vector.size_toArray, size_eq]
  · intro entry inTotal onSheet
    have inside : entry < length := size_eq ▸ onSheet
    rcases shared.owner entry inside with ⟨owner, owns, unique⟩
    have alone : total[entry] = (values owner)[entry] := by
      apply totals.eq_of_only neutral.zero_add neutral.add_zero inside
      intro other different
      apply (contributed other entry inside).2
      rw [(mirrors other).layout_eq]
      exact fun ownsToo => different (unique other ownsToo)
    rcases (mirrors owner).owned entry owns with ⟨value, found, stands⟩
    rw [← (mirrors owner).layout_eq] at owns
    rw [(contributed owner entry inside).1 owns, Except.ok.injEq] at found
    rw [Array.getElem?_eq_getElem onSheet, Option.some.injEq] at stands
    calc total.toArray[entry] = total[entry] := rfl
      _ = sheet.values[entry] := by rw [alone, found, stands]

namespace NodalField

/-- All ranks gather what stands on the sheet. -/
theorem concurs_gather (neutral : NeutralZero α) (shared : SharedLayouts length layouts)
    (someone : 0 < p) (mirrors : ∀ rank, (fields rank).Mirrors (layouts rank) sheet)
    (answer : Fin p → Array α → β) :
    Collective.Concurs
      (fun rank => (fields rank).gather >>= fun whole => pure (answer rank whole.toArray))
      fun answers => ∀ rank, answers rank = answer rank sheet.values := by
  have length_eq : ∀ rank, (fields rank).layout.globalLength = length := by
    intro rank
    rw [(mirrors rank).layout_eq, shared.globalLength]
  choose values next issued contributed finished using
    fun rank => exists_gather (length_eq rank) (answer rank)
  rw [Collective.Concurs, funext issued]
  refine .reduce fun total totals => ?_
  have total_eq := totals.toArray_eq neutral shared someone mirrors contributed
  simp only [finished]
  exact .done ⟨_, rfl, fun rank => by rw [total_eq]⟩

/-- Closing brings the ghosts of all ranks up to date. -/
theorem concurs_close (neutral : NeutralZero α) (shared : SharedLayouts length layouts)
    (someone : 0 < p) (mirrors : ∀ rank, (fields rank).Mirrors (layouts rank) sheet) :
    Collective.Concurs (fun rank => (fields rank).close (.of rank)) fun afters =>
      ∀ rank, (afters rank).Mirrors (layouts rank) ⟨sheet.values, true⟩ := by
  have length_eq : ∀ rank, (fields rank).layout.globalLength = length := by
    intro rank
    rw [(mirrors rank).layout_eq, shared.globalLength]
  by_cases single : p = 1
  · have closed : ∀ rank : Fin p, (fields rank).close (.of rank) =
        pure { fields rank with synchronized := true } := by
      intro rank
      rw [close, if_pos (show (Seat.of rank).size = 1 from single)]
    simp only [closed]
    refine Collective.concurs_pure fun rank => ?_
    apply mirrors_of_get
    · exact (mirrors rank).layout_eq
    · exact (mirrors rank).size_eq
    · rfl
    · intro entry value found
      rcases owns_or_mem_of_get found with owns | ⟨-, -, j, inside, rfl, -⟩
      · have own : (fields rank).layout.Owns entry := owns
        rw [get_synchronized own] at found
        exact (mirrors rank).stands own found
      · have ghost : (fields rank).layout.ghosts[j] ∈ (layouts rank).ghosts := by
          rw [← (mirrors rank).layout_eq]
          exact Array.getElem_mem inside
        exact absurd ghost (shared.not_mem_ghosts single rank)
  · choose values next afters issued contributed finished using fun rank : Fin p =>
      exists_refresh (show (Seat.of rank).size ≠ 1 from single) (length_eq rank)
    rw [Collective.Concurs, funext issued]
    refine .reduce fun total totals => ?_
    have total_eq := totals.toArray_eq neutral shared someone mirrors contributed
    simp only [fun rank => (finished rank total).1]
    refine .done ⟨_, rfl, fun rank => ?_⟩
    rcases finished rank total with ⟨-, same, fresh, kept, copied⟩
    apply mirrors_of_get
    · exact same.trans (mirrors rank).layout_eq
    · exact (mirrors rank).size_eq
    · exact fresh
    · intro entry value found
      by_cases owns : (fields rank).layout.Owns entry
      · rw [kept entry owns] at found
        exact (mirrors rank).stands owns found
      · rw [← total_eq, Vector.getElem?_toArray]
        exact copied entry value found owns

end NodalField

/-! ## Commands -/

namespace FieldCommand

variable [Mul α]

omit [Zero α] [Add α] [Mul α] in
/-- Where a command sets entries one after the other, it sets those that a rank owns. -/
def SetsWhole (layouts : Fin p → FieldLayout) : FieldCommand α → Prop
  | set _ order _ => ∀ rank : Fin p, ∀ entry, entry ∈ order rank ↔ (layouts rank).Owns entry
  | _ => True

/-- Every rank does for a command what the command means. -/
theorem concurs_serve (neutral : NeutralZero α) (shared : SharedLayouts length layouts)
    (someone : 0 < p) {command : FieldCommand α} (whole : command.SetsWhole layouts)
    {sheets : Nat → Option (Sheet α)} {fields : Fin p → Nat → Option (NodalField α)}
    (mirrors : ∀ rank, MirrorsAll (layouts rank) sheets (fields rank)) :
    Collective.Concurs (fun rank => command.serve (layouts rank) (.of rank) (fields rank))
      fun results => ∀ rank, (results rank).1 = (command.meaning length sheets).1 ∧
        MirrorsAll (layouts rank) (command.meaning length sheets).2 (results rank).2 := by
  have length_eq := shared.globalLength
  cases command with
  | ofGlobal number values =>
      by_cases fits : values.size = length
      · have made : ∀ rank, ∃ field, NodalField.ofGlobal (layouts rank) values = .ok field ∧
            field.Mirrors (layouts rank) ⟨values, true⟩ :=
          fun rank => NodalField.exists_mirrors_ofGlobal (fits.trans (length_eq rank).symm)
        choose created creates shows using made
        simp only [serve, creates, meaning, if_pos fits]
        exact Collective.concurs_pure fun rank => ⟨rfl, (mirrors rank).update number (shows rank)⟩
      · have refused : ∀ rank, NodalField.ofGlobal (layouts rank) values =
            .error (.lengthMismatch length values.size) := by
          intro rank
          rw [NodalField.ofGlobal, dif_neg (by rw [length_eq]; exact fits), length_eq]
        simp only [serve, refused, meaning, if_neg fits]
        exact Collective.concurs_pure fun rank => ⟨rfl, mirrors rank⟩
  | zeros number =>
      refine Collective.concurs_pure fun rank => ⟨rfl, (mirrors rank).update number ?_⟩
      rw [← length_eq rank]
      exact NodalField.mirrors_constant (layouts rank) 0
  | clear number =>
      refine Collective.concurs_pure fun rank => ⟨rfl, (mirrors rank).change number ?_⟩
      intro sheet field mirrored
      rw [← length_eq rank]
      exact mirrored.cleared
  | scale number factor =>
      refine Collective.concurs_pure fun rank => ⟨rfl, (mirrors rank).change number ?_⟩
      intro sheet field mirrored
      exact mirrored.scale factor
  | copy target source =>
      cases copied : sheets source with
      | none =>
          have absent := fun rank => (mirrors rank).absent source copied
          have served : ∀ rank, (copy target source).serve (layouts rank) (.of rank)
              (fields rank) = pure (.ok none, fields rank) := by
            intro rank
            simp only [serve, absent]
            cases fields rank target <;> rfl
          simp only [served, meaning, copied]
          exact Collective.concurs_pure fun rank => ⟨rfl, mirrors rank⟩
      | some other =>
          choose others present shows using
            fun rank => (mirrors rank).present source other copied
          have served : ∀ rank, (copy target source).serve (layouts rank) (.of rank)
              (fields rank) =
                pure (.ok none, changeAt target (fun _ => others rank) (fields rank)) := by
            intro rank
            cases found : sheets target with
            | none =>
                have absent := (mirrors rank).absent target found
                simp only [serve, absent, changeAt_of_none]
            | some sheet =>
                rcases (mirrors rank).present target sheet found with ⟨field, here, mirrored⟩
                simp only [serve, here, present, mirrored.copyFrom (shows rank),
                  changeAt_of_some _ here]
          simp only [served, meaning, copied]
          exact Collective.concurs_pure fun rank =>
            ⟨rfl, (mirrors rank).change target fun _ _ _ => shows rank⟩
  | close number =>
      cases found : sheets number with
      | none =>
          have absent := fun rank => (mirrors rank).absent number found
          simp only [serve, absent, meaning, changeAt_of_none _ found]
          exact Collective.concurs_pure fun rank => ⟨rfl, mirrors rank⟩
      | some sheet =>
          choose others present shows using
            fun rank => (mirrors rank).present number sheet found
          simp only [serve, present, meaning, changeAt_of_some _ found]
          apply Collective.concurs_bind
            (NodalField.concurs_close neutral shared someone shows)
          intro afters fresh
          exact Collective.concurs_pure fun rank =>
            ⟨rfl, (mirrors rank).update number (fresh rank)⟩
  | localize number =>
      cases found : sheets number with
      | none =>
          have absent := fun rank => (mirrors rank).absent number found
          simp only [serve, absent, meaning, found]
          exact Collective.concurs_pure fun rank => ⟨rfl, mirrors rank⟩
      | some sheet =>
          choose others present shows using
            fun rank => (mirrors rank).present number sheet found
          simp only [serve, present, meaning, found]
          let answer (rank : Fin p) (whole : Array α) :
              FieldAnswer α × (Nat → Option (NodalField α)) :=
            (.ok (some whole), fields rank)
          apply (NodalField.concurs_gather neutral shared someone shows answer).imp
          intro results gathered rank
          rw [gathered rank]
          exact ⟨rfl, mirrors rank⟩
  | write number values =>
      refine Collective.concurs_pure fun rank => ⟨rfl, (mirrors rank).change number ?_⟩
      intro sheet field mirrored
      rw [← length_eq rank]
      exact mirrored.fill values
  | set number order values =>
      cases found : sheets number with
      | none =>
          have absent := fun rank => (mirrors rank).absent number found
          simp only [serve, absent, meaning, changeAt_of_none _ found]
          exact Collective.concurs_pure fun rank => ⟨rfl, mirrors rank⟩
      | some sheet =>
          choose others present shows using
            fun rank => (mirrors rank).present number sheet found
          choose afters written mirrored using fun rank =>
            (shows rank).exists_setEach values (whole rank) (shared.owns rank)
          have served : ∀ rank : Fin p, (set number order values).serve (layouts rank) (.of rank)
              (fields rank) = pure (.ok none, Function.update (fields rank) number
                (some (afters rank))) := by
            intro rank
            simp only [serve, present, Seat.of, written]
            rfl
          simp only [served, meaning, changeAt_of_some _ found]
          refine Collective.concurs_pure fun rank => ⟨rfl, (mirrors rank).update number ?_⟩
          rw [← length_eq rank]
          exact mirrored rank

/-- All ranks go through the commands, and their fields go on mirroring the sheets. -/
theorem concurs_run (neutral : NeutralZero α) (shared : SharedLayouts length layouts)
    (someone : 0 < p) (commands : List (FieldCommand α))
    (whole : ∀ command ∈ commands, command.SetsWhole layouts)
    {sheets : Nat → Option (Sheet α)} {fields : Fin p → Nat → Option (NodalField α)}
    (mirrors : ∀ rank, MirrorsAll (layouts rank) sheets (fields rank)) :
    Collective.Concurs (fun rank => run (layouts rank) (.of rank) commands (fields rank))
      fun results => ∀ rank, (results rank).1 = (meanings length commands sheets).1 ∧
        MirrorsAll (layouts rank) (meanings length commands sheets).2 (results rank).2 := by
  induction commands generalizing sheets fields with
  | nil =>
      exact Collective.concurs_pure fun rank => ⟨rfl, mirrors rank⟩
  | cons command commands ih =>
      apply Collective.concurs_bind
        (concurs_serve neutral shared someone (whole command List.mem_cons_self) mirrors)
      intro served step
      apply Collective.concurs_bind
        (ih (fun later member => whole later (List.mem_cons_of_mem command member))
          fun rank => (step rank).2)
      intro results rest
      refine Collective.concurs_pure fun rank => ?_
      rw [(step rank).1, (rest rank).1]
      exact ⟨rfl, (rest rank).2⟩

/-- What a rank does with fields on a mesh, beginning with its layout. -/
def session (mesh : Mesh shape α) (blockSize : Nat) (commands : List (FieldCommand α))
    (seat : Seat) : Collective α (List (FieldAnswer α) × (Nat → Option (NodalField α))) := do
  let layout ← ExceptT.mk (pure (((Partition.ofMesh mesh seat).layout blockSize).mapError .fault))
  run layout seat commands fun _ => none

end FieldCommand

omit [Zero α] [Add α] in
/--
What the ranks have after some commands is coherent.  The end of the commands stands for any moment
of a longer run.
-/
structure CoherentFields (layouts : Fin p → FieldLayout) (commands : List (FieldCommand α))
    (answers : List (FieldAnswer α)) (fields : Fin p → Nat → Option (NodalField α)) : Prop where
  /-- What any rank reads is what the owner stores. -/
  current : ∀ number rank field, fields rank number = some field →
    ∀ entry value, field.get entry = .ok value → ∀ owner, (layouts owner).Owns entry →
      ∃ stored, fields owner number = some stored ∧ stored.get entry = .ok value
  /-- A write makes ghosts unreadable until the field is closed, zeroed or copied into. -/
  stale : ∀ before write after number, commands = before ++ write :: after →
    write.Writes number → (∀ later ∈ after, ¬ later.MayTurn true number) →
      ∀ rank field, fields rank number = some field → ∀ entry ∈ (layouts rank).ghosts,
        field.get entry = .error (.unsynchronized entry)
  /-- Everything can be read after a field was closed, until it is written or copied into. -/
  readable : ∀ before after number, commands = before ++ .close number :: after →
    (∀ later ∈ after, ¬ later.MayTurn false number) →
      ∀ rank field, fields rank number = some field →
        ∀ entry, (layouts rank).Owns entry ∨ entry ∈ (layouts rank).ghosts →
          ∃ value, field.get entry = .ok value
  /-- Every rank localizes what the owners store. -/
  localized : ∀ before number, commands = before ++ [.localize number] →
    ∀ rank field, fields rank number = some field →
      ∃ whole, answers.getLast? = some (.ok (some whole)) ∧
        whole.size = (layouts rank).globalLength ∧
        ∀ owner entry, (layouts owner).Owns entry →
          ∃ stored value, fields owner number = some stored ∧ stored.get entry = .ok value ∧
            whole[entry]? = some value

omit [Add α] in
/-- Fields that mirror sheets are coherent. -/
theorem MirrorsAll.coherent [Mul α] {commands : List (FieldCommand α)}
    {fields : Fin p → Nat → Option (NodalField α)}
    (mirrors : ∀ rank, MirrorsAll (layouts rank)
      (FieldCommand.meanings length commands fun _ => none).2 (fields rank)) :
    CoherentFields layouts commands (FieldCommand.meanings length commands fun _ => none).1
      fields := by
  constructor
  · intro number rank field found entry value read owner owns
    rcases (mirrors rank).exists_sheet found with ⟨sheet, described, mirrored⟩
    rcases (mirrors owner).present number sheet described with ⟨stored, present, mirroredThere⟩
    rcases mirroredThere.owned entry owns with ⟨own, ownRead, stands⟩
    rw [mirrored.stands_of_get read, Option.some.injEq] at stands
    rw [stands]
    exact ⟨stored, present, ownRead⟩
  · intro before write after number split writes kept rank field found entry ghost
    rcases (mirrors rank).exists_sheet found with ⟨sheet, described, mirrored⟩
    rw [split, FieldCommand.meanings_append] at described
    have stale := FieldCommand.flagged_meanings after (FieldCommand.flagged_of_writes writes) kept
      sheet described
    exact mirrored.stale stale entry ghost
  · intro before after number split kept rank field found entry reached
    rcases (mirrors rank).exists_sheet found with ⟨sheet, described, mirrored⟩
    rw [split, FieldCommand.meanings_append] at described
    have fresh := FieldCommand.flagged_meanings after FieldCommand.flagged_of_close kept
      sheet described
    rcases reached with owns | ghost
    · rcases mirrored.owned entry owns with ⟨value, read, -⟩
      exact ⟨value, read⟩
    · rcases mirrored.copied fresh entry ghost with ⟨value, read, -⟩
      exact ⟨value, read⟩
  · intro before number split rank field found
    rcases (mirrors rank).exists_sheet found with ⟨sheet, described, mirrored⟩
    refine ⟨sheet.values, ?_, mirrored.size_eq, ?_⟩
    · have unchanged := described
      rw [split, FieldCommand.meanings_append] at unchanged ⊢
      -- asking for the field leaves the sheets as they are
      have asked : (FieldCommand.meanings length before fun _ => none).2 number = some sheet :=
        unchanged
      simp only [FieldCommand.meanings, FieldCommand.meaning, asked, Option.map_some,
        List.getLast?_concat]
    · intro owner entry owns
      rcases (mirrors owner).present number sheet described with ⟨stored, present, mirroredThere⟩
      rcases mirroredThere.owned entry owns with ⟨value, read, stands⟩
      exact ⟨stored, value, present, read, stands⟩

namespace FieldCommand

/--
All ranks carry out the same commands on fields with the layouts of their partitions.  Whatever the
commands are and in whatever order the ranks take turns, no collective fails, and the ranks end with
coherent fields.
-/
theorem ghosts_coherent [Mul α] (zero_add : ∀ a : α, 0 + a = a) (add_zero : ∀ a : α, a + 0 = a)
    (someone : 0 < p) (mesh : Mesh shape α) {blockSize : Nat} (positive : 0 < blockSize) :
    ∃ layouts : Fin p → FieldLayout,
      (∀ rank, (Partition.ofMesh mesh (.of rank)).layout blockSize = .ok (layouts rank)) ∧
      (∀ entry < mesh.vertices.size * blockSize, ∃! owner, (layouts owner).Owns entry) ∧
      ∀ commands : List (FieldCommand α), (∀ command ∈ commands, command.SetsWhole layouts) →
        ∀ (fails : Except (Stop α) (List (FieldAnswer α) × (Nat → Option (NodalField α))) → Bool)
          (schedule : List Nat),
          Cluster.InStep
            (fun outcomes : Fin p → Except (Stop α) _ => ∃ answers fields,
              outcomes = (fun rank => .ok (answers, fields rank)) ∧
                CoherentFields layouts commands answers fields)
            (Cluster.history fails p (fun seat => (session mesh blockSize commands seat).run)
              schedule).1
            (Cluster.history fails p (fun seat => (session mesh blockSize commands seat).run)
              schedule).2 := by
  choose layouts made _ using
    fun rank : Fin p => Partition.exists_layout mesh (.of rank) positive
  have shared := Partition.sharedLayouts someone made
  refine ⟨layouts, made, shared.owner, ?_⟩
  intro commands whole fails schedule
  have empty : ∀ rank, MirrorsAll (layouts rank) (fun _ => none : Nat → Option (Sheet α))
      fun _ => none :=
    fun rank => ⟨fun _ _ => rfl, nofun⟩
  have begins : (fun rank : Fin p => session mesh blockSize commands (.of rank)) =
      fun rank => run (layouts rank) (.of rank) commands fun _ => none := by
    funext rank
    rw [session, made]
    rfl
  have concurs := concurs_run ⟨zero_add, add_zero⟩ shared someone commands whole empty
  rw [← begins] at concurs
  apply Cluster.inStep_history someone
  apply Lockstep.imp concurs
  rintro outcomes ⟨results, rfl, mirrors⟩
  refine ⟨_, fun rank => (results rank).2, ?_, MirrorsAll.coherent fun rank => (mirrors rank).2⟩
  funext rank
  rw [← (mirrors rank).1]

/-- Two ranks share four nodes; each sets its two nodes in descending order. -/
theorem twoTriangles_coherent :
    (∀ a : Int, 0 + a = a) ∧ (∀ a : Int, a + 0 = a) ∧ 0 < 2 ∧ 0 < 1 ∧
      ∃ layouts : Fin 2 → FieldLayout,
        (∀ rank, (Partition.ofMesh Partition.twoTriangles (.of rank)).layout 1 =
          .ok (layouts rank)) ∧
        let commands : List (FieldCommand Int) :=
          [.ofGlobal 0 #[5, 6, 7, 8], .zeros 1, .copy 1 0,
            .set 0 (fun rank => [2 * rank + 1, 2 * rank]) fun entry => entry * entry,
            .localize 0, .close 0]
        (∀ command ∈ commands, command.SetsWhole layouts) ∧
          ∀ schedule : List Nat,
            Cluster.InStep
              (fun outcomes : Fin 2 → Except (Stop Int) _ => ∃ answers fields,
                outcomes = (fun rank => .ok (answers, fields rank)) ∧
                  CoherentFields layouts commands answers fields)
              (Cluster.history (fun _ => false) 2
                (fun seat => (session Partition.twoTriangles 1 commands seat).run) schedule).1
              (Cluster.history (fun _ => false) 2
                (fun seat => (session Partition.twoTriangles 1 commands seat).run) schedule).2 := by
  refine ⟨Int.zero_add, Int.add_zero, by decide, by decide, ?_⟩
  rcases ghosts_coherent Int.zero_add Int.add_zero (show 0 < 2 by decide) Partition.twoTriangles
    (show 0 < 1 by decide) with ⟨layouts, made, -, coherent⟩
  refine ⟨layouts, made, ?_⟩
  intro commands
  have ordered : ∀ rank : Fin 2, ∀ entry, entry ∈ [2 * rank.val + 1, 2 * rank.val] ↔
      (layouts rank).Owns entry := by
    intro rank entry
    rw [FieldLayout.Owns, (Partition.laidOut_of_layout (made rank)).owned]
    simp [Partition.ofMesh, Seat.block, Seat.of, IndexRange.Contains, Partition.twoTriangles]
    omega
  have whole : ∀ command ∈ commands, command.SetsWhole layouts := by
    simp only [commands, List.forall_mem_cons]
    exact ⟨trivial, trivial, trivial, ordered, trivial, trivial, List.forall_mem_nil _⟩
  exact ⟨whole, coherent commands whole _⟩

end FieldCommand

end

end ImmersedBody
