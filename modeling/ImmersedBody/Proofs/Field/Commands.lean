import ImmersedBody.Field.Exchange
import ImmersedBody.Proofs.Field.Access
import Mathlib.Logic.Function.Basic

/-!
# Commands on shared fields

All ranks carry out the same commands on fields that they share.  A *sheet* describes
a shared field without ranks: the values of all entries, and whether ghosts are up to
date.  Commands have a meaning on sheets, too.

A field mirrors a sheet if it shows the rank what the sheet says about the entries
that the rank owns or has copies of.  Each operation on a field mirrors what the
command means on its sheet.
-/

namespace ImmersedBody

variable {α : Type}

/-- What all ranks do with the fields that they share, which have numbers. -/
inductive FieldCommand (α : Type) where
  /-- Makes a field with the given values of all entries. -/
  | ofGlobal (number : Nat) (values : Array α)
  | zeros (number : Nat)
  | clear (number : Nat)
  | scale (number : Nat) (factor : α)
  | copy (target source : Nat)
  | close (number : Nat)
  | localize (number : Nat)
  /-- Every rank writes the entries that it owns, all at once. -/
  | write (number : Nat) (values : Nat → α)
  /-- Every rank sets the entries that it owns one after the other, in an order of its own. -/
  | set (number : Nat) (order : Nat → List Nat) (values : Nat → α)

/-- What a command yields: the whole field if it was asked for. -/
abbrev FieldAnswer (α : Type) := Except FieldError (Option (Array α))

/-- Changes the item with a number, if there is one. -/
def changeAt {τ : Type} (number : Nat) (f : τ → τ) (items : Nat → Option τ) : Nat → Option τ :=
  Function.update items number ((items number).map f)

theorem changeAt_of_none {τ : Type} {items : Nat → Option τ} {number : Nat} (f : τ → τ)
    (absent : items number = none) : changeAt number f items = items := by
  rw [changeAt, absent]
  exact Function.update_eq_self_iff.mpr absent.symm

theorem changeAt_of_some {τ : Type} {items : Nat → Option τ} {number : Nat} {item : τ} (f : τ → τ)
    (present : items number = some item) :
    changeAt number f items = Function.update items number (some (f item)) := by
  rw [changeAt, present]
  rfl

/-- Sets entries one after the other.  The first that is not owned ends it. -/
def NodalField.setEach (values : Nat → α) :
    List Nat → NodalField α → Except FieldError Unit × NodalField α
  | [], field => (.ok (), field)
  | entry :: entries, field =>
    match field.set entry (values entry) with
    | .ok after => setEach values entries after
    | .error e => (.error e, field)

/-! ## Commands on the fields of a rank -/

namespace FieldCommand

variable [Zero α] [Mul α]

/-- What a rank does for a command.  A command for a field that was not made does nothing. -/
def serve (layout : FieldLayout) (seat : Seat) :
    FieldCommand α → (Nat → Option (NodalField α)) →
      Collective α (FieldAnswer α × (Nat → Option (NodalField α)))
  | ofGlobal number values, fields =>
    match NodalField.ofGlobal layout values with
    | .ok field => pure (.ok none, Function.update fields number (some field))
    | .error e => pure (.error e, fields)
  | zeros number, fields =>
    pure (.ok none, Function.update fields number (some (.zeros layout)))
  | clear number, fields => pure (.ok none, changeAt number .cleared fields)
  | scale number factor, fields => pure (.ok none, changeAt number (·.scale factor) fields)
  | copy target source, fields =>
    match fields target, fields source with
    | some field, some other =>
      match field.copyFrom other with
      | .ok after => pure (.ok none, Function.update fields target (some after))
      | .error e => pure (.error e, fields)
    | _, _ => pure (.ok none, fields)
  | close number, fields =>
    match fields number with
    | some field => do
      let after ← field.close seat
      return (.ok none, Function.update fields number (some after))
    | none => pure (.ok none, fields)
  | localize number, fields =>
    match fields number with
    | some field => do
      let whole ← field.gather
      return (.ok (some whole.toArray), fields)
    | none => pure (.ok none, fields)
  | write number values, fields => pure (.ok none, changeAt number (·.fill values) fields)
  | set number order values, fields =>
    match fields number with
    | some field =>
      match field.setEach values (order seat.rank) with
      | (outcome, after) =>
        pure (outcome.map fun _ => none, Function.update fields number (some after))
    | none => pure (.ok none, fields)

/-- Serves commands in order, with what they yield. -/
def run (layout : FieldLayout) (seat : Seat) :
    List (FieldCommand α) → (Nat → Option (NodalField α)) →
      Collective α (List (FieldAnswer α) × (Nat → Option (NodalField α)))
  | [], fields => pure ([], fields)
  | command :: commands, fields => do
    let (answer, fields) ← command.serve layout seat fields
    let (answers, fields) ← run layout seat commands fields
    return (answer :: answers, fields)

end FieldCommand

/-! ## Sheets -/

/-- A shared field without ranks. -/
structure Sheet (α : Type) where
  values : Array α
  /-- Whether ghosts are up to date. -/
  fresh : Bool

namespace FieldCommand

variable [Zero α] [Mul α]

/-- What a command means for fields with so many entries. -/
def meaning (length : Nat) :
    FieldCommand α → (Nat → Option (Sheet α)) → FieldAnswer α × (Nat → Option (Sheet α))
  | ofGlobal number values, sheets =>
    if values.size = length then (.ok none, Function.update sheets number (some ⟨values, true⟩))
    else (.error (.lengthMismatch length values.size), sheets)
  | zeros number, sheets =>
    (.ok none, Function.update sheets number (some ⟨.replicate length 0, true⟩))
  | clear number, sheets => (.ok none, changeAt number (fun _ => ⟨.replicate length 0, true⟩) sheets)
  | scale number factor, sheets =>
    (.ok none, changeAt number (fun sheet => ⟨sheet.values.map (· * factor), sheet.fresh⟩) sheets)
  | copy target source, sheets =>
    match sheets source with
    | some other => (.ok none, changeAt target (fun _ => other) sheets)
    | none => (.ok none, sheets)
  | close number, sheets => (.ok none, changeAt number (fun sheet => ⟨sheet.values, true⟩) sheets)
  | localize number, sheets => (.ok ((sheets number).map Sheet.values), sheets)
  | write number values, sheets | set number _ values, sheets =>
    (.ok none, changeAt number (fun _ => ⟨.ofFn fun i : Fin length => values i, false⟩) sheets)

/-- What commands mean in order, with what they yield. -/
def meanings (length : Nat) : List (FieldCommand α) → (Nat → Option (Sheet α)) →
    List (FieldAnswer α) × (Nat → Option (Sheet α))
  | [], sheets => ([], sheets)
  | command :: commands, sheets =>
    ((command.meaning length sheets).1 ::
        (meanings length commands (command.meaning length sheets).2).1,
      (meanings length commands (command.meaning length sheets).2).2)

end FieldCommand

/-! ## What commands do to a flag -/

/-- The ghosts of a field are up to date, or they are not. -/
def Flagged (fresh : Bool) (number : Nat) (sheets : Nat → Option (Sheet α)) : Prop :=
  ∀ sheet, sheets number = some sheet → sheet.fresh = fresh

theorem Flagged.update {fresh : Bool} {number other : Nat} {sheets : Nat → Option (Sheet α)}
    (flagged : Flagged fresh number sheets) {sheet : Sheet α}
    (here : other = number → sheet.fresh = fresh) :
    Flagged fresh number (Function.update sheets other (some sheet)) := by
  intro found present
  by_cases same : number = other
  · subst same
    rw [Function.update_self, Option.some.injEq] at present
    rw [← present]
    exact here rfl
  · rw [Function.update_of_ne same] at present
    exact flagged found present

theorem Flagged.change {fresh : Bool} {number other : Nat} {sheets : Nat → Option (Sheet α)}
    (flagged : Flagged fresh number sheets) {f : Sheet α → Sheet α}
    (here : other = number → ∀ sheet, sheet.fresh = fresh → (f sheet).fresh = fresh) :
    Flagged fresh number (changeAt other f sheets) := by
  cases found : sheets other with
  | none =>
      rw [changeAt_of_none f found]
      exact flagged
  | some sheet =>
      rw [changeAt_of_some f found]
      apply flagged.update
      rintro rfl
      exact here rfl sheet (flagged sheet found)

theorem flagged_changeAt {fresh : Bool} {number : Nat} {sheets : Nat → Option (Sheet α)}
    {f : Sheet α → Sheet α} (turns : ∀ sheet, (f sheet).fresh = fresh) :
    Flagged fresh number (changeAt number f sheets) := by
  intro sheet present
  rw [changeAt, Function.update_self, Option.map_eq_some_iff] at present
  rcases present with ⟨before, -, rfl⟩
  exact turns before

namespace FieldCommand

/-- The command writes a whole field. -/
def Writes (number : Nat) : FieldCommand α → Prop
  | write other _ | set other _ _ => other = number
  | _ => False

/-- The command may turn the flag of a field.  A copy takes over the flag of its source. -/
def MayTurn (fresh : Bool) (number : Nat) : FieldCommand α → Prop
  | ofGlobal other _ | zeros other | clear other | close other => fresh = true ∧ other = number
  | copy target _ => target = number
  | write other _ | set other _ _ => fresh = false ∧ other = number
  | scale _ _ | localize _ => False

variable [Zero α] [Mul α] {length number : Nat} {command : FieldCommand α}
  {sheets : Nat → Option (Sheet α)}

/-- A flag stays as it is as long as no command turns it. -/
theorem flagged_meaning {fresh : Bool} (flagged : Flagged fresh number sheets)
    (kept : ¬ command.MayTurn (!fresh) number) :
    Flagged fresh number (command.meaning length sheets).2 := by
  have turned : ∀ flag other, ¬ ((!fresh) = flag ∧ other = number) → other = number →
      flag = fresh := by
    intro flag other different same
    cases fresh <;> cases flag <;> simp_all
  cases command with
  | ofGlobal other values =>
      rw [meaning]
      split
      · exact flagged.update (turned true other kept)
      · exact flagged
  | zeros other =>
      exact flagged.update (turned true other kept)
  | clear other =>
      exact flagged.change fun same _ _ => turned true other kept same
  | scale other factor =>
      exact flagged.change fun _ _ flag => flag
  | copy target source =>
      rw [meaning]
      split
      · exact flagged.change fun same => absurd same kept
      · exact flagged
  | close other =>
      exact flagged.change fun same _ _ => turned true other kept same
  | localize other =>
      exact flagged
  | write other values | set other _ values =>
      exact flagged.change fun same _ _ => turned false other kept same

theorem flagged_meanings {fresh : Bool} (commands : List (FieldCommand α))
    (flagged : Flagged fresh number sheets)
    (kept : ∀ command ∈ commands, ¬ command.MayTurn (!fresh) number) :
    Flagged fresh number (meanings length commands sheets).2 := by
  induction commands generalizing sheets with
  | nil =>
      exact flagged
  | cons command commands ih =>
      apply ih
      · exact flagged_meaning flagged (kept command List.mem_cons_self)
      · exact fun later member => kept later (List.mem_cons_of_mem command member)

/-- A write leaves ghosts out of date. -/
theorem flagged_of_writes (writes : command.Writes number) :
    Flagged false number (command.meaning length sheets).2 := by
  cases command with
  | write other values | set other _ values =>
      rcases writes with rfl
      exact flagged_changeAt fun _ => rfl
  | ofGlobal | zeros | clear | scale | copy | close | localize =>
      cases writes

theorem flagged_of_close : Flagged true number ((close number).meaning length sheets).2 :=
  flagged_changeAt fun _ => rfl

theorem meanings_append (before after : List (FieldCommand α)) :
    meanings length (before ++ after) sheets =
      ((meanings length before sheets).1 ++
          (meanings length after (meanings length before sheets).2).1,
        (meanings length after (meanings length before sheets).2).2) := by
  induction before generalizing sheets with
  | nil =>
      rfl
  | cons command before ih =>
      simp only [List.cons_append, meanings, ih]

end FieldCommand

/-! ## What a rank sees of a sheet -/

/-- The rank reads the value of an entry that stands on a sheet. -/
def NodalField.Shows (field : NodalField α) (sheet : Sheet α) (entry : Nat) : Prop :=
  ∃ value, field.get entry = .ok value ∧ sheet.values[entry]? = some value

/-- A field shows a rank what is on a sheet, as far as its layout goes. -/
structure NodalField.Mirrors (layout : FieldLayout) (sheet : Sheet α) (field : NodalField α) :
    Prop where
  layout_eq : field.layout = layout
  size_eq : sheet.values.size = layout.globalLength
  owned : ∀ entry, layout.Owns entry → field.Shows sheet entry
  copied : sheet.fresh = true → ∀ entry ∈ layout.ghosts, field.Shows sheet entry
  stale : sheet.fresh = false → ∀ entry ∈ layout.ghosts,
    field.get entry = .error (.unsynchronized entry)

namespace NodalField

variable {layout : FieldLayout} {sheet : Sheet α} {field : NodalField α} {entry : Nat}

theorem not_owns_of_mem_ghosts (ghost : entry ∈ layout.ghosts) : ¬ layout.Owns entry := by
  rcases Array.mem_iff_getElem.mp ghost with ⟨j, inside, rfl⟩
  exact layout.ghost_not_owned j inside

/-- A ghost that is out of date cannot be read. -/
theorem get_of_stale (stale : field.synchronized = false) (ghost : entry ∈ field.layout.ghosts) :
    field.get entry = .error (.unsynchronized entry) := by
  rw [get, dif_neg (not_owns_of_mem_ghosts ghost)]
  split
  · rw [stale]
    rfl
  · next absent =>
      exact absurd ghost (Array.finIdxOf?_eq_none_iff.mp absent)

theorem lt_of_get {value : α} (found : field.get entry = .ok value) :
    entry < field.layout.globalLength := by
  rcases owns_or_mem_of_get found with owns | ⟨-, -, j, inside, rfl, -⟩
  · exact Nat.lt_of_lt_of_le owns.2 field.layout.stop_le
  · exact field.layout.ghost_lt j inside

/-- A field that is up to date mirrors a sheet if all that can be read stands there. -/
theorem mirrors_of_get {values : Array α} (layout_eq : field.layout = layout)
    (size_eq : values.size = layout.globalLength) (synchronized : field.synchronized = true)
    (stands : ∀ entry value, field.get entry = .ok value → values[entry]? = some value) :
    field.Mirrors layout ⟨values, true⟩ := by
  subst layout_eq
  refine { layout_eq := rfl, size_eq := size_eq, owned := ?_, copied := ?_, stale := nofun }
  · intro entry owns
    rcases get_of_owns owns with ⟨_, found⟩
    exact ⟨_, found, stands entry _ found⟩
  · intro _ entry ghost
    rcases exists_get_of_mem synchronized ghost with ⟨value, found⟩
    exact ⟨value, found, stands entry value found⟩

theorem mirrors_constant (layout : FieldLayout) (value : α) :
    (constant layout value).Mirrors layout ⟨.replicate layout.globalLength value, true⟩ := by
  apply mirrors_of_get
  · rfl
  · exact Array.size_replicate
  · rfl
  · intro entry found read
    have inside : entry < layout.globalLength := lt_of_get read
    have same : found = value := by
      rcases owns_or_mem_of_get read with owns | ⟨-, -, j, below, rfl, stored⟩
      · have own : layout.Owns entry := owns
        rw [get_constant own, Except.ok.injEq] at read
        exact read.symm
      · have bound : j < layout.ghosts.size := below
        simp only [constant, Array.getElem?_replicate, if_pos bound, Option.some.injEq] at stored
        exact stored.symm
    rw [same, Array.getElem?_replicate, if_pos inside]

theorem exists_mirrors_ofGlobal {values : Array α} (fits : values.size = layout.globalLength) :
    ∃ field, ofGlobal layout values = .ok field ∧ field.Mirrors layout ⟨values, true⟩ := by
  have made : ofGlobal layout values = .ok (ofFn layout fun i inside => values[i]) := by
    rw [ofGlobal, dif_pos fits]
  refine ⟨_, made, ?_⟩
  apply mirrors_of_get
  · rfl
  · exact fits
  · rfl
  · intro entry value found
    exact getElem?_of_get_ofGlobal made found

namespace Mirrors

theorem stands (mirrors : field.Mirrors layout sheet) {value : α}
    (owns : field.layout.Owns entry) (found : field.get entry = .ok value) :
    sheet.values[entry]? = some value := by
  rw [mirrors.layout_eq] at owns
  rcases mirrors.owned entry owns with ⟨stored, read, stands⟩
  rw [read, Except.ok.injEq] at found
  rw [stands, found]

/-- All that can be read stands on the sheet. -/
theorem stands_of_get (mirrors : field.Mirrors layout sheet) {value : α}
    (found : field.get entry = .ok value) : sheet.values[entry]? = some value := by
  rcases owns_or_mem_of_get found with owns | ⟨-, -, j, inside, rfl, -⟩
  · exact mirrors.stands owns found
  · have ghost : field.layout.ghosts[j] ∈ layout.ghosts := by
      rw [← mirrors.layout_eq]
      exact Array.getElem_mem inside
    cases flag : sheet.fresh with
    | false =>
        rw [mirrors.stale flag _ ghost] at found
        cases found
    | true =>
        rcases mirrors.copied flag _ ghost with ⟨stored, read, stands⟩
        rw [read, Except.ok.injEq] at found
        rw [stands, found]

theorem cleared [Zero α] (mirrors : field.Mirrors layout sheet) :
    field.cleared.Mirrors layout ⟨.replicate layout.globalLength 0, true⟩ := by
  rw [NodalField.cleared, mirrors.layout_eq]
  exact mirrors_constant layout 0

theorem shows_map {f : α → α} (shows : field.Shows sheet entry) :
    (field.map f).Shows ⟨sheet.values.map f, sheet.fresh⟩ entry := by
  rcases shows with ⟨value, found, stands⟩
  refine ⟨f value, ?_, ?_⟩
  · rw [get_map, found]
    rfl
  · rw [Array.getElem?_map, stands]
    rfl

theorem scale [Mul α] (mirrors : field.Mirrors layout sheet) (factor : α) :
    (field.scale factor).Mirrors layout ⟨sheet.values.map (· * factor), sheet.fresh⟩ := by
  refine {
    layout_eq := mirrors.layout_eq
    size_eq := by rw [Array.size_map, mirrors.size_eq]
    owned := fun entry owns => shows_map (mirrors.owned entry owns)
    copied := fun fresh entry ghost => shows_map (mirrors.copied fresh entry ghost)
    stale := ?_ }
  intro stale entry ghost
  rw [NodalField.scale, get_map, mirrors.stale stale entry ghost]
  rfl

theorem copyFrom {other : NodalField α} {otherSheet : Sheet α}
    (mirrors : field.Mirrors layout sheet) (source : other.Mirrors layout otherSheet) :
    field.copyFrom other = .ok other := by
  rw [NodalField.copyFrom, if_pos]
  rw [compatible, mirrors.layout_eq, source.layout_eq]
  exact beq_self_eq_true layout

/-- After all owned entries were written no ghost is up to date. -/
theorem of_written {after : NodalField α} (values : Nat → α) (layout_eq : after.layout = layout)
    (stale : ∀ ghost ∈ layout.ghosts, after.synchronized = false)
    (written : ∀ entry, layout.Owns entry → after.get entry = .ok (values entry)) :
    after.Mirrors layout ⟨.ofFn fun i : Fin layout.globalLength => values i, false⟩ := by
  refine {
    layout_eq := layout_eq
    size_eq := Array.size_ofFn
    owned := ?_
    copied := nofun
    stale := ?_ }
  · intro entry owns
    have inside : entry < layout.globalLength := Nat.lt_of_lt_of_le owns.2 layout.stop_le
    exact ⟨values entry, written entry owns, by simp [inside]⟩
  · intro _ entry ghost
    apply get_of_stale
    · exact stale entry ghost
    · rw [layout_eq]
      exact ghost

theorem fill (mirrors : field.Mirrors layout sheet) (values : Nat → α) :
    (field.fill values).Mirrors layout
      ⟨.ofFn fun i : Fin layout.globalLength => values i, false⟩ := by
  apply of_written values
  · exact mirrors.layout_eq
  · exact fun _ _ => rfl
  · intro entry owns
    apply get_fill
    rw [mirrors.layout_eq]
    exact owns

end Mirrors

theorem synchronized_of_modify {after : NodalField α} {f : α → α}
    (changed : field.modify entry f = .ok after) : after.synchronized = false := by
  rw [modify] at changed
  split at changed
  · cases changed
    rfl
  · cases changed

/-- Owned entries can be set one after the other. -/
theorem exists_setEach (values : Nat → α) (entries : List Nat) :
    ∀ field : NodalField α, (∀ entry ∈ entries, field.layout.Owns entry) →
      ∃ after, field.setEach values entries = (.ok (), after) ∧ after.layout = field.layout ∧
        (entries ≠ [] → after.synchronized = false) ∧
        (∀ entry ∈ entries, after.get entry = .ok (values entry)) ∧
        ∀ other, field.layout.Owns other → other ∉ entries →
          after.get other = field.get other := by
  induction entries with
  | nil =>
      intro field _
      exact ⟨field, rfl, rfl, fun wrong => absurd rfl wrong,
        fun entry absent => absurd absent List.not_mem_nil, fun _ _ _ => rfl⟩
  | cons entry entries ih =>
      intro field owned
      have owns := owned entry List.mem_cons_self
      rcases exists_modify owns fun _ => values entry with ⟨between, wrote, same, here, elsewhere⟩
      have spoiled := synchronized_of_modify wrote
      replace wrote : field.set entry (values entry) = .ok between := wrote
      have later : ∀ other ∈ entries, between.layout.Owns other := by
        intro other member
        rw [same]
        exact owned other (List.mem_cons_of_mem entry member)
      rcases ih between later with ⟨after, worked, sameRest, stale, holds, kept⟩
      refine ⟨after, ?_, sameRest.trans same, ?_, ?_, ?_⟩
      · simp only [setEach, wrote]
        exact worked
      · intro _
        rcases List.eq_nil_or_concat entries with rfl | ⟨_, _, rfl⟩
        · cases worked
          exact spoiled
        · exact stale (by simp)
      · intro other member
        by_cases again : other ∈ entries
        · exact holds other again
        · rcases List.mem_cons.mp member with rfl | inRest
          · rw [kept other (by rw [same]; exact owns) again, here]
            rcases get_of_owns owns with ⟨_, before⟩
            rw [before]
            rfl
          · exact absurd inRest again
      · intro other ownsOther absent
        rcases List.ne_and_not_mem_of_not_mem_cons absent with ⟨different, absentLater⟩
        rw [kept other (by rw [same]; exact ownsOther) absentLater,
          elsewhere other ownsOther different]

/-- Setting all owned entries writes all of them, and a rank with ghosts owns an entry. -/
theorem Mirrors.exists_setEach (mirrors : field.Mirrors layout sheet) (values : Nat → α)
    {entries : List Nat} (whole : ∀ entry, entry ∈ entries ↔ layout.Owns entry)
    (owner : ∀ ghost ∈ layout.ghosts, ∃ entry, layout.Owns entry) :
    ∃ after, field.setEach values entries = (.ok (), after) ∧
      after.Mirrors layout ⟨.ofFn fun i : Fin layout.globalLength => values i, false⟩ := by
  have owned : ∀ entry ∈ entries, field.layout.Owns entry := by
    intro entry member
    rw [mirrors.layout_eq]
    exact (whole entry).mp member
  rcases NodalField.exists_setEach values entries field owned with
    ⟨after, worked, same, stale, written, -⟩
  refine ⟨after, worked, ?_⟩
  apply of_written values
  · exact same.trans mirrors.layout_eq
  · intro ghost member
    rcases owner ghost member with ⟨entry, owns⟩
    exact stale (List.ne_nil_of_mem ((whole entry).mpr owns))
  · intro entry owns
    exact written entry ((whole entry).mpr owns)

end NodalField

/-! ## All fields of a rank -/

/-- The numbered fields mirror the sheets with their numbers. -/
structure MirrorsAll (layout : FieldLayout) (sheets : Nat → Option (Sheet α))
    (fields : Nat → Option (NodalField α)) : Prop where
  absent : ∀ number, sheets number = none → fields number = none
  present : ∀ number sheet, sheets number = some sheet →
    ∃ field, fields number = some field ∧ field.Mirrors layout sheet

namespace MirrorsAll

variable {layout : FieldLayout} {sheets : Nat → Option (Sheet α)}
  {fields : Nat → Option (NodalField α)}

theorem exists_sheet (mirrors : MirrorsAll layout sheets fields) {number : Nat}
    {field : NodalField α} (found : fields number = some field) :
    ∃ sheet, sheets number = some sheet ∧ field.Mirrors layout sheet := by
  cases described : sheets number with
  | none =>
      rw [mirrors.absent number described] at found
      cases found
  | some sheet =>
      rcases mirrors.present number sheet described with ⟨other, present, mirrored⟩
      rw [found, Option.some.injEq] at present
      rw [present]
      exact ⟨sheet, rfl, mirrored⟩

theorem update (mirrors : MirrorsAll layout sheets fields) (number : Nat) {sheet : Sheet α}
    {field : NodalField α} (here : field.Mirrors layout sheet) :
    MirrorsAll layout (Function.update sheets number (some sheet))
      (Function.update fields number (some field)) := by
  constructor
  · intro other absent
    by_cases same : other = number
    · subst same
      rw [Function.update_self] at absent
      cases absent
    · rw [Function.update_of_ne same] at absent ⊢
      exact mirrors.absent other absent
  · intro other found present
    by_cases same : other = number
    · subst same
      rw [Function.update_self, Option.some.injEq] at present
      subst present
      exact ⟨field, Function.update_self .., here⟩
    · rw [Function.update_of_ne same] at present ⊢
      exact mirrors.present other found present

theorem change (mirrors : MirrorsAll layout sheets fields) (number : Nat) {f : Sheet α → Sheet α}
    {g : NodalField α → NodalField α}
    (here : ∀ sheet field, field.Mirrors layout sheet → (g field).Mirrors layout (f sheet)) :
    MirrorsAll layout (changeAt number f sheets) (changeAt number g fields) := by
  cases found : sheets number with
  | none =>
      rw [changeAt_of_none f found, changeAt_of_none g (mirrors.absent number found)]
      exact mirrors
  | some sheet =>
      rcases mirrors.present number sheet found with ⟨field, present, mirrored⟩
      rw [changeAt_of_some f found, changeAt_of_some g present]
      exact mirrors.update number (here sheet field mirrored)

end MirrorsAll

end ImmersedBody
