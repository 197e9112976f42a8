import ImmersedBody.Field.Nodal
import ImmersedBody.Proofs.Histories

/-!
# What happens to the constraint forces

`ForceEvent` lists what can be seen of the constraint forces in a run: a step is
opened or closed, forces are set, the force on one structure is replaced, and
the flow is called with the force on a structure.

`HandedOff` says that the events of a step hand every force off exactly once and
with the right entries.  `Underway` generates the events of a step that has not
been closed; the main result, `Underway.handedOff`, is that a step in which no
force is left to be spread has handed off all its forces.
-/

namespace ImmersedBody

/-- What can be seen of the constraint forces in a run. -/
inductive ForceEvent (α : Type) where
  /-- A step was opened. -/
  | opened
  /-- The step was closed. -/
  | closed
  /-- Constraint forces were set for all structures, times a factor. -/
  | set (forces : List (NodalField α)) (factor : α)
  /-- The force on one structure was replaced by one that was integrated. -/
  | replaced (part : Nat) (force : NodalField α)
  /-- The flow was called to spread the force on a structure, and accepted it or stopped. -/
  | spread (part : Nat) (force : NodalField α) (accepted : Bool)
deriving DecidableEq

variable {α : Type}

namespace ForceEvent

/-- Whether forces were set. -/
def isSet : ForceEvent α → Bool
  | set _ _ => true
  | _ => false

/-- The structures whose forces the flow is called with, until forces are set. -/
def spreadParts : List (ForceEvent α) → List Nat
  | [] => []
  | set _ _ :: _ => []
  | spread part _ _ :: events => part :: spreadParts events
  | opened :: events | closed :: events | replaced _ _ :: events => spreadParts events

/-- The entries that an event stores as the force on a structure. -/
def entries? [Mul α] (part : Nat) : ForceEvent α → Option (Array α)
  | set forces factor => forces[part]?.map fun force => force.owned.map (· * factor)
  | replaced other force => if other = part then some force.owned else none
  | _ => none

/-- The entries that were stored last as the force on a structure. -/
def latestEntries [Mul α] (part : Nat) (events : List (ForceEvent α)) : Option (Array α) :=
  events.foldl (fun latest event => (event.entries? part).or latest) none

/-- The flow accepts the forces on all structures in order, from a number on. -/
def handovers : Nat → List (NodalField α) → List (ForceEvent α)
  | _, [] => []
  | part, force :: forces => spread part force true :: handovers (part + 1) forces

/-! ### Appending events -/

theorem spreadParts_append_of_set {events : List (ForceEvent α)} (added : List (ForceEvent α))
    (hasSet : ∃ event ∈ events, event.isSet = true) :
    spreadParts (events ++ added) = spreadParts events := by
  induction events with
  | nil =>
      rcases hasSet with ⟨event, member, -⟩
      cases member
  | cons event events ih =>
      rcases hasSet with ⟨other, member, isSet⟩
      rcases List.mem_cons.mp member with rfl | later
      · cases other with
        | set forces factor =>
            rfl
        | opened | closed | replaced part force | spread part force accepted =>
            cases isSet
      · have same := ih ⟨other, later, isSet⟩
        cases event <;> simp [spreadParts, same]

theorem spreadParts_append_of_unset {events : List (ForceEvent α)} (added : List (ForceEvent α))
    (unset : ∀ event ∈ events, event.isSet = false) :
    spreadParts (events ++ added) = spreadParts events ++ spreadParts added := by
  induction events with
  | nil =>
      rfl
  | cons event events ih =>
      have same := ih fun other member => unset other (List.mem_cons_of_mem _ member)
      have first := unset event List.mem_cons_self
      cases event with
      | set forces factor =>
          cases first
      | opened | closed | replaced part force | spread part force accepted =>
          simp [spreadParts, same]

/-- Only calls of the flow make a difference. -/
theorem spreadParts_concat {events : List (ForceEvent α)} {event : ForceEvent α}
    (spreadless : spreadParts [event] = []) :
    spreadParts (events ++ [event]) = spreadParts events := by
  by_cases hasSet : ∃ event ∈ events, event.isSet = true
  · exact spreadParts_append_of_set _ hasSet
  · rw [spreadParts_append_of_unset, spreadless, List.append_nil]
    intro event member
    cases isSet : event.isSet with
    | false =>
        rfl
    | true =>
        exact absurd ⟨event, member, isSet⟩ hasSet

theorem latestEntries_concat [Mul α] {part : Nat} {events : List (ForceEvent α)}
    {event : ForceEvent α} :
    latestEntries part (events ++ [event]) =
      (event.entries? part).or (latestEntries part events) := by
  rw [latestEntries, List.foldl_append]
  rfl

/-! ### The calls that hand all forces over -/

theorem getElem?_handovers {part : Nat} {forces : List (NodalField α)} {i : Nat} :
    (handovers part forces)[i]? = forces[i]?.map fun force => spread (part + i) force true := by
  induction forces generalizing part i with
  | nil =>
      rfl
  | cons force forces ih =>
      cases i with
      | zero =>
          rfl
      | succ i =>
          rw [handovers, List.getElem?_cons_succ, List.getElem?_cons_succ, ih, Nat.add_assoc,
            Nat.add_comm 1 i]

theorem length_handovers {part : Nat} {forces : List (NodalField α)} :
    (handovers part forces).length = forces.length := by
  induction forces generalizing part with
  | nil =>
      rfl
  | cons force forces ih =>
      rw [handovers, List.length_cons, List.length_cons, ih]

theorem spread_of_mem_handovers {part : Nat} {forces : List (NodalField α)} {event : ForceEvent α}
    (member : event ∈ handovers part forces) : ∃ part force, event = spread part force true := by
  rcases List.getElem?_of_mem member with ⟨i, found⟩
  rw [getElem?_handovers] at found
  rcases Option.map_eq_some_iff.mp found with ⟨force, -, rfl⟩
  exact ⟨part + i, force, rfl⟩

theorem spreadParts_handovers {part : Nat} {forces : List (NodalField α)} :
    spreadParts (handovers part forces) = List.range' part forces.length := by
  induction forces generalizing part with
  | nil =>
      rfl
  | cons force forces ih =>
      rw [handovers, spreadParts, ih, List.length_cons, List.range'_succ]

/-- Calls of the flow store nothing. -/
theorem latestEntries_append_spreads [Mul α] {part : Nat} {events spreads : List (ForceEvent α)}
    (each : ∀ event ∈ spreads, ∃ part force, event = spread part force true) :
    latestEntries part (events ++ spreads) = latestEntries part events := by
  induction spreads generalizing events with
  | nil =>
      rw [List.append_nil]
  | cons event spreads ih =>
      rcases each event List.mem_cons_self with ⟨other, force, rfl⟩
      rw [List.append_cons, ih fun event member => each event (List.mem_cons_of_mem _ member),
        latestEntries_concat]
      rfl

end ForceEvent

/-! ## Steps -/

open ForceEvent

/-- The events of a step of structures hand every constraint force off exactly once. -/
structure HandedOff [Mul α] (count : Nat) (step : List (ForceEvent α)) : Prop where
  /-- Before forces are set, the flow is not called. -/
  idle : spreadParts step = []
  /-- Until forces are set again, the flow is called once for each structure, in order. -/
  once : ∀ before forces factor after, step = before ++ .set forces factor :: after →
    spreadParts after = List.range count
  /-- The flow is called with the entries that were stored last. -/
  entries : ∀ before part force accepted after,
    step = before ++ .spread part force accepted :: after →
      latestEntries part before = some force.owned

/-- The half-time force that a part of a composite is stored as. -/
def NodalField.stored [Mul α] (force : NodalField α) (factor : α) : NodalField α :=
  { force.scale factor with synchronized := true }

/--
The events of a step that has been opened and not been closed, with the forces at the end, and
whether they have yet to be spread.
-/
inductive Underway [Mul α] : List (NodalField α) → Bool → List (ForceEvent α) → Prop
  | opened (forces : List (NodalField α)) : Underway forces false []
  | set {forces : List (NodalField α)} {step : List (ForceEvent α)}
      (underway : Underway forces false step) (parts : List (NodalField α)) (factor : α)
      (length_eq : parts.length = forces.length) :
      Underway (parts.map (·.stored factor)) true (step ++ [.set parts factor])
  | replaced {forces : List (NodalField α)} {pending : Bool} {step : List (ForceEvent α)}
      (underway : Underway forces pending step) {part : Nat} (inside : part < forces.length)
      (force : NodalField α) :
      Underway (forces.set part { force with synchronized := true }) pending
        (step ++ [.replaced part force])
  | spread {forces : List (NodalField α)} {step : List (ForceEvent α)}
      (underway : Underway forces true step) :
      Underway forces false (step ++ handovers 0 forces)

/-- What the events of a step say about the forces, before it is closed. -/
structure Underway.Tracks [Mul α] (forces : List (NodalField α)) (pending : Bool)
    (step : List (ForceEvent α)) : Prop where
  idle : spreadParts step = []
  once : ∀ before parts factor after, step = before ++ .set parts factor :: after →
    spreadParts after =
      if pending && after.all (!·.isSet) then [] else List.range forces.length
  entries : ∀ before part force accepted after,
    step = before ++ .spread part force accepted :: after →
      latestEntries part before = some force.owned
  latest : ∀ (part : Nat) force, forces[part]? = some force →
    latestEntries part step = some force.owned ∨ pending = false ∧ latestEntries part step = none
  hasSet : pending = true → ∃ event ∈ step, event.isSet = true

namespace Underway

variable [Mul α] {forces : List (NodalField α)} {pending : Bool} {step : List (ForceEvent α)}

theorem tracks_opened : Tracks forces false ([] : List (ForceEvent α)) where
  idle := rfl
  once := by
    intro before parts factor after split
    exact absurd split (by simp)
  entries := by
    intro before part force accepted after split
    exact absurd split (by simp)
  latest := by
    intro part force _
    exact Or.inr ⟨rfl, rfl⟩
  hasSet := by
    intro impossible
    cases impossible

theorem Tracks.set (tracks : Tracks forces false step) {parts : List (NodalField α)} {factor : α}
    (length_eq : parts.length = forces.length) :
    Tracks (parts.map (·.stored factor)) true (step ++ [.set parts factor]) where
  idle := by
    rw [spreadParts_concat rfl, tracks.idle]
  once := by
    intro before parts' factor' after split
    rcases split_of_concat split with ⟨between, rfl, earlier⟩ | ⟨-, -, rfl⟩
    · rw [spreadParts_concat rfl, tracks.once before parts' factor' between earlier,
        List.length_map, length_eq]
      simp [isSet]
    · rfl
  entries := by
    intro before part force accepted after split
    rcases split_of_concat split with ⟨between, rfl, earlier⟩ | ⟨-, impossible, -⟩
    · exact tracks.entries before part force accepted between earlier
    · cases impossible
  latest := by
    intro part force found
    rw [List.getElem?_map] at found
    rcases Option.map_eq_some_iff.mp found with ⟨source, sourced, rfl⟩
    rw [latestEntries_concat, entries?, sourced]
    exact Or.inl rfl
  hasSet := fun _ => ⟨.set parts factor, by simp, rfl⟩

theorem Tracks.replaced (tracks : Tracks forces pending step) {part : Nat} {force : NodalField α}
    (inside : part < forces.length) :
    Tracks (forces.set part { force with synchronized := true }) pending
      (step ++ [.replaced part force]) where
  idle := by
    rw [spreadParts_concat rfl, tracks.idle]
  once := by
    intro before parts factor after split
    rcases split_of_concat split with ⟨between, rfl, earlier⟩ | ⟨-, impossible, -⟩
    · rw [spreadParts_concat rfl, tracks.once before parts factor between earlier,
        List.length_set]
      simp [isSet]
    · cases impossible
  entries := by
    intro before other taken accepted after split
    rcases split_of_concat split with ⟨between, rfl, earlier⟩ | ⟨-, impossible, -⟩
    · exact tracks.entries before other taken accepted between earlier
    · cases impossible
  latest := by
    intro other stored found
    rw [latestEntries_concat, entries?]
    by_cases same : part = other
    · subst same
      rw [List.getElem?_set_self inside, Option.some.injEq] at found
      subst found
      rw [if_pos rfl]
      exact Or.inl rfl
    · rw [List.getElem?_set_ne same] at found
      rw [if_neg same]
      exact tracks.latest other stored found
  hasSet := by
    intro still
    rcases tracks.hasSet still with ⟨event, member, isSet⟩
    exact ⟨event, List.mem_append_left _ member, isSet⟩

theorem Tracks.spread (tracks : Tracks forces true step) :
    Tracks forces false (step ++ handovers 0 forces) where
  idle := by
    rw [spreadParts_append_of_set _ (tracks.hasSet rfl), tracks.idle]
  once := by
    intro before parts factor after split
    rcases split_of_append split with ⟨between, rfl, earlier⟩ | ⟨between, rfl, rest⟩
    · have spread := tracks.once before parts factor between earlier
      rw [Bool.false_and, if_neg Bool.false_ne_true]
      by_cases unset : between.all (!·.isSet) = true
      · rw [unset, Bool.true_and, if_pos rfl] at spread
        rw [spreadParts_append_of_unset, spread, spreadParts_handovers, List.nil_append,
          List.range_eq_range']
        simpa using unset
      · rw [spreadParts_append_of_set, spread, if_neg (by simpa using unset)]
        simpa using unset
    · have member : ForceEvent.set parts factor ∈ handovers 0 forces := by simp [rest]
      rcases spread_of_mem_handovers member with ⟨_, _, impossible⟩
      cases impossible
  entries := by
    intro before part force accepted after split
    rcases split_of_append split with ⟨between, rfl, earlier⟩ | ⟨between, rfl, rest⟩
    · exact tracks.entries before part force accepted between earlier
    · have here : (handovers 0 forces)[between.length]? = some (.spread part force accepted) := by
        simp [rest]
      rw [getElem?_handovers] at here
      rcases Option.map_eq_some_iff.mp here with ⟨taken, found, equal⟩
      cases equal
      rw [latestEntries_append_spreads]
      · rcases tracks.latest _ _ found with stored | ⟨impossible, -⟩
        · rw [Nat.zero_add]
          exact stored
        · cases impossible
      · intro event member
        exact spread_of_mem_handovers (rest ▸ List.mem_append_left _ member)
  latest := by
    intro part force found
    rw [latestEntries_append_spreads fun event => spread_of_mem_handovers]
    rcases tracks.latest part force found with stored | ⟨impossible, -⟩
    · exact Or.inl stored
    · cases impossible
  hasSet := by
    intro impossible
    cases impossible

theorem tracks (underway : Underway forces pending step) : Tracks forces pending step := by
  induction underway with
  | opened forces =>
      exact tracks_opened
  | set underway parts factor length_eq ih =>
      exact ih.set length_eq
  | replaced underway inside force ih =>
      exact ih.replaced inside
  | spread underway ih =>
      exact ih.spread

/-- A step in which no force is left to be spread has handed off all its forces. -/
theorem handedOff (underway : Underway forces false step) : HandedOff forces.length step where
  idle := underway.tracks.idle
  once := underway.tracks.once
  entries := underway.tracks.entries

/-- A step that is underway does not contain the opening or the closing of another one. -/
theorem not_mem (underway : Underway forces pending step) :
    ForceEvent.opened ∉ step ∧ ForceEvent.closed ∉ step := by
  induction underway with
  | opened forces =>
      simp
  | set underway parts factor length_eq ih =>
      simpa using ih
  | replaced underway inside force ih =>
      simpa using ih
  | @spread forces step underway ih =>
      simp only [List.mem_append, not_or]
      refine ⟨⟨ih.1, ?_⟩, ih.2, ?_⟩ <;> intro member <;>
        rcases spread_of_mem_handovers member with ⟨_, _, impossible⟩ <;> cases impossible

end Underway

end ImmersedBody
