import ImmersedBody.Proofs.Histories
import ImmersedBody.Proofs.TimeStep.Effects

/-!
# Histories of the step protocol

A history lists the accepted calls of a run in order, each with the phase in
which it was made and with its answer.  `underway` reads off a history which
step has been opened and not been closed, and what has been called within it.

`Leads` says that all entries of a history are accepted one after another.  A
history leads from the state at its beginning to the state after its calls, and
so does every beginning of it.  What holds when a step is opened and is preserved
by the calls within a step holds at every time within every step; this induction
is carried out once, in `Leads.step_induction`.
-/

namespace ImmersedBody.StepProtocol

variable {α : Type}

/-- An accepted call. -/
structure Entry (α : Type) where
  /-- The phase in which the call was made. -/
  phase : Phase
  call : Call α
  answer : Answer α

/-- The call opens or closes a step. -/
def Call.IsBracket : Call α → Prop
  | .beginStep _ _ | .endStep => True
  | _ => False

theorem Call.Inspects.inner {call : Call α} (inspects : call.Inspects) : ¬ call.IsBracket := by
  cases call with
  | beginStep current new | endStep =>
      cases inspects
  | _ =>
      exact id

/-! ## The step that is underway -/

/-- What one more entry makes of the step that is underway. -/
def extend (step : Option (List (Entry α))) (entry : Entry α) : Option (List (Entry α)) :=
  match entry.call with
  | .beginStep _ _ => some []
  | .endStep => none
  | _ => step.map (· ++ [entry])

/-- The entries since a step was opened, unless it has been closed. -/
def underway (past : List (Entry α)) : Option (List (Entry α)) :=
  past.foldl extend none

theorem underway_concat {past : List (Entry α)} {entry : Entry α} :
    underway (past ++ [entry]) = extend (underway past) entry := by
  simp [underway]

theorem extend_of_inner {step : Option (List (Entry α))} {entry : Entry α}
    (inner : ¬ entry.call.IsBracket) : extend step entry = step.map (· ++ [entry]) := by
  unfold extend
  split
  · rename_i opening
    rw [opening] at inner
    exact absurd trivial inner
  · rename_i closing
    rw [closing] at inner
    exact absurd trivial inner
  · rfl

/-! ## Accepted calls in a row -/

section

variable [Scalar α]

/-- The accepted calls of a sequence. -/
def history (protocol : StepProtocol α) : List (Call α) → List (Entry α)
  | [] => []
  | call :: calls =>
      match protocol.perform call with
      | .ok (answer, after) => ⟨protocol.phase, call, answer⟩ :: after.history calls
      | .error _ => protocol.history calls

/-- All entries are accepted, one after another. -/
inductive Leads (start : StepProtocol α) : List (Entry α) → StepProtocol α → Prop where
  | nothing : Leads start [] start
  | call {past : List (Entry α)} {before after : StepProtocol α} {call : Call α}
      {answer : Answer α} (leads : Leads start past before)
      (performed : before.perform call = .ok (answer, after)) :
      Leads start (past ++ [⟨before.phase, call, answer⟩]) after

/-- Only calls of the sequence are on record. -/
theorem call_mem_of_mem_history {calls : List (Call α)} {protocol : StepProtocol α}
    {entry : Entry α} (member : entry ∈ protocol.history calls) : entry.call ∈ calls := by
  induction calls generalizing protocol with
  | nil =>
      cases member
  | cons call calls ih =>
      unfold history at member
      split at member
      · rcases List.mem_cons.mp member with rfl | later
        · exact List.mem_cons_self
        · exact List.mem_cons_of_mem call (ih later)
      · exact List.mem_cons_of_mem call (ih member)

namespace Leads

variable {start protocol : StepProtocol α} {past : List (Entry α)}

/-- The history of a run continues what led to its beginning. -/
theorem append_history (leads : Leads start past protocol) (calls : List (Call α)) :
    Leads start (past ++ protocol.history calls) (protocol.run calls) := by
  induction calls generalizing past protocol with
  | nil =>
      rw [history, List.append_nil]
      exact leads
  | cons call calls ih =>
      cases performed : protocol.perform call with
      | ok outcome =>
          rcases outcome with ⟨answer, after⟩
          have next : protocol.next call = after := by
            rw [StepProtocol.next, performed]
          have continued := ih (leads.call performed)
          rw [List.append_assoc] at continued
          rw [history, performed, run, List.foldl_cons, next]
          exact continued
      | error violation =>
          have next : protocol.next call = protocol := by
            rw [StepProtocol.next, performed]
          rw [history, performed, run, List.foldl_cons, next]
          exact ih leads

/-- An entry stands for a call that was accepted in the state that its past led to. -/
theorem exists_of_entry {future : List (Entry α)} {entry : Entry α}
    (leads : Leads start (past ++ entry :: future) protocol) :
    ∃ before after, Leads start past before ∧ before.phase = entry.phase ∧
      Effect before entry.call entry.answer after := by
  generalize split : past ++ entry :: future = entries at leads
  induction leads generalizing future with
  | nothing =>
      simp at split
  | @call earlier before after call answer leads performed ih =>
      rcases split_of_concat split.symm with ⟨between, -, found⟩ | ⟨rfl, rfl, -⟩
      · exact ih found.symm
      · exact ⟨before, after, leads, rfl, effect_of_perform performed⟩

/-- Every beginning of a history leads to some state. -/
theorem exists_of_append {future : List (Entry α)}
    (leads : Leads start (past ++ future) protocol) : ∃ before, Leads start past before := by
  cases future with
  | nil =>
      rw [List.append_nil] at leads
      exact ⟨protocol, leads⟩
  | cons entry future =>
      rcases leads.exists_of_entry with ⟨before, -, earlier, -⟩
      exact ⟨before, earlier⟩

/--
What holds when a step is opened and is preserved by every call within it holds of the step that
is underway.
-/
theorem step_induction (allowed : Call α → Prop)
    (property : StepProtocol α → List (Entry α) → Prop)
    (begun : ∀ {before after current new answer},
      Effect before (.beginStep current new) answer after → property after [])
    (continued : ∀ {before after step call answer}, property before step → allowed call →
      ¬ call.IsBracket → Effect before call answer after →
      property after (step ++ [⟨before.phase, call, answer⟩]))
    (leads : Leads start past protocol) (each : ∀ entry ∈ past, allowed entry.call)
    {step : List (Entry α)} (found : underway past = some step) : property protocol step := by
  induction leads generalizing step with
  | nothing =>
      cases found
  | @call past before after call answer leads performed ih =>
      have effect := effect_of_perform performed
      rw [underway_concat] at found
      by_cases bracket : call.IsBracket
      · cases call with
        | beginStep current new =>
            cases found
            exact begun effect
        | endStep =>
            cases found
        | _ =>
            cases bracket
      · rw [extend_of_inner bracket] at found
        rcases Option.map_eq_some_iff.mp found with ⟨earlier, opened, rfl⟩
        have before := ih (fun entry member => each entry (List.mem_append_left _ member)) opened
        exact continued before (each _ List.mem_concat_self) bracket effect

/-- There is a window exactly while a step is underway. -/
theorem window_isSome_iff {tolerance : α} (leads : Leads (initial tolerance) past protocol) :
    protocol.window.isSome = true ↔ (underway past).isSome = true := by
  induction leads with
  | nothing =>
      simp [initial, underway]
  | @call past before after call answer leads performed ih =>
      rw [underway_concat]
      cases effect_of_perform performed with
      | begun outside | ended opened closable settled =>
          simp [extend]
      | inspected inspects opened =>
          rw [extend_of_inner inspects.inner, Option.isSome_map]
          exact ih
      | requested opened | interpolated opened | interpolationSkipped opened | produced opened
        | spread opened | spreadingSkipped opened | predicted opened | updated opened
        | recorded opened =>
          rw [extend_of_inner id, Option.isSome_map]
          exact ih

end Leads

/-! ## The history of a run -/

variable {tolerance : α} {calls : List (Call α)} {past future : List (Entry α)}

theorem leads_history (start : StepProtocol α) (calls : List (Call α)) :
    Leads start (start.history calls) (start.run calls) := by
  have initially : Leads start [] start := .nothing
  simpa using initially.append_history calls

/-- The beginnings of a history are led to from the initial state. -/
theorem exists_leads (split : (initial tolerance).history calls = past ++ future) :
    ∃ before, Leads (initial tolerance) past before := by
  have leads := leads_history (initial tolerance) calls
  rw [split] at leads
  exact leads.exists_of_append

/-- Every accepted call but the opening of a step is made in a state within a step. -/
theorem exists_within {entry : Entry α}
    (split : (initial tolerance).history calls = past ++ entry :: future)
    (later : ∀ current new, entry.call ≠ .beginStep current new) :
    ∃ before after step, Leads (initial tolerance) past before ∧ underway past = some step ∧
      before.phase = entry.phase ∧ Effect before entry.call entry.answer after := by
  have leads := leads_history (initial tolerance) calls
  rw [split] at leads
  rcases leads.exists_of_entry with ⟨before, after, earlier, same, effect⟩
  rcases effect.opens_or_opened with ⟨current, new, opening⟩ | opened
  · exact absurd opening (later current new)
  · rcases Option.isSome_iff_exists.mp (earlier.window_isSome_iff.mp opened) with ⟨step, found⟩
    exact ⟨before, after, step, earlier, found, same, effect⟩

end

end ImmersedBody.StepProtocol
