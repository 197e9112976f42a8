/-!
# Outcomes that may be errors

Checks of this library are written in the `Except` monad.  The lemmas here say
when a sequence of them succeeds.
-/

namespace ImmersedBody

variable {ε β γ : Type}

/-- A sequence of two checks succeeds exactly when both of them do. -/
theorem bind_eq_ok_iff {first : Except ε β} {second : β → Except ε γ} {value : γ} :
    (first >>= second) = .ok value ↔
      ∃ found, first = .ok found ∧ second found = .ok value := by
  cases first <;> simp [bind, Except.bind]

theorem pure_eq_ok_iff {found value : β} :
    (pure found : Except ε β) = .ok value ↔ value = found := by
  simp [pure, Except.pure, eq_comm]

theorem map_eq_ok_iff {check : Except ε β} {f : β → γ} {value : γ} :
    check.map f = .ok value ↔ ∃ found, check = .ok found ∧ f found = value := by
  cases check <;> simp [Except.map]

/-- A value behind a refused condition is found exactly when the condition does not hold. -/
theorem refuse_eq_ok_iff {refused : Prop} [Decidable refused] {error : ε}
    {check : Except ε β} {value : β} :
    (if refused then .error error else check) = .ok value ↔
      ¬ refused ∧ check = .ok value := by
  by_cases holds : refused <;> simp [holds]

/-- A list is worked through if none of its members is refused. -/
theorem exists_mapM {ε α β : Type} {f : α → Except ε β} {members : List α}
    (each : ∀ member ∈ members, ∃ value, f member = .ok value) :
    ∃ values, members.mapM f = .ok values := by
  induction members with
  | nil =>
      exact ⟨[], rfl⟩
  | cons member rest ih =>
      rcases each member List.mem_cons_self with ⟨value, first⟩
      rcases ih fun other found => each other (List.mem_cons_of_mem member found) with
        ⟨values, later⟩
      refine ⟨value :: values, ?_⟩
      rw [List.mapM_cons, first, later]
      rfl

/-- A list is worked through with known values. -/
theorem mapM_eq_ok_map {ε α β : Type} {f : α → Except ε β} {value : α → β} {members : List α}
    (each : ∀ member ∈ members, f member = .ok (value member)) :
    members.mapM f = .ok (members.map value) := by
  induction members with
  | nil =>
      rfl
  | cons member rest ih =>
      rw [List.mapM_cons, each member List.mem_cons_self,
        ih fun other found => each other (List.mem_cons_of_mem member found)]
      rfl

/-- A list is worked through like another one, if each member is. -/
theorem mapM_eq_ok_map_of_mapM {ε α β γ : Type} {f : α → Except ε β} {g : α → Except ε γ}
    {h : β → γ} {members : List α}
    (each : ∀ member ∈ members, ∀ value, f member = .ok value → g member = .ok (h value)) :
    ∀ {values : List β}, members.mapM f = .ok values → members.mapM g = .ok (values.map h) := by
  induction members with
  | nil =>
      intro values worked
      cases worked
      rfl
  | cons member rest ih =>
      intro values worked
      rw [List.mapM_cons] at worked
      rcases bind_eq_ok_iff.mp worked with ⟨value, first, others⟩
      rcases bind_eq_ok_iff.mp others with ⟨values', later, found⟩
      cases found
      have remaining := ih
        (fun other inside => each other (List.mem_cons_of_mem member inside)) later
      rw [List.mapM_cons, each member List.mem_cons_self _ first, remaining]
      rfl

/-- What a list has been worked through to comes from its members. -/
theorem exists_of_mem_mapM {ε β γ : Type} {f : β → Except ε γ} {members : List β}
    {values : List γ} (worked : members.mapM f = .ok values) {value : γ} (found : value ∈ values) :
    ∃ member ∈ members, f member = .ok value := by
  induction members generalizing values with
  | nil =>
      cases worked
      cases found
  | cons member rest ih =>
      rw [List.mapM_cons] at worked
      rcases bind_eq_ok_iff.mp worked with ⟨first, head, others⟩
      rcases bind_eq_ok_iff.mp others with ⟨later, tail, joined⟩
      cases joined
      rcases List.mem_cons.mp found with rfl | found
      · exact ⟨member, List.mem_cons_self, head⟩
      · rcases ih tail found with ⟨other, inside, yields⟩
        exact ⟨other, List.mem_cons_of_mem member inside, yields⟩

/-- A vector is worked through like the list of its members. -/
theorem toList_vector_mapM {ε α β : Type} {n : Nat} {f : α → Except ε β} {members : Vector α n} :
    Vector.toList <$> members.mapM f = members.toList.mapM f := by
  rw [← Vector.toList_toArray, ← Array.toList_mapM, ← Vector.toArray_mapM]
  cases members.mapM f <;> rfl

theorem vector_mapM_eq_ok_iff {ε α β : Type} {n : Nat} {f : α → Except ε β} {members : Vector α n}
    {values : Vector β n} :
    members.mapM f = .ok values ↔ members.toList.mapM f = .ok values.toList := by
  rw [← toList_vector_mapM]
  cases members.mapM f with
  | error failure =>
      constructor <;> intro found <;> cases found
  | ok found =>
      simp [Functor.map, Except.map, Vector.toList_inj]

theorem exists_vector_mapM {ε α β : Type} {n : Nat} {f : α → Except ε β} {members : Vector α n}
    (each : ∀ i (bound : i < n), ∃ value, f members[i] = .ok value) :
    ∃ values, members.mapM f = .ok values := by
  have listed : ∃ values, members.toList.mapM f = .ok values := by
    apply exists_mapM
    intro member found
    rcases List.getElem_of_mem found with ⟨i, bound, rfl⟩
    simpa using each i (by simpa using bound)
  rcases listed with ⟨values, worked⟩
  rw [← toList_vector_mapM] at worked
  cases outcome : members.mapM f with
  | ok vector =>
      exact ⟨vector, rfl⟩
  | error stop =>
      rw [outcome] at worked
      cases worked

/-- A vector is worked through with known values. -/
theorem vector_mapM_eq_ok_map {ε α β : Type} {n : Nat} {f : α → Except ε β} {value : α → β}
    {members : Vector α n} (each : ∀ i (_ : i < n), f members[i] = .ok (value members[i])) :
    members.mapM f = .ok (members.map value) := by
  rw [vector_mapM_eq_ok_iff, Vector.toList_map]
  apply mapM_eq_ok_map
  intro member found
  rcases List.getElem_of_mem found with ⟨i, bound, rfl⟩
  simpa using each i (by simpa using bound)

/-- An outcome that yields a value is the success with it. -/
theorem eq_ok_get {ε β : Type} {result : Except ε β} (succeeds : result.toOption.isSome = true) :
    result = .ok (result.toOption.get succeeds) := by
  cases result with
  | error failure =>
      cases succeeds
  | ok value =>
      rfl

end ImmersedBody
