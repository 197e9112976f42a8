import ImmersedBody.Proofs.Json.Answers

/-!
# Reading records that were written

A record is written member by member, in the order of its kind.  Reading it leads through a
sequence of states, one for each member; `Reader.Collects` says where the sequence ends, which
may be at a member that is refused.  The record is what the last state amounts to.

The main result is `Reader.answers_record`.
-/

namespace ImmersedBody.Reader

variable {σ τ : Type} {kind : RecordKind σ τ} {layout : JsonLayout} {space s rest : List Symbol}

/-- The members that a record is written with, and the state that reading them in order leads to. -/
inductive Collects (kind : RecordKind σ τ) : List (String × JsonText) → σ → Option σ → Prop where
  | nil {state : σ} : Collects kind [] state (some state)
  | cons {name : String} {text : JsonText} {others : List (String × JsonText)}
      {field : RecordField σ} {state next : σ} {last : Option σ}
      (found : kind.fields.find? (·.name == name) = some field)
      (unset : field.isSet state = false)
      (answers : Answers (field.read state) text (some next))
      (later : Collects kind others next last) :
      Collects kind ((name, text) :: others) state last
  | refused {name : String} {text : JsonText} {others : List (String × JsonText)}
      {field : RecordField σ} {state : σ}
      (found : kind.fields.find? (·.name == name) = some field)
      (unset : field.isSet state = false)
      (answers : Answers (field.read state) text none) :
      Collects kind ((name, text) :: others) state none

/-- A member whose value is put into the state, and the members behind it if the value is taken. -/
theorem Collects.take {β : Type} {name : String} {text : JsonText}
    {others : List (String × JsonText)} {field : RecordField σ} {state : σ} {reader : Reader β}
    {put : β → σ} {answer : Option β} {last : β → Option σ}
    (found : kind.fields.find? (·.name == name) = some field)
    (unset : field.isSet state = false) (reads : field.read state = do pure (put (← reader)))
    (answers : Answers reader text answer)
    (later : ∀ value, Collects kind others (put value) (last value)) :
    Collects kind ((name, text) :: others) state (answer.bind last) := by
  have taken := answers.map put
  rw [← reads] at taken
  cases answer with
  | none =>
      exact .refused found unset taken
  | some value =>
      exact .cons found unset taken (later value)

/-- A member as it is written. -/
def memberText (named : String × JsonText) : JsonText := fun layout =>
  JsonText.quoted named.1.toList ++ layout.colon ++ named.2 layout

theorem record_eq (named : List (String × JsonText)) :
    JsonText.record named = JsonText.enclosed '{' '}' (named.map memberText) :=
  rfl

/-! ## Keys -/

/-- The symbols of a member, and what follows them. -/
theorem map_memberText (name : String) (text : JsonText) :
    (memberText (name, text) layout).map Symbol.char ++ rest =
      .char '"' :: ((name.toList.flatMap JsonText.escaped).map .char ++ .char '"' ::
        (layout.colon.map .char ++ ((text layout).map .char ++ rest))) := by
  simp [memberText, JsonText.quoted]

theorem nextKey_of_first (name : String) (blank : Blank space) :
    nextKey true (space ++ .char '"' ::
      ((name.toList.flatMap JsonText.escaped).map .char ++ .char '"' :: s)) =
      .ok (some name, s) := by
  rw [nextKey, bind_of_ok (skipSpace_of_blank blank (by decide)), bind_of_ok peek_cons]
  simp only [↓reduceIte]
  rw [bind_of_ok word_singleton, map_of_ok (openText_quoted name s)]

theorem nextKey_of_comma (name : String) (blank : Blank space) :
    nextKey false (.char ',' :: (space ++ .char '"' ::
      ((name.toList.flatMap JsonText.escaped).map .char ++ .char '"' :: s))) =
      .ok (some name, s) := by
  rw [nextKey, bind_of_ok (skipSpace_of_dark (by decide)), bind_of_ok peek_cons]
  simp only [Bool.false_eq_true, ↓reduceIte]
  rw [bind_of_ok word_singleton, bind_of_ok (mark_of_blank blank (by decide)),
    map_of_ok (openText_quoted name s)]

theorem nextKey_of_closing (first : Bool) (blank : Blank space) :
    nextKey first (space ++ .char '}' :: s) = .ok (none, .char '}' :: s) := by
  rw [nextKey, bind_of_ok (skipSpace_of_blank blank (by decide)), bind_of_ok peek_cons]
  rfl

/-! ## Members -/

/-- The value of a member is read behind the colon. -/
theorem member_colon (layout : JsonLayout) {name : String} {text : JsonText} {field : RecordField σ} {state : σ}
    {next : Option σ} (found : kind.fields.find? (·.name == name) = some field)
    (unset : field.isSet state = false) (answers : Answers (field.read state) text next)
    (delimited : Delimited rest) :
    member kind name state (layout.colon.map .char ++ ((text layout).map .char ++ rest)) =
      outcome rest next := by
  have value {space : List Symbol} (blank : Blank space) :
      (do mark ':'; field.read state : Reader σ)
        (.char ':' :: (space ++ ((text layout).map .char ++ rest))) = outcome rest next := by
    rw [bind_of_ok (mark_cons (by decide))]
    exact answers.reads layout space rest blank delimited
  rw [member, found]
  simp only [unset, Bool.false_eq_true, ↓reduceIte]
  cases layout with
  | none =>
      exact value blank_nil
  | some depth =>
      have blank : Blank [Symbol.char ' '] := by
        simp [Blank, isSpace]
      exact value blank

/-- The members from the one with a known key on. -/
theorem members_of_nextKey {first : Bool} {name : String} {text : JsonText}
    {others : List (String × JsonText)} {state : σ} {last : Option σ} {budget : Nat}
    (collects : Collects kind ((name, text) :: others) state last)
    (key : nextKey first s = .ok (some name,
      layout.inner.colon.map .char ++ ((text layout.inner).map .char ++
        ((following layout '}' (others.map memberText)).map .char ++ rest))))
    (later : ∀ next, Collects kind others next last →
      members kind false budget next
        ((following layout '}' (others.map memberText)).map .char ++ rest) =
        outcome rest (last.bind kind.finish)) :
    members kind first (budget + 1) state s = outcome rest (last.bind kind.finish) := by
  have delimited : Delimited ((following layout '}' (others.map memberText)).map .char ++ rest) :=
    delimited_following (by decide)
  rw [members, bind_of_ok key]
  cases collects with
  | cons found unset answers behind =>
      have taken := member_colon layout.inner found unset answers delimited
      exact (bind_of_ok taken).trans (later _ behind)
  | refused found unset answers =>
      have refused := member_colon layout.inner found unset answers delimited
      exact bind_of_error refused

/-- The closing bracket ends a record, which has to be complete by then. -/
theorem members_of_closing {first : Bool} {state : σ} {budget : Nat} (blank : Blank space) :
    members kind first (budget + 1) state (space ++ .char '}' :: rest) =
      outcome rest (kind.finish state) := by
  rw [members, bind_of_ok (nextKey_of_closing first blank)]
  cases kind.finish state with
  | none =>
      rfl
  | some value =>
      show (do word ['}']; pure value : Reader τ) (.char '}' :: rest) = _
      rw [bind_of_ok word_singleton]
      rfl

/-- The members behind the first are read until one is refused or the record ends. -/
theorem members_following {named : List (String × JsonText)} {state : σ} {last : Option σ}
    (collects : Collects kind named state last) {budget : Nat} (enough : named.length < budget) :
    members kind false budget state
      ((following layout '}' (named.map memberText)).map .char ++ rest) =
      outcome rest (last.bind kind.finish) := by
  induction named generalizing state budget with
  | nil =>
      rcases Nat.exists_eq_add_one.mpr (Nat.zero_lt_of_lt enough) with ⟨budget, rfl⟩
      cases collects
      rw [List.map_nil, map_following_nil]
      exact members_of_closing (blank_lineBreak layout)
  | cons head others ih =>
      rcases Nat.exists_eq_add_one.mpr (Nat.zero_lt_of_lt enough) with ⟨budget, rfl⟩
      rcases head with ⟨name, text⟩
      rw [List.map_cons, map_following_cons, map_memberText]
      apply members_of_nextKey collects (nextKey_of_comma name (blank_lineBreak layout.inner))
      exact fun next behind => ih behind (Nat.lt_of_succ_lt_succ enough)

theorem members_inside {named : List (String × JsonText)} {state : σ} {last : Option σ}
    (collects : Collects kind named state last) {budget : Nat} (enough : named.length < budget) :
    members kind true budget state
      ((inside layout '}' (named.map memberText)).map .char ++ rest) =
      outcome rest (last.bind kind.finish) := by
  rcases Nat.exists_eq_add_one.mpr (Nat.zero_lt_of_lt enough) with ⟨budget, rfl⟩
  cases named with
  | nil =>
      cases collects
      exact members_of_closing blank_nil
  | cons head others =>
      rcases head with ⟨name, text⟩
      rw [List.map_cons, map_inside_cons, map_memberText]
      apply members_of_nextKey collects (nextKey_of_first name (blank_lineBreak layout.inner))
      exact fun next behind => members_following behind (Nat.lt_of_succ_lt_succ enough)

/-- A record is read member by member. -/
theorem answers_record {named : List (String × JsonText)} {last : Option σ}
    (collects : Collects kind named kind.start last) :
    Answers (record kind) (.record named) (last.bind kind.finish) where
  starts := by
    intro layout
    rw [record_eq]
    exact ⟨'{', _, enclosed_eq '{' '}', by decide⟩
  reads := by
    intro layout space rest blank _
    rw [record_eq, enclosed_eq, List.map_cons, List.cons_append, record,
      bind_of_ok (skipSpace_of_blank blank (by decide)), bind_of_ok peek_cons]
    have enough : named.length <
        ((inside layout '}' (named.map memberText)).map Symbol.char ++ rest).length + 1 := by
      have behind : (named.map memberText).length <
          (inside layout '}' (named.map memberText)).length := by
        apply length_inside
        intro first head
        rcases List.mem_map.mp (List.mem_of_mem_head? head) with ⟨⟨name, text⟩, -, rfl⟩
        exact List.cons_ne_nil _ _
      rw [List.length_map] at behind
      rw [List.length_append, List.length_map]
      omega
    show (do word ['{']; let left ← get; members kind true (left.length + 1) kind.start :
      Reader τ) _ = _
    rw [bind_of_ok word_singleton]
    exact members_inside collects enough

end ImmersedBody.Reader
