import Mathlib.Data.List.Forall2
import ImmersedBody.Json.Record
import ImmersedBody.Json.Text

/-!
# Reading what was written

`Reader.Answers` relates a reader to a JSON text: in either layout, and with space in front,
the reader makes one and the same of the text.  It takes a value off the front and leaves what
follows, or it refuses the text as malformed.

The rules of this module say what readers of texts and lists make of what is written for
them; a list is refused exactly if one of its items is.
-/

namespace ImmersedBody

namespace Reader

variable {β γ : Type}

/-! ## Readers in a row -/

theorem bind_of_ok {reader : Reader β} {next : β → Reader γ} {s left : List Symbol} {value : β}
    (first : reader s = .ok (value, left)) : (reader >>= next) s = next value left := by
  show (reader s).bind (fun found => next found.1 found.2) = _
  rw [first]
  rfl

theorem bind_of_error {reader : Reader β} {next : β → Reader γ} {s : List Symbol}
    {fault : ReadFault} (first : reader s = .error fault) :
    (reader >>= next) s = .error fault := by
  show (reader s).bind (fun found => next found.1 found.2) = _
  rw [first]
  rfl

theorem map_of_ok {reader : Reader β} {f : β → γ} {s left : List Symbol} {value : β}
    (first : reader s = .ok (value, left)) : (f <$> reader) s = .ok (f value, left) := by
  show (reader s).map (fun found => (f found.1, found.2)) = _
  rw [first]
  rfl

theorem pure_apply (value : β) (s : List Symbol) :
    (pure value : Reader β) s = .ok (value, s) :=
  rfl

/-! ## Space and marks -/

/-- Nothing but space. -/
def Blank (space : List Symbol) : Prop :=
  ∀ symbol ∈ space, isSpace symbol = true

theorem blank_nil : Blank [] := by
  intro symbol member
  cases member

theorem blank_lineBreak (layout : JsonLayout) : Blank (layout.lineBreak.map .char) := by
  intro symbol member
  rcases List.mem_map.mp member with ⟨c, inside, rfl⟩
  cases layout with
  | none =>
      cases inside
  | some depth =>
      rcases List.mem_cons.mp inside with rfl | indent
      · rfl
      · rw [List.eq_of_mem_replicate indent]
        rfl

variable {space : List Symbol} {c : Char} {s : List Symbol}

theorem skipSpace_of_blank (blank : Blank space) (dark : isSpace (.char c) = false) :
    skipSpace (space ++ .char c :: s) = .ok ((), .char c :: s) := by
  rw [skipSpace, List.dropWhile_append_of_pos blank,
    List.dropWhile_cons_of_neg (by simp [dark])]

theorem skipSpace_of_dark (dark : isSpace (.char c) = false) :
    skipSpace (.char c :: s) = .ok ((), .char c :: s) :=
  skipSpace_of_blank blank_nil dark

theorem word_singleton : word [c] (.char c :: s) = .ok ((), s) := by
  rw [word]
  simp [word, pure_apply]

theorem mark_of_blank (blank : Blank space) (dark : isSpace (.char c) = false) :
    mark c (space ++ .char c :: s) = .ok ((), s) := by
  rw [mark, bind_of_ok (skipSpace_of_blank blank dark), word_singleton]

theorem mark_cons (dark : isSpace (.char c) = false) : mark c (.char c :: s) = .ok ((), s) :=
  mark_of_blank blank_nil dark

theorem peek_cons : peek (.char c :: s) = .ok (some c, .char c :: s) :=
  rfl

/-- A symbol behind which a number cannot go on stands at the front, or nothing. -/
def Delimited (rest : List Symbol) : Prop :=
  ∀ symbol ∈ rest.head?, symbol ∈ [',', ']', '}', '\n'].map Symbol.char

theorem delimited_nil : Delimited [] := by
  intro symbol member
  cases member

theorem delimited_cons (mark : c ∈ [',', ']', '}', '\n']) : Delimited (.char c :: s) := by
  intro symbol member
  cases member
  exact List.mem_map_of_mem mark

/-- A closing bracket delimits also on a line of its own. -/
theorem delimited_lineBreak {layout : JsonLayout} (mark : c ∈ [',', ']', '}', '\n']) :
    Delimited (layout.lineBreak.map .char ++ .char c :: s) := by
  cases layout with
  | none =>
      exact delimited_cons mark
  | some depth =>
      exact delimited_cons (by decide)

/-! ## Answers -/

/-- What a reader yields in front of what it leaves: a value, or a malformed text. -/
def outcome (rest : List Symbol) : Option β → Except ReadFault (β × List Symbol)
  | some value => .ok (value, rest)
  | none => .error .malformed

/-- What a whole text is read as: a value, or a malformed text. -/
def verdict : Option β → Except ReadFault β
  | some value => .ok value
  | none => .error .malformed

/-- Whether a value may start with a character: it is neither space nor a mark of a list. -/
def StartsValue (c : Char) : Prop :=
  isSpace (.char c) = false ∧ c ≠ ',' ∧ c ≠ ']'

instance (c : Char) : Decidable (StartsValue c) :=
  inferInstanceAs (Decidable (_ ∧ _))

/-- A reader takes a value off the front of a text, whatever its layout, or refuses it. -/
structure Answers (reader : Reader β) (text : JsonText) (answer : Option β) : Prop where
  starts : ∀ layout, ∃ c more, text layout = c :: more ∧ StartsValue c
  reads : ∀ layout space rest, Blank space → Delimited rest →
    reader (space ++ ((text layout).map .char ++ rest)) = outcome rest answer

namespace Answers

variable {reader : Reader β} {text : JsonText} {answer : Option β}

theorem ne_nil (answers : Answers reader text answer) (layout : JsonLayout) : text layout ≠ [] := by
  rcases answers.starts layout with ⟨c, others, begins, -⟩
  rw [begins]
  exact List.cons_ne_nil c others

/-- The reader followed by a function, which may find nothing. -/
theorem bind_given (answers : Answers reader text answer) (f : β → Option γ) :
    Answers (do given (f (← reader))) text (answer.bind f) where
  starts := answers.starts
  reads := by
    intro layout space rest blank delimited
    have first := answers.reads layout space rest blank delimited
    cases answer with
    | none =>
        exact bind_of_error first
    | some value =>
        rw [bind_of_ok first, Option.bind_some]
        cases f value <;> rfl

theorem map (answers : Answers reader text answer) (f : β → γ) :
    Answers (do pure (f (← reader))) text (answer.map f) := by
  rw [Option.map_eq_bind]
  exact answers.bind_given (some ∘ f)

/-- A whole text is read as its reader answers. -/
theorem whole (answers : Answers reader text answer) (layout : JsonLayout) :
    reader.whole ((text layout).map .char) = verdict answer := by
  have first := answers.reads layout [] [] blank_nil delimited_nil
  rw [List.nil_append, List.append_nil] at first
  rw [Reader.whole]
  cases answer with
  | none =>
      rw [bind_of_error first]
      rfl
  | some value =>
      rw [bind_of_ok first]
      rfl

end Answers

/-! ## Texts -/

theorem textBody_closing (s : List Symbol) : textBody none (.char '"' :: s) = .ok ([], s) := by
  rw [textBody.eq_def]
  rfl

theorem textBody_plain (backslash : c ≠ '\\') (quote : c ≠ '"') (printed : 32 ≤ c.toNat) :
    textBody none (.char c :: s) =
      (textBody none s).map fun (characters, rest) => (c :: characters, rest) := by
  rw [textBody.eq_def]
  simp [backslash, quote, Nat.not_lt.mpr printed]

theorem textBody_letter {letter : Char} (known : escape? letter = some c) :
    textBody none (.char '\\' :: .char letter :: s) =
      (textBody none s).map fun (characters, rest) => (c :: characters, rest) := by
  have other : letter ≠ 'u' := by
    rintro rfl
    cases known
  rw [textBody.eq_def]
  simp [known, other]

theorem textBody_code {first second third fourth : Symbol} {code : Nat}
    (found : hexCode first second third fourth = .ok code) (low : code < 0xD800) :
    textBody none (.char '\\' :: .char 'u' :: first :: second :: third :: fourth :: s) =
      (textBody none s).map fun (characters, rest) => (Char.ofNat code :: characters, rest) := by
  have notLow : ¬ 0xDC00 ≤ code := by omega
  rw [textBody.eq_def]
  simp [found, isHighHalf, isLowHalf, Nat.not_le.mpr low, notLow]

theorem hexCode_control : ∀ n < 32,
    hexCode (.char '0') (.char '0') (.char (Nat.digitChar (n / 16)))
      (.char (Nat.digitChar (n % 16))) = .ok n := by
  decide

/-- What is written for a character is read back as that character. -/
theorem textBody_escaped (c : Char) (s : List Symbol) :
    textBody none ((JsonText.escaped c).map .char ++ s) =
      (textBody none s).map fun (characters, rest) => (c :: characters, rest) := by
  have ofCode {code : Nat} (coded : c.toNat = code) : c = Char.ofNat code := by
    rw [← coded, Char.ofNat_toNat]
  rw [JsonText.escaped]
  split_ifs with quote backslash backspace tab newline feed carriageReturn control
  · subst quote
    exact textBody_letter rfl
  · subst backslash
    exact textBody_letter rfl
  · rw [ofCode backspace]
    exact textBody_letter rfl
  · rw [ofCode tab]
    exact textBody_letter rfl
  · rw [ofCode newline]
    exact textBody_letter rfl
  · rw [ofCode feed]
    exact textBody_letter rfl
  · rw [ofCode carriageReturn]
    exact textBody_letter rfl
  · have coded := textBody_code (s := s) (hexCode_control c.toNat control) (by omega)
    rw [Char.ofNat_toNat] at coded
    exact coded
  · exact textBody_plain backslash quote (Nat.not_lt.mp control)

/-- A text is read back character by character. -/
theorem textBody_quoted (characters : List Char) (rest : List Symbol) :
    textBody none ((characters.flatMap JsonText.escaped).map .char ++ .char '"' :: rest) =
      .ok (characters, rest) := by
  induction characters with
  | nil =>
      exact textBody_closing rest
  | cons c characters ih =>
      rw [List.flatMap_cons, List.map_append, List.append_assoc, textBody_escaped, ih]
      rfl

/-- The symbols of a text between quotes, and what follows them. -/
theorem map_quoted (characters : List Char) (rest : List Symbol) :
    (JsonText.quoted characters).map .char ++ rest =
      .char '"' :: ((characters.flatMap JsonText.escaped).map .char ++ .char '"' :: rest) := by
  simp [JsonText.quoted]

theorem openText_quoted (text : String) (rest : List Symbol) :
    openText ((text.toList.flatMap JsonText.escaped).map .char ++ .char '"' :: rest) =
      .ok (text, rest) := by
  rw [openText, textBody_quoted]
  simp [Except.map]

theorem answers_string (text : String) : Answers string (.string text) (some text) where
  starts := fun _ => ⟨'"', _, rfl, by decide⟩
  reads := by
    intro layout space rest blank _
    rw [JsonText.string, map_quoted, string, bind_of_ok (skipSpace_of_blank blank (by decide)),
      bind_of_ok peek_cons]
    show (do word ['"']; openText : Reader String) _ = _
    rw [bind_of_ok word_singleton, openText_quoted]
    rfl

/-! ## Lists -/

section

variable {layout : JsonLayout} {texts : List JsonText} {rest : List Symbol}

/-- Items with a comma in front of each, and the closing bracket. -/
def following (layout : JsonLayout) (closing : Char) (items : List JsonText) : List Char :=
  items.flatMap (fun value => ',' :: (layout.inner.lineBreak ++ value layout.inner)) ++
    layout.lineBreak ++ [closing]

/-- What stands behind an opening bracket. -/
def inside (layout : JsonLayout) (closing : Char) : List JsonText → List Char
  | [] => [closing]
  | first :: others =>
      layout.inner.lineBreak ++ (first layout.inner ++ following layout closing others)

theorem enclosed_eq (opening closing : Char) :
    JsonText.enclosed opening closing texts layout = opening :: inside layout closing texts := by
  cases texts with
  | nil =>
      rfl
  | cons first others =>
      simp [JsonText.enclosed, inside, following]

theorem map_following_nil (closing : Char) :
    (following layout closing []).map Symbol.char ++ rest =
      layout.lineBreak.map .char ++ .char closing :: rest := by
  simp [following]

theorem map_following_cons (closing : Char) (text : JsonText) :
    (following layout closing (text :: texts)).map Symbol.char ++ rest =
      .char ',' :: (layout.inner.lineBreak.map .char ++ ((text layout.inner).map .char ++
        ((following layout closing texts).map .char ++ rest))) := by
  simp [following]

theorem map_inside_cons (closing : Char) (text : JsonText) :
    (inside layout closing (text :: texts)).map Symbol.char ++ rest =
      layout.inner.lineBreak.map .char ++ ((text layout.inner).map .char ++
        ((following layout closing texts).map .char ++ rest)) := by
  simp [inside]

theorem delimited_following {closing : Char} (mark : closing ∈ [',', ']', '}', '\n']) :
    Delimited ((following layout closing texts).map .char ++ rest) := by
  cases texts with
  | nil =>
      rw [map_following_nil]
      exact delimited_lineBreak mark
  | cons text texts =>
      rw [map_following_cons]
      exact delimited_cons (by decide)

theorem length_following (closing : Char) :
    texts.length < (following layout closing texts).length := by
  have commas : texts.length ≤ (texts.flatMap fun value =>
      ',' :: (layout.inner.lineBreak ++ value layout.inner)).length := by
    induction texts with
    | nil =>
        exact Nat.le_refl 0
    | cons text texts ih =>
        simp only [List.length_cons, List.flatMap_cons, List.length_append]
        omega
  simp only [following, List.length_append, List.length_singleton]
  omega

variable {item : Reader β} {text : JsonText} {answer : Option β} {answers : List (Option β)}

theorem more_of_first (head : Answers item text answer) (blank : Blank space) :
    more true (space ++ ((text layout).map .char ++ s)) =
      .ok (true, (text layout).map .char ++ s) := by
  rcases head.starts layout with ⟨c, others, begins, dark, comma, bracket⟩
  rw [begins, List.map_cons, List.cons_append, more,
    bind_of_ok (skipSpace_of_blank blank dark), bind_of_ok peek_cons]
  simp [pure_apply]

theorem more_of_comma (head : Answers item text answer) (blank : Blank space) :
    more false (.char ',' :: (space ++ ((text layout).map .char ++ s))) =
      .ok (true, (text layout).map .char ++ s) := by
  rcases head.starts layout with ⟨c, others, begins, dark, -, bracket⟩
  rw [begins, List.map_cons, List.cons_append, more,
    bind_of_ok (skipSpace_of_dark (by decide)), bind_of_ok peek_cons]
  simp only [Bool.false_eq_true, ↓reduceIte]
  rw [bind_of_ok word_singleton, bind_of_ok (skipSpace_of_blank blank dark), bind_of_ok peek_cons]
  simp [pure_apply]

theorem more_of_closing (first : Bool) (blank : Blank space) :
    more first (space ++ .char ']' :: s) = .ok (false, .char ']' :: s) := by
  rw [more, bind_of_ok (skipSpace_of_blank blank (by decide)), bind_of_ok peek_cons]
  rfl

/-- An item and those behind it, once it is known what becomes of them. -/
theorem bind_more {others last : Reader (List β)} {first : Bool} {later : Option (List β)}
    {left : List Symbol} (head : Answers item text answer) (delimited : Delimited left)
    (ready : more first s = .ok (true, (text layout).map .char ++ left))
    (behind : others left = outcome rest later) :
    (do
      if ← more first then
        let value ← item
        let values ← others
        pure (value :: values)
      else last : Reader (List β)) s =
      outcome rest (do let value ← answer; let values ← later; pure (value :: values)) := by
  have taken := head.reads layout [] left blank_nil delimited
  rw [List.nil_append] at taken
  rw [bind_of_ok ready, if_pos rfl]
  cases answer with
  | none =>
      exact bind_of_error taken
  | some value =>
      rw [bind_of_ok taken]
      cases later with
      | none =>
          exact bind_of_error behind
      | some values =>
          rw [bind_of_ok behind]
          rfl

/-- There are more characters behind an opening bracket than items. -/
theorem length_inside (closing : Char) (filled : ∀ first ∈ texts.head?, first layout.inner ≠ []) :
    texts.length < (inside layout closing texts).length := by
  cases texts with
  | nil =>
      exact Nat.one_pos
  | cons first others =>
      have one : 0 < (first layout.inner).length := List.length_pos_iff.mpr (filled first rfl)
      have behind : others.length < (following layout closing others).length :=
        length_following closing
      simp only [inside, List.length_cons, List.length_append]
      omega

/-- Items are read until one is refused or the closing bracket stands at the front. -/
theorem items_following (each : List.Forall₂ (Answers item) texts answers) {budget : Nat}
    (enough : texts.length < budget) :
    items item false budget ((following layout ']' texts).map .char ++ rest) =
      outcome (.char ']' :: rest) (answers.mapM id) := by
  induction each generalizing budget with
  | nil =>
      rcases Nat.exists_eq_add_one.mpr enough with ⟨budget, rfl⟩
      rw [map_following_nil, items,
        bind_of_ok (more_of_closing false (blank_lineBreak layout))]
      rfl
  | cons head _ ih =>
      rcases Nat.exists_eq_add_one.mpr (Nat.zero_lt_of_lt enough) with ⟨budget, rfl⟩
      rw [map_following_cons, items, List.mapM_cons]
      exact bind_more head (delimited_following (by decide))
        (more_of_comma head (blank_lineBreak layout.inner)) (ih (Nat.lt_of_succ_lt_succ enough))

theorem items_inside (each : List.Forall₂ (Answers item) texts answers) {budget : Nat}
    (enough : texts.length < budget) :
    items item true budget ((inside layout ']' texts).map .char ++ rest) =
      outcome (.char ']' :: rest) (answers.mapM id) := by
  rcases Nat.exists_eq_add_one.mpr (Nat.zero_lt_of_lt enough) with ⟨budget, rfl⟩
  cases each with
  | nil =>
      show items item true (budget + 1) ([] ++ .char ']' :: rest) = _
      rw [items, bind_of_ok (more_of_closing true blank_nil)]
      rfl
  | cons head later =>
      rw [map_inside_cons, items, List.mapM_cons]
      exact bind_more head (delimited_following (by decide))
        (more_of_first head (blank_lineBreak layout.inner))
        (items_following later (Nat.lt_of_succ_lt_succ enough))

/-- A fixed number of items is read like any list that has so many. -/
theorem exactly_following (each : List.Forall₂ (Answers item) texts answers) :
    exactly item false texts.length ((following layout ']' texts).map .char ++ rest) =
      outcome (layout.lineBreak.map .char ++ .char ']' :: rest) (answers.mapM id) := by
  induction each with
  | nil =>
      rw [map_following_nil]
      rfl
  | cons head _ ih =>
      rw [map_following_cons, List.length_cons, exactly, List.mapM_cons]
      exact bind_more head (delimited_following (by decide))
        (more_of_comma head (blank_lineBreak layout.inner)) ih

theorem exactly_inside (layout : JsonLayout) (rest : List Symbol)
    (each : List.Forall₂ (Answers item) texts answers) :
    ∃ space, Blank space ∧
      exactly item true texts.length ((inside layout ']' texts).map .char ++ rest) =
        outcome (space ++ .char ']' :: rest) (answers.mapM id) := by
  cases each with
  | nil =>
      exact ⟨[], blank_nil, rfl⟩
  | cons head later =>
      refine ⟨_, blank_lineBreak layout, ?_⟩
      rw [map_inside_cons, List.length_cons, exactly, List.mapM_cons]
      exact bind_more head (delimited_following (by decide))
        (more_of_first head (blank_lineBreak layout.inner)) (exactly_following later)

theorem openList_of_blank (blank : Blank space) :
    openList (space ++ .char '[' :: s) = .ok ((), s) := by
  rw [openList, bind_of_ok (skipSpace_of_blank blank (by decide)), bind_of_ok peek_cons]
  exact word_singleton

/-- The closing bracket of a list behind its items. -/
theorem bind_mark {values : Reader (List β)} {found : Option (List β)} (blank : Blank space)
    (read : values s = outcome (space ++ .char ']' :: rest) found) :
    (do let values ← values; mark ']'; pure values : Reader (List β)) s = outcome rest found := by
  cases found with
  | none =>
      exact bind_of_error read
  | some values =>
      rw [bind_of_ok read, bind_of_ok (mark_of_blank blank (by decide))]
      rfl

/-- A list is read item by item. -/
theorem answers_list (each : List.Forall₂ (Answers item) texts answers) :
    Answers (list item) (.list texts) (answers.mapM id) where
  starts := by
    intro layout
    exact ⟨'[', _, enclosed_eq '[' ']', by decide⟩
  reads := by
    intro layout space rest blank _
    rw [JsonText.list, enclosed_eq, List.map_cons, List.cons_append, list,
      bind_of_ok (openList_of_blank blank)]
    have enough : texts.length < ((inside layout ']' texts).map Symbol.char ++ rest).length := by
      rw [List.length_append, List.length_map]
      apply Nat.lt_add_right rest.length (length_inside ']' _)
      cases each with
      | nil =>
          exact fun _ none => nomatch none
      | cons head _ =>
          rintro _ ⟨⟩
          exact head.ne_nil layout.inner
    exact bind_mark blank_nil (items_inside each enough)

/-- A list of a fixed length is read item by item. -/
theorem answers_array (each : List.Forall₂ (Answers item) texts answers) :
    Answers (array texts.length item) (.list texts) (answers.mapM id) where
  starts := (answers_list each).starts
  reads := by
    intro layout space rest blank _
    rcases exactly_inside layout rest each with ⟨left, leftBlank, read⟩
    rw [JsonText.list, enclosed_eq, List.map_cons, List.cons_append, array,
      bind_of_ok (openList_of_blank blank)]
    exact bind_mark leftBlank read

end

end Reader

end ImmersedBody
