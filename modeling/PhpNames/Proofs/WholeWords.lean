import PhpNames.Proofs.Batches
import PhpNames.Word

/-!
Words of a line and words of a text.

A word stands in a text where a run of name characters cannot be made longer on either side. Two
words of one text are the same or have something between them, so a column touches at most one. The
word that a position of a plain document touches is the one in which the beginning of the document
that ends there breaks off.
-/

namespace PhpNames

open Text

namespace Word

/-- A whole word between what stands before it and what stands after it. -/
structure Stands (before word after : Text) : Prop where
  nonempty : word ≠ []
  parts : ∀ c ∈ word, isNamePart c = true
  left : ∀ c ∈ before.getLast?, isNamePart c = false
  right : ∀ c ∈ after.head?, isNamePart c = false

theorem is_name_part_lt {c : Char} (part : isNamePart c = true) : c.toNat < 0x80 := by
  simp only [isNamePart, Bool.or_eq_true, beq_iff_eq] at part
  rcases part with alphanumeric | rfl
  · delta Char.isAlphanum Char.isAlpha Char.isUpper Char.isLower Char.isDigit at alphanumeric
    simp only [Bool.or_eq_true, Bool.and_eq_true, decide_eq_true_eq, ge_iff_le,
      UInt32.le_iff_toNat_le] at alphanumeric
    have limits : 'Z'.val.toNat = 90 ∧ 'z'.val.toNat = 122 ∧ '9'.val.toNat = 57 := by decide
    simp only [Char.toNat]
    omega
  · decide

theorem units_of_name_part {c : Char} (part : isNamePart c = true) : unitsOf c = 1 := by
  have small := is_name_part_lt part
  rw [unitsOf, if_pos (by omega)]

theorem is_break_name_part {c : Char} (part : isNamePart c = true) :
    Document.isBreak c = false := by
  by_contra breaks
  simp only [Document.isBreak, Bool.not_eq_false, Bool.or_eq_true, beq_iff_eq] at breaks
  rcases breaks with (((((rfl | rfl) | rfl) | rfl) | rfl) | rfl) | rfl <;>
    exact absurd part (by decide)

theorem is_name_part_break {c : Char} (breaks : Document.isBreak c = true) :
    isNamePart c = false := by
  by_contra part
  rw [is_break_name_part (by simpa using part)] at breaks
  cases breaks

theorem units_word {word : Text} (parts : ∀ c ∈ word, isNamePart c = true) :
    units word = word.length := by
  induction word with
  | nil => rfl
  | cons c rest induction =>
      rw [units_cons, units_of_name_part (parts c List.mem_cons_self),
        induction fun d member => parts d (List.mem_cons_of_mem c member), List.length_cons]
      omega

theorem unbroken_word {word : Text} (parts : ∀ c ∈ word, isNamePart c = true) :
    Unbroken word :=
  fun c member => is_break_name_part (parts c member)

section Surroundings

variable {before word after front back : Text}

theorem Stands.shed_left (stands : Stands (front ++ before) word after) :
    Stands before word after := by
  refine ⟨stands.nonempty, stands.parts, ?_, stands.right⟩
  intro c last
  exact stands.left c (List.mem_getLast?_append_of_mem_getLast? last)

theorem Stands.shed_right (stands : Stands before word (after ++ back)) :
    Stands before word after := by
  refine ⟨stands.nonempty, stands.parts, stands.left, ?_⟩
  intro c first
  exact stands.right c (List.mem_head?_append_of_mem_head? first)

theorem Stands.widen_left (stands : Stands before word after)
    (left : before = [] → ∀ c ∈ front.getLast?, isNamePart c = false) :
    Stands (front ++ before) word after := by
  refine ⟨stands.nonempty, stands.parts, ?_, stands.right⟩
  by_cases empty : before = []
  · rw [empty, List.append_nil]
    exact left empty
  · rw [List.getLast?_append_of_ne_nil front empty]
    exact stands.left

theorem Stands.widen_right (stands : Stands before word after)
    (right : after = [] → ∀ c ∈ back.head?, isNamePart c = false) :
    Stands before word (after ++ back) := by
  refine ⟨stands.nonempty, stands.parts, stands.left, ?_⟩
  by_cases empty : after = []
  · rw [empty, List.nil_append]
    exact right empty
  · rw [List.head?_append_of_ne_nil after empty]
    exact stands.right

end Surroundings

/-! ### Two words of one text -/

section Apart

variable {before word after otherBefore otherWord otherAfter : Text}

theorem Stands.prefix_eq (stands : Stands before word after)
    (other : Stands otherBefore otherWord otherAfter)
    (same : word ++ after = otherWord ++ otherAfter) : word = otherWord ∧ after = otherAfter := by
  rcases List.append_eq_append_iff.mp same with ⟨more, rfl, rfl⟩ | ⟨more, rfl, rfl⟩
  · cases more with
    | nil => simp
    | cons c rest =>
        have part := other.parts c (by simp)
        rw [stands.right c (by simp)] at part
        cases part
  · cases more with
    | nil => simp
    | cons c rest =>
        have part := stands.parts c (by simp)
        rw [other.right c (by simp)] at part
        cases part

/-- A word that starts no earlier than another is that word, or has something in between. -/
theorem Stands.same_or_behind (stands : Stands before word after)
    (other : Stands otherBefore otherWord otherAfter)
    (same : before ++ word ++ after = otherBefore ++ otherWord ++ otherAfter)
    (le : before.length ≤ otherBefore.length) :
    before = otherBefore ∧ word = otherWord ∧ after = otherAfter ∨
      ∃ between, between ≠ [] ∧ otherBefore = before ++ word ++ between ∧
        after = between ++ otherWord ++ otherAfter := by
  rw [List.append_assoc, List.append_assoc] at same
  obtain ⟨gap, rfl⟩ : before <+: otherBefore := by
    apply List.prefix_of_prefix_length_le (List.prefix_append before (word ++ after)) _ le
    rw [same]
    exact List.prefix_append _ _
  rw [List.append_assoc, List.append_cancel_left_eq] at same
  by_cases empty : gap = []
  · subst empty
    obtain ⟨sameWord, sameAfter⟩ := stands.prefix_eq other same
    exact Or.inl ⟨(List.append_nil before).symm, sameWord, sameAfter⟩
  · right
    rcases List.append_eq_append_iff.mp same with ⟨between, rfl, rfl⟩ | ⟨more, rfl, -⟩
    · refine ⟨between, ?_, by rw [List.append_assoc], by rw [List.append_assoc]⟩
      -- without anything in between, the other word would make this one longer
      rintro rfl
      obtain ⟨first, rest, rfl⟩ := List.exists_cons_of_ne_nil other.nonempty
      have part := other.parts first List.mem_cons_self
      rw [stands.right first (by simp)] at part
      cases part
    · -- the other word would start inside this one
      obtain ⟨front, last, rfl⟩ := List.eq_nil_or_concat gap |>.resolve_left empty
      have part := stands.parts last (by simp)
      rw [other.left last (by simp)] at part
      cases part

theorem Stands.same_or_apart (stands : Stands before word after)
    (other : Stands otherBefore otherWord otherAfter)
    (same : before ++ word ++ after = otherBefore ++ otherWord ++ otherAfter) :
    before = otherBefore ∧ word = otherWord ∧ after = otherAfter ∨
      (∃ between, between ≠ [] ∧ otherBefore = before ++ word ++ between ∧
        after = between ++ otherWord ++ otherAfter) ∨
      ∃ between, between ≠ [] ∧ before = otherBefore ++ otherWord ++ between ∧
        otherAfter = between ++ word ++ after := by
  rcases Nat.le_total before.length otherBefore.length with le | le
  · rcases stands.same_or_behind other same le with equal | behind
    · exact Or.inl equal
    · exact Or.inr (Or.inl behind)
  · rcases other.same_or_behind stands same.symm le with ⟨rfl, rfl, rfl⟩ | behind
    · exact Or.inl ⟨rfl, rfl, rfl⟩
    · exact Or.inr (Or.inr behind)

end Apart

/-! ### The words of a line -/

/-- Where a word stands in a text whose first character has the column `column`. -/
structure Found (column : Nat) (text : Text) (word : Word) (before after : Text) : Prop where
  split : text = before ++ word.text ++ after
  stands : Stands before word.text after
  start_eq : word.start = column + units before
  stop_eq : word.stop = word.start + word.text.length

theorem Found.eq {column : Nat} {text : Text} {word other : Word} {before after : Text}
    (found : Found column text word before after)
    (otherFound : Found column text other before after) (same : word.text = other.text) :
    word = other := by
  have starts := found.start_eq.trans otherFound.start_eq.symm
  have stops := found.stop_eq
  rw [starts, same, ← otherFound.stop_eq] at stops
  cases word
  cases other
  simp_all

section Reading

variable {column : Nat} {word : Word} {before after rest : Text} {c : Char}

theorem not_found_nil : ¬ Found column [] word before after := by
  intro found
  have split := found.split
  simp only [List.nil_eq, List.append_eq_nil_iff] at split
  exact found.stands.nonempty split.1.2

theorem Found.before_ne_nil (found : Found column rest word before after)
    (other : ∀ c ∈ rest.head?, isNamePart c = false) : before ≠ [] := by
  rintro rfl
  obtain ⟨first, others, text_eq⟩ := List.exists_cons_of_ne_nil found.stands.nonempty
  have part := found.stands.parts first (by rw [text_eq]; exact List.mem_cons_self)
  rw [other first (by rw [found.split, text_eq]; rfl)] at part
  cases part

theorem exists_found_cons (other : isNamePart c = false) :
    (∃ before after, Found column (c :: rest) word before after) ↔
      ∃ before after, Found (column + unitsOf c) rest word before after := by
  constructor
  · rintro ⟨before, after, found⟩
    have nonempty := found.before_ne_nil (by simpa using other)
    obtain ⟨first, front, rfl⟩ := List.exists_cons_of_ne_nil nonempty
    obtain ⟨rfl, rest_eq⟩ := List.cons.inj found.split
    have stands : Stands ([c] ++ front) word.text after := found.stands
    refine ⟨front, after, rest_eq, stands.shed_left, ?_, found.stop_eq⟩
    rw [found.start_eq, units_cons]
    omega
  · rintro ⟨before, after, found⟩
    have stands : Stands ([c] ++ before) word.text after :=
      found.stands.widen_left fun _ => by simpa using other
    refine ⟨c :: before, after, by rw [found.split]; rfl, stands, ?_, found.stop_eq⟩
    rw [found.start_eq, units_cons]
    omega

theorem exists_found_run {letters : Text} (nonempty : letters ≠ [])
    (parts : ∀ c ∈ letters, isNamePart c = true) (other : ∀ c ∈ rest.head?, isNamePart c = false) :
    (∃ before after, Found column (letters ++ rest) word before after) ↔
      word = ⟨column, column + letters.length, letters⟩ ∨
        ∃ before after, Found (column + letters.length) rest word before after := by
  have whole : Found column (letters ++ rest) ⟨column, column + letters.length, letters⟩ [] rest :=
    ⟨rfl, ⟨nonempty, parts, by simp, other⟩, by simp, rfl⟩
  constructor
  · rintro ⟨before, after, found⟩
    rcases whole.stands.same_or_apart found.stands (whole.split.symm.trans found.split) with
      ⟨rfl, same, rfl⟩ | ⟨between, apart, rfl, rest_eq⟩ | ⟨between, apart, none, -⟩
    · exact Or.inl (found.eq whole same.symm)
    · refine Or.inr ⟨between, after, rest_eq, found.stands.shed_left, ?_, found.stop_eq⟩
      rw [found.start_eq, List.nil_append, units_append, units_word parts]
      omega
    · simp [apart] at none
  · rintro (rfl | ⟨before, after, found⟩)
    · exact ⟨[], rest, whole⟩
    · have stands : Stands (letters ++ before) word.text after :=
        found.stands.widen_left fun empty => absurd empty (found.before_ne_nil other)
      refine ⟨letters ++ before, after, by rw [found.split]; simp, stands, ?_, found.stop_eq⟩
      rw [found.start_eq, units_append, units_word parts]
      omega

end Reading

theorem mem_read_from {text run : Text} {column : Nat} {word : Word}
    (parts : ∀ c ∈ run, isNamePart c = true) (room : run.length ≤ column) :
    word ∈ readFrom column run text ↔
      ∃ before after, Found (column - run.length) (run.reverse ++ text) word before after := by
  induction text generalizing column run with
  | nil =>
      by_cases empty : run = []
      · simp [readFrom, empty, not_found_nil]
      · rw [exists_found_run (by simpa using empty) (by simpa using parts) (by simp),
          List.length_reverse, Nat.sub_add_cancel room]
        simp [readFrom, empty, not_found_nil]
  | cons c rest induction =>
      by_cases part : isNamePart c = true
      · have longer : ∀ d ∈ c :: run, isNamePart d = true := by simpa [part] using parts
        have more : word ∈ readFrom (column + 1) (c :: run) rest ↔ _ :=
          induction longer (Nat.succ_le_succ room)
        rw [readFrom, if_pos part, more]
        simp
      · have other : isNamePart c = false := by simpa using part
        have skipped : word ∈ readFrom (column + unitsOf c) [] rest ↔ _ :=
          induction (by simp) (Nat.zero_le _)
        by_cases empty : run = []
        · subst empty
          rw [readFrom, if_neg part, List.isEmpty_nil, if_pos rfl, skipped]
          exact (exists_found_cons other).symm
        · rw [exists_found_run (by simpa using empty) (by simpa using parts) (by simpa using other),
            List.length_reverse, Nat.sub_add_cancel room, exists_found_cons other]
          rw [readFrom, if_neg part, if_neg (by simpa using empty), List.mem_cons, skipped]
          rfl

theorem mem_all {line : Text} {word : Word} :
    word ∈ all line ↔ ∃ before after, Found 0 line word before after :=
  mem_read_from (by simp) (Nat.zero_le 0)

theorem touches_iff {word : Word} {column : Nat} :
    word.touches column = true ↔ word.start ≤ column ∧ column ≤ word.stop := by
  simp [touches]

/-- A column touches at most one word, so the first word that it touches is any that it touches. -/
theorem in_line?_eq_some {line : Text} {column : Nat} {word : Word} :
    inLine? line column = some word ↔
      (∃ before after, Found 0 line word before after) ∧ word.start ≤ column ∧
        column ≤ word.stop := by
  constructor
  · intro found
    have touched : word.touches column = true := by simpa using List.find?_some found
    exact ⟨mem_all.mp (List.mem_of_find?_eq_some found), touches_iff.mp touched⟩
  · rintro ⟨⟨before, after, found⟩, starts, stops⟩
    cases searched : inLine? line column with
    | none =>
        have missed := List.find?_eq_none.mp searched word (mem_all.mpr ⟨before, after, found⟩)
        exact absurd (touches_iff.mpr ⟨starts, stops⟩) missed
    | some other =>
        obtain ⟨otherBefore, otherAfter, otherFound⟩ :=
          mem_all.mp (List.mem_of_find?_eq_some searched)
        have touched : other.touches column = true := by simpa using List.find?_some searched
        obtain ⟨otherStarts, otherStops⟩ := touches_iff.mp touched
        have start_eq := found.start_eq
        have stop_eq := found.stop_eq
        have otherStart_eq := otherFound.start_eq
        have otherStop_eq := otherFound.stop_eq
        rcases found.stands.same_or_apart otherFound.stands
          (found.split.symm.trans otherFound.split) with
          ⟨rfl, same, rfl⟩ | ⟨between, apart, rfl, -⟩ | ⟨between, apart, rfl, -⟩
        · rw [found.eq otherFound same]
        · have positive := units_pos apart
          rw [units_append, units_append, units_word found.stands.parts] at otherStart_eq
          omega
        · have positive := units_pos apart
          rw [units_append, units_append, units_word otherFound.stands.parts] at start_eq
          omega

end Word

/-! ### The words of a document -/

namespace Document

open Word Position

/-- The word that a position touches, between what stands before it and what stands after it. -/
structure WordAt (document : Document) (position : Position) (word : Word) (before after : Text) :
    Prop where
  split : document.text = before ++ word.text ++ after
  stands : Stands before word.text after
  start_eq : endOf before = ⟨position.line, word.start⟩
  stop_eq : word.stop = word.start + word.text.length
  starts : word.start ≤ position.column
  stops : position.column ≤ word.stop

section WordAt

variable {document : Document} {position : Position} {word : Word} {before after letters : Text}

theorem end_of_take_word (stands : Stands before letters after) {count : Nat}
    (within : count ≤ letters.length) :
    endOf (before ++ letters.take count) =
      ⟨(endOf before).line, (endOf before).column + count⟩ := by
  have parts : ∀ c ∈ letters.take count, isNamePart c = true :=
    fun c member => stands.parts c (List.mem_of_mem_take member)
  rw [end_of_append, advance_unbroken _ (unbroken_word parts), units_word parts, List.length_take,
    Nat.min_eq_left within]

theorem word_at_take (split : document.text = before ++ letters ++ after)
    (stands : Stands before letters after) {count : Nat} (within : count ≤ letters.length) :
    document.WordAt (endOf (before ++ letters.take count))
      ⟨(endOf before).column, (endOf before).column + letters.length, letters⟩ before after := by
  rw [end_of_take_word stands within]
  exact ⟨split, stands, rfl, rfl, Nat.le_add_right _ _, Nat.add_le_add_left within _⟩

theorem WordAt.end_of_take (touched : document.WordAt position word before after) (count : Nat)
    (within : count ≤ word.text.length) :
    endOf (before ++ word.text.take count) = ⟨position.line, word.start + count⟩ := by
  rw [end_of_take_word touched.stands within, touched.start_eq]

theorem WordAt.reach_le (touched : document.WordAt position word before after) :
    position.column - word.start ≤ word.text.length := by
  have stops := touched.stops
  rw [touched.stop_eq] at stops
  omega

theorem WordAt.range_eq (touched : document.WordAt position word before after) :
    word.range position.line = ⟨endOf before, endOf (before ++ word.text)⟩ := by
  have stop := touched.end_of_take word.text.length le_rfl
  rw [List.take_length] at stop
  rw [stop, touched.start_eq, ← touched.stop_eq]
  rfl

/-- Words hold no line break, so the cuts on both sides of one leave plain texts. -/
theorem WordAt.plain (touched : document.WordAt position word before after)
    (plain : Plain document.text) : Plain before ∧ Plain after := by
  have parts := touched.stands.parts
  obtain ⟨first, rest, text_eq⟩ := List.exists_cons_of_ne_nil touched.stands.nonempty
  rw [touched.split, List.append_assoc] at plain
  have cut := plain.split (by
    rintro ⟨-, feed⟩
    rw [text_eq, List.cons_append, List.head?_cons, Option.some.injEq] at feed
    exact absurd (parts first (by simp [text_eq])) (by simp [feed, isNamePart]))
  exact ⟨cut.1, (plain_unbroken_append (unbroken_word parts) after).mp cut.2⟩

theorem WordAt.fits (touched : document.WordAt position word before after)
    (plain : Plain document.text) {text : Text} (textPlain : Plain text) :
    Edit.Fits ⟨word.range position.line, text⟩ before word.text after := by
  obtain ⟨beforePlain, afterPlain⟩ := touched.plain plain
  exact ⟨beforePlain, (unbroken_word touched.stands.parts).plain, afterPlain, textPlain,
    congrArg Range.start touched.range_eq, congrArg Range.stop touched.range_eq⟩

/-- A word that a position touches stands on the line of the position. -/
theorem exists_word_at_line (plain : Plain document.text)
    (found : document.wordAt? position = some word) :
    ∃ before front back after,
      document.LineAt position.line before (front ++ word.text ++ back) after ∧
      document.WordAt position word (before ++ front) (back ++ after) := by
  rw [wordAt?, Option.bind_eq_bind, Option.bind_eq_some_iff] at found
  obtain ⟨body, line_eq, found⟩ := found
  obtain ⟨before, after, line⟩ := exists_line_at plain line_eq
  obtain ⟨⟨front, back, inBody⟩, starts, stops⟩ := in_line?_eq_some.mp found
  rw [inBody.split] at line
  refine ⟨before, front, back, after, line, ?_, ?_, ?_, inBody.stop_eq, starts, stops⟩
  · rw [line.split]
    simp only [List.append_assoc]
  · refine (inBody.stands.widen_left ?_).widen_right ?_
    · intro _ c last
      rw [line.left c last]
      decide
    · intro _ c first
      exact is_name_part_break (line.right c first)
  · have unbroken := line.unbroken
    rw [List.append_assoc, unbroken_append] at unbroken
    rw [end_of_append, line.start_eq, advance_unbroken _ unbroken.1, inBody.start_eq]

theorem word_at?_eq_some (plain : Plain document.text) :
    document.wordAt? position = some word ↔
      ∃ before after, document.WordAt position word before after := by
  rw [wordAt?, Option.bind_eq_bind, Option.bind_eq_some_iff]
  constructor
  · intro found
    obtain ⟨before, front, back, after, -, touched⟩ :=
      exists_word_at_line plain (Option.bind_eq_some_iff.mpr found)
    exact ⟨before ++ front, back ++ after, touched⟩
  · rintro ⟨before, after, touched⟩
    obtain ⟨beforePlain, afterPlain⟩ := touched.plain plain
    have unbroken := unbroken_word touched.stands.parts
    obtain ⟨upto, front, back, rest, rfl, cut, line⟩ :=
      exists_line_at_cut (touched.split.trans (List.append_assoc _ _ _)) beforePlain
        (unbroken.plain.append afterPlain)
    rw [touched.start_eq] at line
    refine ⟨front ++ back, line.line_eq, ?_⟩
    -- the word cannot reach beyond its line
    obtain ⟨tail, rfl, rfl⟩ : ∃ tail, back = word.text ++ tail ∧ after = tail ++ rest := by
      rcases List.append_eq_append_iff.mp cut with inside | ⟨beyond, text_eq, rest_eq⟩
      · exact inside
      · cases beyond with
        | nil => exact ⟨[], by simpa using text_eq.symm, by simpa using rest_eq.symm⟩
        | cons c more =>
            have part := touched.stands.parts c (by simp [text_eq])
            rw [is_name_part_break (line.right c (by simp [rest_eq]))] at part
            cases part
    have frontUnbroken := (unbroken_append.mp line.unbroken).1
    have start_eq := touched.start_eq
    rw [end_of_append, line.start_eq, advance_unbroken _ frontUnbroken] at start_eq
    refine in_line?_eq_some.mpr ⟨⟨front, tail, by simp, touched.stands.shed_left.shed_right, ?_,
      touched.stop_eq⟩,
      touched.starts, touched.stops⟩
    exact (congrArg Position.column start_eq).symm

end WordAt
end Document
end PhpNames
