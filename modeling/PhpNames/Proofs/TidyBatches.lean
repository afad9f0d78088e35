import PhpNames.Proofs.WholeWords

/-!
Batches that keep words whole.

A tidy edit replaces a stretch that has no word reaching into it from either side, or inserts text
that ends in a line feed where no word ends. A word that no replaced stretch overlaps comes through
a batch of tidy edits unchanged, and a cursor in it stays between the same characters.
-/

namespace PhpNames

open Text Word Position

namespace Edit

structure Tidy (edit : Edit) (before replaced after : Text) : Prop
    extends edit.Fits before replaced after where
  left : ∀ c ∈ before.getLast?, isNamePart c = false
  right : replaced ≠ [] → after ≠ [] ∧ ∀ c ∈ after.head?, isNamePart c = false
  inserted : replaced = [] → edit.text.getLast? = some '\n'

inductive Tidied : Text → List Edit → Text → Prop where
  | nil (text : Text) : Tidied text [] text
  | cons {edit : Edit} {before replaced after rewritten : Text} {rest : List Edit}
      (tidy : edit.Tidy before replaced after) (tidied : Tidied before rest rewritten) :
      Tidied (before ++ replaced ++ after) (edit :: rest) (rewritten ++ edit.text ++ after)

theorem Tidied.stacked {text rewritten : Text} {edits : List Edit}
    (tidied : Tidied text edits rewritten) : Stacked text edits rewritten := by
  induction tidied with
  | nil text => exact .nil text
  | cons tidy _ induction => exact .cons tidy.toFits induction

/-! ### A word outside all replaced stretches -/

theorem not_left_of_word {front word : Text} (nonempty : word ≠ [])
    (parts : ∀ c ∈ word, isNamePart c = true) :
    ¬ ∀ c ∈ (front ++ word).getLast?, isNamePart c = false := by
  intro left
  have part := parts (word.getLast nonempty) (List.getLast_mem nonempty)
  rw [List.getLast?_append_of_ne_nil front nonempty] at left
  rw [left _ (List.getLast?_eq_some_getLast nonempty)] at part
  cases part

theorem not_right_of_word {word back : Text} (nonempty : word ≠ [])
    (parts : ∀ c ∈ word, isNamePart c = true) :
    ¬ ∀ c ∈ (word ++ back).head?, isNamePart c = false := by
  intro right
  have part := parts (word.head nonempty) (List.head_mem nonempty)
  rw [List.head?_append_of_ne_nil word nonempty] at right
  rw [right _ (List.head?_eq_some_head nonempty)] at part
  cases part

variable {edit : Edit} {before replaced after front word back : Text}

theorem Fits.start_lt_stop (fits : edit.Fits before replaced after) (nonempty : replaced ≠ []) :
    edit.range.start < edit.range.stop := by
  rw [fits.start_eq, fits.stop_eq, end_of_append]
  exact lt_advance _ nonempty

theorem Tidy.sides (tidy : edit.Tidy before replaced after) (stands : Stands front word back)
    (same : before ++ replaced ++ after = front ++ word ++ back)
    (clear : edit.range.start < edit.range.stop →
      edit.range.stop ≤ endOf front ∨ endOf (front ++ word) ≤ edit.range.start) :
    (∃ mid, front = before ++ replaced ++ mid ∧ after = mid ++ word ++ back) ∨
      ∃ mid, mid ≠ [] ∧ before = front ++ word ++ mid ∧ back = mid ++ replaced ++ after := by
  by_cases behind : endOf (before ++ replaced) ≤ endOf front
  · left
    obtain ⟨mid, front_eq, after_eq⟩ :=
      Position.exists_between (same.trans (List.append_assoc _ _ _)) behind
    exact ⟨mid, front_eq, after_eq.trans (List.append_assoc _ _ _).symm⟩
  · right
    have ahead : endOf (front ++ word) ≤ endOf before := by
      by_cases empty : replaced = []
      · -- an insertion inside the word would stand behind one of its characters
        subst empty
        rw [List.append_nil] at behind same
        by_contra inside
        obtain ⟨inner, before_eq, -⟩ := Position.exists_between
          ((List.append_assoc _ _ _).symm.trans same.symm) (not_le.mp behind).le
        obtain ⟨outer, whole, -⟩ := Position.exists_between same (not_le.mp inside).le
        rw [before_eq, List.append_assoc, List.append_cancel_left_eq] at whole
        have inner_ne : inner ≠ [] := by
          rintro rfl
          rw [before_eq, List.append_nil] at behind
          exact behind le_rfl
        have parts : ∀ c ∈ inner, isNamePart c = true :=
          fun c member => stands.parts c (whole ▸ List.mem_append_left outer member)
        exact not_left_of_word inner_ne parts (before_eq ▸ tidy.left)
      · rcases clear (tidy.start_lt_stop empty) with stopLe | startGe
        · exact absurd (tidy.stop_eq ▸ stopLe) behind
        · exact tidy.start_eq ▸ startGe
    obtain ⟨mid, before_eq, back_eq⟩ :=
      Position.exists_between (same.symm.trans (List.append_assoc _ _ _)) ahead
    refine ⟨mid, ?_, before_eq, back_eq.trans (List.append_assoc _ _ _).symm⟩
    rintro rfl
    rw [List.append_nil] at before_eq
    exact not_left_of_word stands.nonempty stands.parts (before_eq ▸ tidy.left)

/-- Nothing of a word behind the edit touches the new text. -/
theorem Tidy.stands_behind {mid : Text} (tidy : edit.Tidy before replaced after)
    (stands : Stands (before ++ replaced ++ mid) word back) (after_eq : after = mid ++ word ++ back)
    (rewritten : Text) : Stands (rewritten ++ edit.text ++ mid) word back := by
  apply stands.shed_left.widen_left
  rintro rfl c last
  have empty : replaced = [] := by
    by_contra nonempty
    obtain ⟨-, right⟩ := tidy.right nonempty
    rw [after_eq] at right
    exact not_right_of_word stands.nonempty stands.parts right
  rw [List.getLast?_append, tidy.inserted empty, Option.some_or] at last
  rw [← Option.some.inj last]
  decide

variable {text rewritten : Text} {edits : List Edit}

/-- A word that no replaced stretch overlaps is still there, and all cursors in it moved with it. -/
theorem Tidied.word_kept (tidied : Tidied text edits rewritten)
    (split : text = front ++ word ++ back) (stands : Stands front word back)
    (clear : ∀ edit ∈ edits, edit.range.start < edit.range.stop →
      edit.range.stop ≤ endOf front ∨ endOf (front ++ word) ≤ edit.range.start) :
    ∃ newFront newBack, rewritten = newFront ++ word ++ newBack ∧ Stands newFront word newBack ∧
      (back ≠ [] → newBack ≠ []) ∧ ∀ reach rest, word = reach ++ rest →
        edits.foldl shiftOne (endOf (front ++ reach)) = endOf (newFront ++ reach) := by
  induction tidied generalizing back with
  | nil => exact ⟨front, back, split, stands, id, fun _ _ _ => rfl⟩
  | @cons edit before replaced after rewritten edits tidy tidied induction =>
      rcases tidy.sides stands split (clear edit List.mem_cons_self) with
        ⟨mid, rfl, rfl⟩ | ⟨mid, mid_ne, rfl, rfl⟩
      · -- the word stands behind this edit, and so behind all that follow in the list
        refine ⟨rewritten ++ edit.text ++ mid, back, by simp only [List.append_assoc],
          tidy.stands_behind stands rfl rewritten, id, ?_⟩
        intro reach rest _
        rw [List.foldl_cons, List.append_assoc _ mid, tidy.shift_one_behind, List.append_assoc,
          tidied.stacked.foldl_shift_one_behind]
        simp only [List.append_assoc]
      · -- the word stands in front of this edit
        have standsThere : Stands front word mid := by
          rw [List.append_assoc] at stands
          exact stands.shed_right
        obtain ⟨newFront, newBack, rfl, newStands, newBack_ne, moved⟩ := induction rfl standsThere
          (fun other member => clear other (List.mem_cons_of_mem edit member))
        have newBack_ne := newBack_ne mid_ne
        refine ⟨newFront, newBack ++ (edit.text ++ after), by simp only [List.append_assoc],
          newStands.widen_right fun empty => absurd empty newBack_ne, ?_, ?_⟩
        · intro _ empty
          exact newBack_ne (List.append_eq_nil_iff.mp empty).1
        · intro reach rest cut
          have inFront : front ++ word ++ mid = front ++ reach ++ (rest ++ mid) := by
            rw [cut]
            simp only [List.append_assoc]
          rw [List.foldl_cons, tidy.shift_one_ahead inFront (by simp [mid_ne]),
            moved reach rest cut]

/-- What a text ends in is left alone, or what is inserted behind it ends in a line feed. -/
theorem Tidied.get_last?_eq (tidied : Tidied text edits rewritten)
    (last : text.getLast? = some '\n') : rewritten.getLast? = some '\n' := by
  cases tidied with
  | nil => exact last
  | @cons edit before replaced after rewritten edits tidy _ =>
      by_cases atEnd : after = []
      · subst atEnd
        have empty : replaced = [] := by
          by_contra nonempty
          exact (tidy.right nonempty).1 rfl
        rw [List.append_nil, List.getLast?_append, tidy.inserted empty, Option.some_or]
      · rw [List.getLast?_append_of_ne_nil _ atEnd] at last ⊢
        exact last

/-! ### Which batches are tidy -/

def TidyIn (edit : Edit) (text : Text) : Prop :=
  ∃ before replaced after, text = before ++ replaced ++ after ∧ edit.Tidy before replaced after

/-- Whether an edit lies in front of another one, and not directly if it replaces anything. -/
def Precedes (earlier later : Edit) : Prop :=
  earlier.range.stop ≤ later.range.start ∧
    (earlier.range.start < earlier.range.stop → earlier.range.stop < later.range.start)

theorem TidyIn.narrow {behind : Text} {later : Edit} (tidyIn : edit.TidyIn (text ++ behind))
    (plain : Plain text) (start_eq : later.range.start = endOf text)
    (precedes : edit.Precedes later) : edit.TidyIn text := by
  obtain ⟨before, replaced, after, split, tidy⟩ := tidyIn
  obtain ⟨inFront, apart⟩ := precedes
  rw [start_eq, tidy.stop_eq] at inFront apart
  obtain ⟨mid, rfl, rfl⟩ := Position.exists_between split.symm inFront
  have frontPlain := tidy.before_plain.append tidy.replaced_plain
  refine ⟨before, replaced, mid, rfl,
    { tidy with after_plain := (frontPlain.append_iff mid).mp plain, right := ?_ }⟩
  intro nonempty
  have mid_ne : mid ≠ [] := by
    rintro rfl
    rw [List.append_nil] at apart
    exact lt_irrefl _ (apart (tidy.stop_eq ▸ tidy.start_lt_stop nonempty))
  obtain ⟨-, right⟩ := tidy.right nonempty
  rw [List.head?_append_of_ne_nil mid mid_ne] at right
  exact ⟨mid_ne, right⟩

theorem exists_tidied (tidyIn : ∀ edit ∈ edits, edit.TidyIn text)
    (descending : edits.Pairwise fun later earlier => earlier.Precedes later) :
    ∃ rewritten, Tidied text edits rewritten := by
  induction edits generalizing text with
  | nil => exact ⟨text, .nil text⟩
  | cons edit rest induction =>
      obtain ⟨before, replaced, after, rfl, tidy⟩ := tidyIn edit List.mem_cons_self
      obtain ⟨below, restDescending⟩ := List.pairwise_cons.mp descending
      have narrowed : ∀ other ∈ rest, other.TidyIn before := by
        intro other member
        have wider := tidyIn other (List.mem_cons_of_mem edit member)
        rw [List.append_assoc] at wider
        exact wider.narrow tidy.before_plain tidy.start_eq (below other member)
      obtain ⟨rewritten, tidied⟩ := induction narrowed restDescending
      exact ⟨rewritten ++ edit.text ++ after, .cons tidy tidied⟩

theorem bottom_up_pair (first second : Edit) :
    bottomUp [first, second] =
      if second.range.start ≤ first.range.start then [first, second] else [second, first] := by
  simp [bottomUp, StableSort.sort, StableSort.insert]

end Edit

namespace Document

variable {document : Document} {batch : List Edit}

def Orderly (document : Document) (batch : List Edit) : Prop :=
  Edit.Tidied document.text (Edit.bottomUp batch) (document.replaceAll batch).text

theorem orderly_of_descending (tidyIn : ∀ edit ∈ batch, edit.TidyIn document.text)
    (descending : (Edit.bottomUp batch).Pairwise fun later earlier => earlier.Precedes later) :
    document.Orderly batch := by
  obtain ⟨rewritten, tidied⟩ := Edit.exists_tidied
    (fun edit member => tidyIn edit ((bottom_up_perm batch).mem_iff.mp member)) descending
  rw [Orderly, replace_all_of_stacked tidied.stacked]
  exact tidied

theorem orderly_singleton {edit : Edit} (tidyIn : edit.TidyIn document.text) :
    document.Orderly [edit] := by
  apply orderly_of_descending
  · simpa using tidyIn
  · exact List.pairwise_singleton _ edit

/-- A replacement of a word, and an insertion in front of it or further down. -/
theorem orderly_pair {edit insertion : Edit} {before after front word back : Text}
    (wordSplit : document.text = front ++ word ++ back) (stands : Stands front word back)
    (replaces : edit.Tidy front word back) (split : document.text = before ++ [] ++ after)
    (inserts : insertion.Tidy before [] after) : document.Orderly [edit, insertion] := by
  have start_eq := inserts.start_eq
  have stop_eq := inserts.stop_eq
  rw [List.append_nil] at stop_eq
  have point : ¬ insertion.range.start < insertion.range.stop := by
    rw [start_eq, stop_eq]
    exact lt_irrefl _
  apply orderly_of_descending
  · intro other member
    rcases List.mem_pair.mp member with rfl | rfl
    · exact ⟨front, word, back, wordSplit, replaces⟩
    · exact ⟨before, [], after, split, inserts⟩
  · -- an insertion at the very start of the word is listed behind it, and so carried out last
    rw [Edit.bottom_up_pair, start_eq, replaces.start_eq]
    rcases inserts.sides stands (split.symm.trans wordSplit) (fun nonempty => absurd nonempty point)
      with ⟨mid, rfl, -⟩ | ⟨mid, mid_ne, rfl, -⟩
    · have inFront : endOf before ≤ endOf (before ++ [] ++ mid) := by
        rw [List.append_nil, end_of_append]
        exact le_advance _ _
      rw [if_pos inFront, List.pairwise_pair]
      refine ⟨?_, fun nonempty => absurd nonempty point⟩
      rw [stop_eq, replaces.start_eq]
      exact inFront
    · have behind : endOf (front ++ word) < endOf (front ++ word ++ mid) := by
        rw [end_of_append (front ++ word)]
        exact lt_advance _ mid_ne
      have notInFront : ¬ endOf (front ++ word ++ mid) ≤ endOf front := by
        rw [not_le]
        exact lt_of_le_of_lt (end_of_append front word ▸ le_advance _ _) behind
      rw [if_neg notInFront, List.pairwise_pair, Edit.Precedes, replaces.stop_eq, start_eq]
      exact ⟨behind.le, fun _ => behind⟩

theorem orderly_of_apart (tidyIn : ∀ edit ∈ batch, edit.TidyIn document.text)
    (ordered : ∀ edit ∈ batch, edit.range.start ≤ edit.range.stop)
    (apart : batch.Pairwise fun left right =>
      left.range.stop < right.range.start ∨ right.range.stop < left.range.start) :
    document.Orderly batch := by
  apply orderly_of_descending tidyIn
  have perm := bottom_up_perm batch
  have symmetric := (perm.pairwise_iff (fun sides => sides.symm)).mpr apart
  refine ((bottom_up_sorted batch).and symmetric).imp_of_mem ?_
  intro later earlier laterMember _ ⟨le, sides⟩
  have inOrder := ordered later (perm.mem_iff.mp laterMember)
  rcases sides with stopLt | stopLt
  · exact absurd (le.trans inOrder) stopLt.not_ge
  · exact ⟨stopLt.le, fun _ => stopLt⟩

/-! ### One batch after the other -/

/-- A document that ends in a line break and breaks lines only at line feeds, alone or after a
carriage return. -/
structure Closed (document : Document) : Prop where
  plain : Plain document.text
  last : document.text.getLast? = some '\n'

theorem Orderly.closed (orderly : document.Orderly batch) (closed : document.Closed) :
    (document.replaceAll batch).Closed :=
  ⟨orderly.stacked.plain closed.plain, orderly.get_last?_eq closed.last⟩

/-- Whether no range that a batch replaces overlaps the word that a position touches. -/
def SparesWordAt (document : Document) (position : Position) (batch : List Edit) : Prop :=
  ∀ word ∈ document.wordAt? position, ∀ edit ∈ batch, edit.range.start < edit.range.stop →
    edit.range.stop ≤ (word.range position.line).start ∨
      (word.range position.line).stop ≤ edit.range.start

instance (document : Document) (position : Position) (batch : List Edit) :
    Decidable (document.SparesWordAt position batch) :=
  inferInstanceAs (Decidable (∀ word ∈ document.wordAt? position, ∀ edit ∈ batch,
    edit.range.start < edit.range.stop → _ ∨ _))

theorem Orderly.word_kept {position : Position} {word : Word} (orderly : document.Orderly batch)
    (plain : Plain document.text) (touched : document.wordAt? position = some word)
    (spared : document.SparesWordAt position batch) :
    ∃ now, (document.replaceAll batch).wordAt? (position.shift batch) = some now ∧
      now.text = word.text ∧
      (now.range (position.shift batch).line).start = (word.range position.line).start.shift batch ∧
      (position.shift batch).column - now.start = position.column - word.start := by
  obtain ⟨front, back, there⟩ := (word_at?_eq_some plain).mp touched
  obtain ⟨newFront, newBack, split, stands, -, moved⟩ :=
    Edit.Tidied.word_kept orderly there.split there.stands (by
      intro edit member nonempty
      have sides := spared word touched edit ((bottom_up_perm batch).mem_iff.mp member) nonempty
      rw [there.range_eq] at sides
      exact sides)
  -- the cursor stands behind the first `count` characters of the word, before and after
  have count_le := there.reach_le
  generalize count_eq : position.column - word.start = count at count_le ⊢
  have position_eq : position = endOf (front ++ word.text.take count) := by
    rw [there.end_of_take count count_le, ← count_eq, Nat.add_sub_cancel' there.starts]
  have shifted : position.shift batch = endOf (newFront ++ word.text.take count) := by
    have carried := moved _ _ (List.take_append_drop count word.text).symm
    rw [← position_eq] at carried
    exact carried
  have start_eq : (word.range position.line).start.shift batch = endOf newFront := by
    have carried := moved [] word.text rfl
    rw [List.append_nil, List.append_nil] at carried
    rw [there.range_eq]
    exact carried
  have newPlain := orderly.stacked.plain plain
  refine ⟨⟨(endOf newFront).column, (endOf newFront).column + word.text.length, word.text⟩,
    ?_, rfl, ?_, ?_⟩
  · rw [shifted, word_at?_eq_some newPlain]
    exact ⟨newFront, newBack, word_at_take split stands count_le⟩
  · rw [shifted, start_eq, end_of_take_word stands count_le]
    rfl
  · rw [shifted, end_of_take_word stands count_le]
    exact Nat.add_sub_cancel_left _ _

inductive Evolves : Document → List (List Edit) → Document → Prop where
  | nil (document : Document) : Evolves document [] document
  | cons {document current : Document} {batch : List Edit} {batches : List (List Edit)}
      (orderly : document.Orderly batch)
      (evolves : Evolves (document.replaceAll batch) batches current) :
      Evolves document (batch :: batches) current

/-- Whether no range that the batches replace overlaps the word that a position touches by then. -/
def Undisturbed (document : Document) (position : Position) : List (List Edit) → Prop
  | [] => True
  | batch :: batches => document.SparesWordAt position batch ∧
      (document.replaceAll batch).Undisturbed (position.shift batch) batches

instance decidableUndisturbed : (document : Document) → (position : Position) →
    (batches : List (List Edit)) → Decidable (document.Undisturbed position batches)
  | _, _, [] => isTrue trivial
  | document, position, batch :: batches =>
      have := decidableUndisturbed (document.replaceAll batch) (position.shift batch) batches
      inferInstanceAs (Decidable (_ ∧ _))

variable {current final : Document} {batches more : List (List Edit)}

theorem Evolves.append (evolves : Evolves document batches current)
    (further : Evolves current more final) : Evolves document (batches ++ more) final := by
  induction evolves with
  | nil => exact further
  | cons orderly _ induction => exact .cons orderly (induction further)

theorem Evolves.closed (evolves : Evolves document batches current) (closed : document.Closed) :
    current.Closed := by
  induction evolves with
  | nil => exact closed
  | cons orderly _ induction => exact induction (orderly.closed closed)

theorem Evolves.word_kept {position : Position} {word : Word}
    (evolves : Evolves document batches current) (closed : document.Closed)
    (touched : document.wordAt? position = some word)
    (undisturbed : document.Undisturbed position batches) :
    ∃ now, current.wordAt? (position.shiftAll batches) = some now ∧ now.text = word.text ∧
      (now.range (position.shiftAll batches).line).start =
        (word.range position.line).start.shiftAll batches ∧
      (position.shiftAll batches).column - now.start = position.column - word.start := by
  induction evolves generalizing position word with
  | nil => exact ⟨word, touched, rfl, rfl, rfl⟩
  | cons orderly _ induction =>
      obtain ⟨spared, undisturbed⟩ := undisturbed
      obtain ⟨next, nextTouched, nextText, nextStart, nextOffset⟩ :=
        orderly.word_kept closed.plain touched spared
      obtain ⟨now, nowTouched, nowText, nowStart, nowOffset⟩ :=
        induction (orderly.closed closed) nextTouched undisturbed
      rw [nextStart] at nowStart
      exact ⟨now, nowTouched, nowText.trans nextText, nowStart, nowOffset.trans nextOffset⟩

end Document
end PhpNames
