import PhpNames.Proofs.EveryPosition
import PhpNames.Proofs.WholeWords

/-!
Words in UTF-16 columns.

A word is found exactly where a run of name characters that cannot be made longer covers the
columns that the word is reported with. The code units of the line between these columns are those
of the word. In a document with any line ends the same columns delimit the word for an edit.
-/

namespace PhpNames

open Text

namespace Text

/-! ### Code units -/

def codeUnitsOf (c : Char) : List Nat :=
  if c.toNat < 0x10000 then [c.toNat]
  else [0xD800 + (c.toNat - 0x10000) / 0x400, 0xDC00 + (c.toNat - 0x10000) % 0x400]

def codeUnits (text : Text) : List Nat :=
  text.flatMap codeUnitsOf

theorem length_code_units_of (c : Char) : (codeUnitsOf c).length = unitsOf c := by
  rw [codeUnitsOf, unitsOf]
  split <;> rfl

@[simp] theorem code_units_cons (c : Char) (rest : Text) :
    codeUnits (c :: rest) = codeUnitsOf c ++ codeUnits rest :=
  List.flatMap_cons

theorem code_units_append (left right : Text) :
    codeUnits (left ++ right) = codeUnits left ++ codeUnits right :=
  List.flatMap_append

theorem length_code_units (text : Text) : (codeUnits text).length = units text := by
  induction text with
  | nil => rfl
  | cons c rest induction =>
      rw [code_units_cons, List.length_append, length_code_units_of, induction, units_cons]

/-- No character starts with the code units of another: the first half of a surrogate pair is not a
character of its own. -/
theorem code_units_of_append_inj {c d : Char} {left right : List Nat}
    (same : codeUnitsOf c ++ left = codeUnitsOf d ++ right) : c = d ∧ left = right := by
  have cValid : c.toNat < 0xD800 ∨ 0xDFFF < c.toNat ∧ c.toNat < 0x110000 := c.valid
  have dValid : d.toNat < 0xD800 ∨ 0xDFFF < d.toNat ∧ d.toNat < 0x110000 := d.valid
  simp only [codeUnitsOf] at same
  split at same <;> split at same <;>
    simp only [List.cons_append, List.nil_append, List.cons.injEq] at same
  · exact ⟨Char.toNat_inj.mp same.1, same.2⟩
  · omega
  · omega
  · refine ⟨Char.toNat_inj.mp ?_, same.2.2⟩
    omega

theorem code_units_injective {left right : Text} (same : codeUnits left = codeUnits right) :
    left = right := by
  induction left generalizing right with
  | nil =>
      have empty := congrArg List.length same
      rw [length_code_units, length_code_units, units_nil] at empty
      by_contra other
      have filled := units_pos (Ne.symm other)
      omega
  | cons c left induction =>
      cases right with
      | nil =>
          have empty := congrArg List.length same
          have filled := units_pos (List.cons_ne_nil c left)
          rw [length_code_units, length_code_units, units_nil] at empty
          omega
      | cons d right =>
          rw [code_units_cons, code_units_cons] at same
          obtain ⟨rfl, rest⟩ := code_units_of_append_inj same
          rw [induction rest]

def slice (text : Text) (start stop : Nat) : List Nat :=
  ((codeUnits text).take stop).drop start

theorem slice_between (before middle after : Text) :
    slice (before ++ middle ++ after) (units before) (units (before ++ middle)) =
      codeUnits middle := by
  rw [slice, code_units_append, ← length_code_units (before ++ middle), List.take_left,
    code_units_append, ← length_code_units before, List.drop_left]

end Text

namespace Word

/-- Whether a word of a line is a run of name characters that cannot be made longer, and covers the
columns from its start up to its stop. -/
def Covers (line : Text) (word : Word) : Prop :=
  ∃ before after, line = before ++ word.text ++ after ∧ Stands before word.text after ∧
    word.start = units before ∧ word.stop = units (before ++ word.text)

variable {line : Text} {word other : Word} {column : Nat}

theorem covers_iff : Covers line word ↔ ∃ before after, Found 0 line word before after := by
  constructor
  · rintro ⟨before, after, split, stands, start_eq, stop_eq⟩
    refine ⟨before, after, split, stands, start_eq.trans (Nat.zero_add _).symm, ?_⟩
    rw [stop_eq, units_append, units_word stands.parts, start_eq]
  · rintro ⟨before, after, found⟩
    have start_eq : word.start = units before := found.start_eq.trans (Nat.zero_add _)
    refine ⟨before, after, found.split, found.stands, start_eq, ?_⟩
    rw [found.stop_eq, units_append, units_word found.stands.parts, start_eq]

theorem in_line?_eq_some_iff_covers :
    inLine? line column = some word ↔
      Covers line word ∧ word.start ≤ column ∧ column ≤ word.stop := by
  rw [in_line?_eq_some, covers_iff]

theorem Covers.eq_of_touches (covers : Covers line word) (otherCovers : Covers line other)
    (touched : word.start ≤ column ∧ column ≤ word.stop)
    (otherTouched : other.start ≤ column ∧ column ≤ other.stop) : word = other := by
  have found := in_line?_eq_some_iff_covers.mpr ⟨covers, touched⟩
  have otherFound := in_line?_eq_some_iff_covers.mpr ⟨otherCovers, otherTouched⟩
  exact Option.some.inj (found.symm.trans otherFound)

theorem Covers.slice_eq_iff (covers : Covers line word) (text : Text) :
    slice line word.start word.stop = codeUnits text ↔ text = word.text := by
  obtain ⟨before, after, rfl, -, start_eq, stop_eq⟩ := covers
  rw [start_eq, stop_eq, slice_between]
  exact ⟨fun same => (code_units_injective same).symm, fun same => congrArg codeUnits same.symm⟩

end Word

namespace Document

open Word

variable {document : Document} {position : Position} {word : Word}

/-- The word that a position touches stands in the content of the line of the position, and an edit
of its range exchanges it there. -/
theorem replace_word_at? (found : document.wordAt? position = some word) (text : Text) :
    ∃ above front back below,
      document.line? position.line = some (front ++ word.text ++ back) ∧
      above = (document.rawLines.take position.line).flatten ∧
      Stands front word.text back ∧ word.start = units front ∧
      document.text = above ++ front ++ word.text ++ (back ++ below) ∧
      document.replace ⟨word.range position.line, text⟩ =
        ⟨above ++ front ++ text ++ (back ++ below)⟩ := by
  obtain ⟨line, line_eq, inLine⟩ := Option.bind_eq_some_iff.mp found
  obtain ⟨⟨front, back, rfl, stands, start_eq, stop_eq⟩, -⟩ := in_line?_eq_some_iff_covers.mp inLine
  obtain ⟨below, text_eq, -⟩ := exists_around line_eq
  let above := (document.rawLines.take position.line).flatten
  have startEnds : document.EndsAt (above ++ front) ⟨position.line, word.start⟩ :=
    ⟨front, word.text ++ back, by rw [← List.append_assoc]; exact line_eq, rfl, start_eq⟩
  have stopEnds : document.EndsAt (above ++ front ++ word.text) ⟨position.line, word.stop⟩ :=
    ⟨front ++ word.text, back, line_eq, List.append_assoc _ _ _, stop_eq⟩
  have split : document.text = above ++ front ++ word.text ++ (back ++ below) := by
    rw [text_eq]
    simp only [above, List.append_assoc]
  exact ⟨above, front, back, below, line_eq, rfl, stands, start_eq, split,
    Edit.replace_of_offset split startEnds.offset_eq stopEnds.offset_eq⟩

/-- A lookup finds exactly the word that covers the columns around a column, and its range is that
of the word in every document. -/
theorem word_at?_exact_in_units :
    (∀ line column word, inLine? line column = some word ↔
      Covers line word ∧ word.start ≤ column ∧ column ≤ word.stop) ∧
    (∀ line column word other, Covers line word → Covers line other →
      word.start ≤ column ∧ column ≤ word.stop → other.start ≤ column ∧ column ≤ other.stop →
      word = other) ∧
    (∀ line word, Covers line word → ∀ text,
      slice line word.start word.stop = codeUnits text ↔ text = word.text) ∧
    ∀ (document : Document) (position : Position),
      document.wordAt? position = Word.at? document.lines position ∧
      ∀ word, document.wordAt? position = some word → ∀ text, ∃ above front back below,
        document.line? position.line = some (front ++ word.text ++ back) ∧
        above = (document.rawLines.take position.line).flatten ∧
        Stands front word.text back ∧ word.start = units front ∧
        document.text = above ++ front ++ word.text ++ (back ++ below) ∧
        document.replace ⟨word.range position.line, text⟩ =
          ⟨above ++ front ++ text ++ (back ++ below)⟩ :=
  ⟨fun _ _ _ => in_line?_eq_some_iff_covers,
    fun _ _ _ _ covers otherCovers => covers.eq_of_touches otherCovers,
    fun _ _ covers => covers.slice_eq_iff,
    fun _ _ => ⟨rfl, fun _ found => replace_word_at? found⟩⟩

def wordBehindPair : Document :=
  ⟨['x', Char.ofNat 0x0B, Char.ofNat 0x1F600, Char.ofNat 0x301, 'A', '\\', 'B', ';', '\r', '\n']⟩

/-- The column right behind the word still touches it. -/
theorem word_at?_exact_in_units_behind_pair :
    wordBehindPair.wordAt? ⟨1, 6⟩ = some ⟨3, 6, ['A', '\\', 'B']⟩ ∧
    slice [Char.ofNat 0x1F600, Char.ofNat 0x301, 'A', '\\', 'B', ';'] 3 6 =
      codeUnits ['A', '\\', 'B'] ∧
    ∃ above front back below, wordBehindPair.text = above ++ front ++ ['A', '\\', 'B'] ++
        (back ++ below) ∧ units front = 3 ∧
      wordBehindPair.replace ⟨⟨⟨1, 3⟩, ⟨1, 6⟩⟩, ['C']⟩ =
        ⟨above ++ front ++ ['C'] ++ (back ++ below)⟩ := by
  obtain ⟨found, -, sliced, documents⟩ := word_at?_exact_in_units
  have touched : wordBehindPair.wordAt? ⟨1, 6⟩ = some ⟨3, 6, ['A', '\\', 'B']⟩ := by decide +kernel
  have covers := (found [Char.ofNat 0x1F600, Char.ofNat 0x301, 'A', '\\', 'B', ';'] 6
    ⟨3, 6, ['A', '\\', 'B']⟩).mp (by decide +kernel)
  obtain ⟨above, front, back, below, -, -, -, start_eq, split, replaced⟩ :=
    (documents wordBehindPair ⟨1, 6⟩).2 _ touched ['C']
  exact ⟨touched, (sliced _ _ covers.1 _).mpr rfl, above, front, back, below, split, start_eq.symm,
    replaced⟩

end Document
end PhpNames
