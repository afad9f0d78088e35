import Mathlib.Order.Nat
import PhpNames.Document

/-!
Texts that break lines only at line feeds, alone or after a carriage return, and what a position
means in them.

In such a text the existing positions are exactly the ends of those of its beginnings that do not
part a carriage return from its line feed. `Position.endOf` gives the position, `Document.offset`
takes it back to the length of the beginning, and both keep the order.
-/

namespace PhpNames
namespace Text

/-- Whether lines break only at line feeds, alone or after a carriage return. -/
def breaksPlainly : Text → Bool
  | [] => true
  | '\r' :: '\n' :: rest => breaksPlainly rest
  | c :: rest => (c == '\n' || !Document.isBreak c) && breaksPlainly rest

def Plain (text : Text) : Prop :=
  breaksPlainly text = true

instance (text : Text) : Decidable (Plain text) := inferInstanceAs (Decidable (_ = true))

def Unbroken (text : Text) : Prop :=
  ∀ c ∈ text, Document.isBreak c = false

instance (text : Text) : Decidable (Unbroken text) :=
  List.decidableBAll (fun c => Document.isBreak c = false) text

def IsTerminator (terminator : Text) : Prop :=
  terminator = ['\n'] ∨ terminator = ['\r', '\n']

theorem unbroken_append {left right : Text} :
    Unbroken (left ++ right) ↔ Unbroken left ∧ Unbroken right := by
  simp only [Unbroken, List.mem_append]
  constructor
  · intro unbroken
    exact ⟨fun c member => unbroken c (Or.inl member), fun c member => unbroken c (Or.inr member)⟩
  · rintro ⟨inLeft, inRight⟩ c (member | member)
    · exact inLeft c member
    · exact inRight c member

theorem unbroken_cons {c : Char} {rest : Text} :
    Unbroken (c :: rest) ↔ Document.isBreak c = false ∧ Unbroken rest := by
  simp [Unbroken]

theorem Unbroken.ne {text : Text} (unbroken : Unbroken text) {c separator : Char}
    (member : c ∈ text) (breaks : Document.isBreak separator = true) : c ≠ separator := by
  rintro rfl
  rw [unbroken c member] at breaks
  cases breaks

theorem Unbroken.count_line_feed {text : Text} (unbroken : Unbroken text) :
    text.count '\n' = 0 := by
  rw [List.count_eq_zero]
  intro member
  exact unbroken.ne member (by decide) rfl

/-! ### Plain texts, line by line -/

theorem plain_nil : Plain [] := rfl

theorem breaks_plainly_cons {c : Char} (kept : Document.isBreak c = false) (rest : Text) :
    breaksPlainly (c :: rest) = breaksPlainly rest := by
  have notReturn : c ≠ '\r' := by
    rintro rfl
    revert kept
    decide
  rw [breaksPlainly]
  · simp [kept]
  · intro after first
    exact absurd first notReturn

theorem plain_unbroken_append {body : Text} (unbroken : Unbroken body) (rest : Text) :
    Plain (body ++ rest) ↔ Plain rest := by
  induction body with
  | nil => rfl
  | cons c body induction =>
      obtain ⟨kept, tail⟩ := unbroken_cons.mp unbroken
      rw [List.cons_append, Plain, breaks_plainly_cons kept]
      exact induction tail

theorem Unbroken.plain {body : Text} (unbroken : Unbroken body) : Plain body := by
  rw [← List.append_nil body]
  exact (plain_unbroken_append unbroken []).mpr rfl

theorem plain_terminator_append {terminator : Text} (ends : IsTerminator terminator)
    (rest : Text) : Plain (terminator ++ rest) ↔ Plain rest := by
  rcases ends with rfl | rfl
  · simp [Plain, breaksPlainly]
  · simp [Plain, breaksPlainly]

theorem plain_line {body terminator rest : Text} (unbroken : Unbroken body)
    (ends : IsTerminator terminator) :
    Plain (body ++ terminator ++ rest) ↔ Plain rest := by
  rw [List.append_assoc, plain_unbroken_append unbroken, plain_terminator_append ends]

/-- A plain text is one line without a break, or starts with such a line and its terminator. -/
theorem plain_cases (text : Text) (plain : Plain text) :
    Unbroken text ∨ ∃ body terminator rest, text = body ++ terminator ++ rest ∧
      Unbroken body ∧ IsTerminator terminator ∧ Plain rest := by
  induction text using breaksPlainly.induct with
  | case1 =>
      left
      intro c member
      cases member
  | case2 rest induction =>
      right
      exact ⟨[], ['\r', '\n'], rest, rfl, by simp [Unbroken], Or.inr rfl, plain⟩
  | case3 c rest notPair induction =>
      rw [Plain, breaksPlainly, Bool.and_eq_true] at plain
      · obtain ⟨first, restPlain⟩ := plain
        by_cases feed : c = '\n'
        · subst feed
          right
          exact ⟨[], ['\n'], rest, rfl, by simp [Unbroken], Or.inl rfl, restPlain⟩
        · have kept : Document.isBreak c = false := by
            simpa [feed] using first
          rcases induction restPlain with unbroken | split
          · left
            exact unbroken_cons.mpr ⟨kept, unbroken⟩
          · obtain ⟨body, terminator, after, rfl, unbroken, ends, afterPlain⟩ := split
            right
            exact ⟨c :: body, terminator, after, rfl, unbroken_cons.mpr ⟨kept, unbroken⟩, ends,
              afterPlain⟩
      · exact notPair

/-- Induction over the lines of a plain text. -/
theorem Plain.line_induction {motive : ∀ text, Plain text → Prop}
    (last : ∀ body (unbroken : Unbroken body), motive body unbroken.plain)
    (line : ∀ body terminator rest (unbroken : Unbroken body) (ends : IsTerminator terminator)
      (restPlain : Plain rest), motive rest restPlain →
        motive (body ++ terminator ++ rest) ((plain_line unbroken ends).mpr restPlain))
    (text : Text) (plain : Plain text) : motive text plain := by
  induction size : text.length using Nat.strongRecOn generalizing text with
  | _ size induction =>
      rcases plain_cases text plain with unbroken | split
      · exact last text unbroken
      · obtain ⟨body, terminator, rest, rfl, unbroken, ends, restPlain⟩ := split
        apply line body terminator rest unbroken ends restPlain
        apply induction rest.length _ rest restPlain rfl
        have positive : 0 < terminator.length := by
          rcases ends with rfl | rfl <;> decide
        simp only [List.length_append] at size
        omega

theorem Plain.append_iff {left : Text} (plain : Plain left) (right : Text) :
    Plain (left ++ right) ↔ Plain right := by
  induction left, plain using Plain.line_induction with
  | last body unbroken => exact plain_unbroken_append unbroken right
  | line body terminator rest unbroken ends _ induction =>
      rw [List.append_assoc, plain_line unbroken ends]
      exact induction

theorem Plain.append {left right : Text} (leftPlain : Plain left) (rightPlain : Plain right) :
    Plain (left ++ right) :=
  (leftPlain.append_iff right).mpr rightPlain

/-- A cut of a plain text that does not part a carriage return from its line feed leaves two plain
texts. -/
theorem Plain.split {left right : Text} (plain : Plain (left ++ right))
    (whole : ¬(left.getLast? = some '\r' ∧ right.head? = some '\n')) :
    Plain left ∧ Plain right := by
  suffices leftPlain : Plain left from ⟨leftPlain, (leftPlain.append_iff right).mp plain⟩
  induction left using breaksPlainly.induct with
  | case1 => rfl
  | case2 rest induction =>
      apply induction plain
      rintro ⟨last, first⟩
      exact whole ⟨by simp [List.getLast?_cons, last], first⟩
  | case3 c rest notPair induction =>
      by_cases kept : Document.isBreak c = false
      · rw [List.cons_append, Plain, breaks_plainly_cons kept] at plain
        rw [Plain, breaks_plainly_cons kept]
        apply induction plain
        rintro ⟨last, first⟩
        exact whole ⟨by simp [List.getLast?_cons, last], first⟩
      · -- a break that is kept is a line feed: a carriage return would have to be parted here
        have notReturn : c = '\r' → False := by
          rintro rfl
          cases rest with
          | nil =>
              cases right with
              | nil => exact absurd plain (by decide)
              | cons d after =>
                  by_cases feed : d = '\n'
                  · subst feed
                    exact whole ⟨rfl, rfl⟩
                  · rw [List.cons_append, List.nil_append, Plain, breaksPlainly] at plain
                    · simp [show Document.isBreak '\r' = true by decide] at plain
                    · simp [feed]
          | cons d rest =>
              have feed : d ≠ '\n' := fun same => notPair rest rfl (by rw [same])
              rw [List.cons_append, List.cons_append, Plain, breaksPlainly] at plain
              · simp [show Document.isBreak '\r' = true by decide] at plain
              · simp [feed]
        rw [List.cons_append, Plain, breaksPlainly, Bool.and_eq_true] at plain
        · rw [Plain, breaksPlainly, Bool.and_eq_true]
          · refine ⟨plain.1, induction plain.2 ?_⟩
            rintro ⟨last, first⟩
            exact whole ⟨by simp [List.getLast?_cons, last], first⟩
          · intro after first
            exact (notReturn first).elim
        · intro after first
          exact (notReturn first).elim

end Text

/-! ### Positions as ends of texts -/

namespace Position

instance : LinearOrder Position where
  le_refl p := by simp [le_def]
  le_trans p q r := by simp only [le_def]; omega
  lt_iff_le_not_ge p q := by simp only [le_def, lt_def]; omega
  le_antisymm := by
    rintro ⟨line, column⟩ ⟨otherLine, otherColumn⟩ below above
    simp only [le_def] at below above
    simp only [mk.injEq]
    omega
  le_total p q := by simp only [le_def]; omega
  toDecidableLE := inferInstance
  toDecidableEq := inferInstance
  toDecidableLT := inferInstance

def step (position : Position) (c : Char) : Position :=
  if c = '\n' then ⟨position.line + 1, 0⟩
  else ⟨position.line, position.column + Text.unitsOf c⟩

/-- Where a text ends that starts at a position. -/
def advance (position : Position) (text : Text) : Position :=
  text.foldl step position

def endOf (text : Text) : Position :=
  advance ⟨0, 0⟩ text

@[simp] theorem advance_nil (position : Position) : position.advance [] = position := rfl

@[simp] theorem advance_cons (position : Position) (c : Char) (rest : Text) :
    position.advance (c :: rest) = (position.step c).advance rest := rfl

theorem advance_append (position : Position) (left right : Text) :
    position.advance (left ++ right) = (position.advance left).advance right :=
  List.foldl_append

theorem end_of_append (left right : Text) : endOf (left ++ right) = (endOf left).advance right :=
  advance_append _ left right

theorem lt_step (position : Position) (c : Char) : position < position.step c := by
  have positive := Text.units_of_pos c
  unfold step
  split
  · left
    exact Nat.lt_succ_self _
  · right
    exact ⟨rfl, Nat.lt_add_of_pos_right positive⟩

theorem le_advance (position : Position) (text : Text) : position ≤ position.advance text := by
  induction text generalizing position with
  | nil => exact le_refl _
  | cons c rest induction => exact (lt_step position c).le.trans (induction _)

theorem lt_advance (position : Position) {text : Text} (nonempty : text ≠ []) :
    position < position.advance text := by
  cases text with
  | nil => exact absurd rfl nonempty
  | cons c rest => exact (lt_step position c).trans_le (le_advance _ rest)

theorem advance_line (position : Position) (text : Text) :
    (position.advance text).line = position.line + text.count '\n' := by
  induction text generalizing position with
  | nil => simp
  | cons c rest induction =>
      rw [advance_cons, induction, List.count_cons]
      by_cases feed : c = '\n'
      · simp [step, feed]
        omega
      · simp [step, feed]

theorem advance_column_same_line (position : Position) {text : Text}
    (sameLine : text.count '\n' = 0) :
    (position.advance text).column = position.column + Text.units text := by
  induction text generalizing position with
  | nil => simp
  | cons c rest induction =>
      have absent := List.count_eq_zero.mp sameLine
      have feed : c ≠ '\n' := fun same => absent (by simp [same])
      have restSameLine : rest.count '\n' = 0 :=
        List.count_eq_zero.mpr fun member => absent (List.mem_cons_of_mem c member)
      rw [advance_cons, induction _ restSameLine]
      simp [step, feed, Nat.add_assoc]

/-- After a line feed the column no longer depends on where the text starts. -/
theorem advance_column_later_line (left right : Position) {text : Text}
    (laterLine : text.count '\n' ≠ 0) :
    (left.advance text).column = (right.advance text).column := by
  induction text generalizing left right with
  | nil => simp at laterLine
  | cons c rest induction =>
      rw [advance_cons, advance_cons]
      by_cases further : rest.count '\n' = 0
      · have feed : c = '\n' := by
          by_contra other
          simp [other, further] at laterLine
        subst feed
        simp [step, advance_column_same_line _ further]
      · exact induction _ _ further

theorem advance_unbroken (position : Position) {text : Text} (unbroken : Text.Unbroken text) :
    position.advance text = ⟨position.line, position.column + Text.units text⟩ := by
  have sameLine := unbroken.count_line_feed
  have line := advance_line position text
  have column := advance_column_same_line position sameLine
  rw [sameLine] at line
  cases reached : position.advance text
  simp_all

theorem end_of_unbroken {text : Text} (unbroken : Text.Unbroken text) :
    endOf text = ⟨0, Text.units text⟩ := by
  simp [endOf, advance_unbroken _ unbroken]

theorem advance_terminator (position : Position) {terminator : Text}
    (ends : Text.IsTerminator terminator) :
    position.advance terminator = ⟨position.line + 1, 0⟩ := by
  rcases ends with rfl | rfl <;> simp [step]

/-- Starting one line further down moves the end one line further down. -/
theorem advance_line_start (line : Nat) (text : Text) :
    advance ⟨line + 1, 0⟩ text =
      ⟨(advance ⟨line, 0⟩ text).line + 1, (advance ⟨line, 0⟩ text).column⟩ := by
  have sameColumn : (advance ⟨line + 1, 0⟩ text).column = (advance ⟨line, 0⟩ text).column := by
    by_cases sameLine : text.count '\n' = 0
    · simp [advance_column_same_line _ sameLine]
    · exact advance_column_later_line _ _ sameLine
  have first := advance_line ⟨line + 1, 0⟩ text
  have second := advance_line ⟨line, 0⟩ text
  cases reached : advance ⟨line + 1, 0⟩ text
  simp only [reached] at first sameColumn
  simp only [mk.injEq, sameColumn, and_true, first, second]
  omega

theorem end_of_line {body terminator : Text} (unbroken : Text.Unbroken body)
    (ends : Text.IsTerminator terminator) (rest : Text) :
    endOf (body ++ terminator ++ rest) = ⟨(endOf rest).line + 1, (endOf rest).column⟩ := by
  rw [end_of_append, end_of_append, end_of_unbroken unbroken, advance_terminator _ ends]
  exact advance_line_start 0 rest

/-! ### The order of the beginnings of one text -/

theorem end_of_le_iff {left leftRest right rightRest : Text}
    (same : left ++ leftRest = right ++ rightRest) :
    endOf left ≤ endOf right ↔ left.length ≤ right.length := by
  rcases List.append_eq_append_iff.mp same with ⟨more, rfl, -⟩ | ⟨more, rfl, -⟩
  · simp [end_of_append, le_advance]
  · rw [end_of_append, List.length_append]
    by_cases empty : more = []
    · simp [empty]
    · have positive : 0 < more.length := List.length_pos_iff.mpr empty
      have after := lt_advance (endOf right) empty
      constructor
      · intro below
        exact absurd below after.not_ge
      · omega

/-- Of two beginnings of one text, the one that ends first is a beginning of the other. -/
theorem exists_between {left leftRest right rightRest : Text}
    (same : left ++ leftRest = right ++ rightRest) (le : endOf left ≤ endOf right) :
    ∃ between, right = left ++ between ∧ leftRest = between ++ rightRest := by
  rcases List.append_eq_append_iff.mp same with split | ⟨more, rfl, rfl⟩
  · exact split
  · rw [end_of_le_iff same, List.length_append] at le
    obtain rfl : more = [] := List.eq_nil_of_length_eq_zero (by omega)
    exact ⟨[], by simp, by simp⟩

end Position

/-! ### Lines, positions and offsets of plain documents -/

namespace Text

theorem chars_before_units (before after : Text) :
    charsBefore (before ++ after) (units before) = before.length := by
  induction before with
  | nil =>
      cases after with
      | nil => rfl
      | cons c rest => simp [charsBefore, units_of_pos]
  | cons c rest induction => simp [charsBefore, induction]

end Text

namespace Document

open Text

/-- Whether a position exists in a document: its line does, and its column lies between two
characters of the line's content or at an end of it. -/
def HasPosition (document : Document) (position : Position) : Prop :=
  ∃ line ∈ document.line? position.line, ∃ count ≤ line.length,
    Text.units (line.take count) = position.column

instance (document : Document) (position : Position) :
    Decidable (document.HasPosition position) :=
  inferInstanceAs (Decidable (∃ line ∈ document.line? position.line, ∃ count ≤ line.length,
    Text.units (line.take count) = position.column))

theorem break_lines_unbroken {body : Text} (unbroken : Unbroken body) (line rest : Text) :
    breakLines line (body ++ rest) = breakLines (body.reverse ++ line) rest := by
  induction body generalizing line with
  | nil => rfl
  | cons c body induction =>
      obtain ⟨kept, tail⟩ := unbroken_cons.mp unbroken
      have notReturn : c ≠ '\r' := unbroken.ne List.mem_cons_self (by decide)
      rw [List.cons_append, breakLines]
      · simp [kept, induction tail]
      · intro after first
        exact absurd first notReturn

theorem raw_lines_last {body : Text} (unbroken : Unbroken body) :
    rawLines ⟨body⟩ = [body] := by
  have step := break_lines_unbroken unbroken [] []
  simpa [rawLines, breakLines] using step

theorem raw_lines_line {body terminator : Text} (unbroken : Unbroken body)
    (ends : IsTerminator terminator) (rest : Text) :
    rawLines ⟨body ++ terminator ++ rest⟩ = (body ++ terminator) :: rawLines ⟨rest⟩ := by
  rw [rawLines, List.append_assoc, break_lines_unbroken unbroken]
  rcases ends with rfl | rfl
  · simp [breakLines, isBreak, rawLines]
  · simp [breakLines, rawLines]

theorem content_unbroken {body : Text} (unbroken : Unbroken body) : content body = body := by
  unfold content
  split
  · rename_i rest reversed
    have member : '\n' ∈ body := by
      rw [← List.mem_reverse, reversed]
      exact List.mem_cons_self
    exact absurd rfl (unbroken.ne member (by decide))
  · rename_i rest other reversed
    have member : '\n' ∈ body := by
      rw [← List.mem_reverse, reversed]
      exact List.mem_cons_self
    exact absurd rfl (unbroken.ne member (by decide))
  · rfl

theorem content_line {body terminator : Text} (unbroken : Unbroken body)
    (ends : IsTerminator terminator) : content (body ++ terminator) = body := by
  rcases ends with rfl | rfl
  · unfold content
    simp only [List.reverse_append, List.reverse_cons, List.reverse_nil, List.nil_append,
      List.singleton_append]
    split
    · rename_i rest reversed
      have member : '\r' ∈ body := by
        rw [← List.mem_reverse, (List.cons.inj reversed).2]
        exact List.mem_cons_self
      exact absurd rfl (unbroken.ne member (by decide))
    · rename_i rest other reversed
      rw [← (List.cons.inj reversed).2, List.reverse_reverse]
    · rename_i other
      exact absurd rfl (other _)
  · simp [content]

theorem lines_last {body : Text} (unbroken : Unbroken body) : lines ⟨body⟩ = [body] := by
  simp [lines, raw_lines_last unbroken, content_unbroken unbroken]

theorem lines_line {body terminator : Text} (unbroken : Unbroken body)
    (ends : IsTerminator terminator) (rest : Text) :
    lines ⟨body ++ terminator ++ rest⟩ = body :: lines ⟨rest⟩ := by
  rw [lines, raw_lines_line unbroken ends, List.map_cons, content_line unbroken ends, lines]

theorem offset_last {body : Text} (unbroken : Unbroken body) (column : Nat) :
    offset ⟨body⟩ ⟨0, column⟩ = charsBefore body column := by
  simp [offset, raw_lines_last unbroken, offsetIn, content_unbroken unbroken]

theorem offset_first_line {body terminator : Text} (unbroken : Unbroken body)
    (ends : IsTerminator terminator) (rest : Text) (column : Nat) :
    offset ⟨body ++ terminator ++ rest⟩ ⟨0, column⟩ = charsBefore body column := by
  rw [offset, raw_lines_line unbroken ends, offsetIn, content_line unbroken ends]

theorem offset_later_line {body terminator : Text} (unbroken : Unbroken body)
    (ends : IsTerminator terminator) (rest : Text) (line column : Nat) :
    offset ⟨body ++ terminator ++ rest⟩ ⟨line + 1, column⟩ =
      (body ++ terminator).length + offset ⟨rest⟩ ⟨line, column⟩ := by
  rw [offset, raw_lines_line unbroken ends, offsetIn, offset]

/-- The end of a beginning of a plain document lies as many characters in as it is long. -/
theorem offset_end_of {document : Document} {before after : Text}
    (split : document.text = before ++ after) (beforePlain : Plain before)
    (afterPlain : Plain after) :
    document.offset (Position.endOf before) = before.length := by
  obtain ⟨text⟩ := document
  subst split
  induction before, beforePlain using Plain.line_induction with
  | last body unbroken =>
      rw [Position.end_of_unbroken unbroken]
      rcases plain_cases after afterPlain with unbrokenAfter | split
      · rw [offset_last (unbroken_append.mpr ⟨unbroken, unbrokenAfter⟩), chars_before_units]
      · obtain ⟨tail, terminator, rest, rfl, tailUnbroken, ends, -⟩ := split
        rw [← List.append_assoc, ← List.append_assoc,
          offset_first_line (unbroken_append.mpr ⟨unbroken, tailUnbroken⟩) ends,
          chars_before_units]
  | line body terminator rest unbroken ends restPlain induction =>
      rw [Position.end_of_line unbroken ends, List.append_assoc,
        offset_later_line unbroken ends, induction, ← List.length_append]

/-- Where a line stands in a document: between what comes before it, which ends in a line feed if it
is not empty, and its terminator with what comes after. -/
structure LineAt (document : Document) (number : Nat) (before body after : Text) : Prop where
  split : document.text = before ++ body ++ after
  line_eq : document.line? number = some body
  start_eq : Position.endOf before = ⟨number, 0⟩
  before_plain : Plain before
  unbroken : Unbroken body
  after_plain : Plain after
  left : ∀ c ∈ before.getLast?, c = '\n'
  right : ∀ c ∈ after.head?, isBreak c = true

theorem line_at_last {body : Text} (unbroken : Unbroken body) : LineAt ⟨body⟩ 0 [] body [] where
  split := by simp
  line_eq := by simp [line?, lines_last unbroken]
  start_eq := rfl
  before_plain := rfl
  unbroken := unbroken
  after_plain := rfl
  left := by simp
  right := by simp

theorem line_at_first {body terminator rest : Text} (unbroken : Unbroken body)
    (ends : IsTerminator terminator) (restPlain : Plain rest) :
    LineAt ⟨body ++ terminator ++ rest⟩ 0 [] body (terminator ++ rest) where
  split := by simp
  line_eq := by simp only [line?, lines_line unbroken ends, List.getElem?_cons_zero]
  start_eq := rfl
  before_plain := rfl
  unbroken := unbroken
  after_plain := (plain_terminator_append ends rest).mpr restPlain
  left := by simp
  right := by rcases ends with rfl | rfl <;> simp [isBreak]

theorem LineAt.below {first terminator rest before body after : Text} {number : Nat}
    (line : LineAt ⟨rest⟩ number before body after) (unbroken : Unbroken first)
    (ends : IsTerminator terminator) :
    LineAt ⟨first ++ terminator ++ rest⟩ (number + 1) (first ++ terminator ++ before) body after
    where
  split := by
    rw [show rest = before ++ body ++ after from line.split]
    simp only [List.append_assoc]
  line_eq := by
    rw [line?, lines_line unbroken ends, List.getElem?_cons_succ]
    exact line.line_eq
  start_eq := by rw [Position.end_of_line unbroken ends, line.start_eq]
  before_plain := (plain_line unbroken ends).mpr line.before_plain
  unbroken := line.unbroken
  after_plain := line.after_plain
  left := by
    intro c last
    cases found : before.getLast? with
    | none =>
        rw [List.getLast?_append, found, Option.none_or, List.getLast?_append] at last
        rcases ends with rfl | rfl <;> exact (Option.some.inj last).symm
    | some d =>
        rw [List.getLast?_append, found, Option.some_or] at last
        exact line.left c (found.trans last)
  right := line.right

/-- What comes after a line starts with its terminator, unless the line is the last one. -/
theorem LineAt.exists_terminator {document : Document} {number : Nat} {before body after : Text}
    (line : LineAt document number before body after) (nonempty : after ≠ []) :
    ∃ terminator rest, after = terminator ++ rest ∧ IsTerminator terminator ∧ Plain rest := by
  have breaks := line.right _ (List.head?_eq_some_head nonempty)
  rcases plain_cases after line.after_plain with
    unbroken | ⟨front, terminator, rest, rfl, unbroken, ends, restPlain⟩
  · rw [unbroken _ (List.head_mem nonempty)] at breaks
    cases breaks
  · cases front with
    | nil => exact ⟨terminator, rest, rfl, ends, restPlain⟩
    | cons c front =>
        have kept : isBreak c = true := breaks
        rw [unbroken c List.mem_cons_self] at kept
        cases kept

theorem exists_line_at {document : Document} {number : Nat} {body : Text}
    (plain : Plain document.text) (found : document.line? number = some body) :
    ∃ before after, LineAt document number before body after := by
  obtain ⟨text⟩ := document
  induction text, plain using Plain.line_induction generalizing number with
  | last only unbroken =>
      rw [line?, lines_last unbroken, List.getElem?_singleton] at found
      obtain ⟨rfl, rfl⟩ : number = 0 ∧ only = body := by simpa using found
      exact ⟨[], [], line_at_last unbroken⟩
  | line first terminator rest unbroken ends restPlain induction =>
      rw [line?, lines_line unbroken ends] at found
      cases number with
      | zero =>
          obtain rfl : first = body := by simpa using found
          exact ⟨[], terminator ++ rest, line_at_first unbroken ends restPlain⟩
      | succ number =>
          obtain ⟨before, after, line⟩ := induction (List.getElem?_cons_succ.symm.trans found)
          exact ⟨first ++ terminator ++ before, after, line.below unbroken ends⟩

/-- Every cut of a plain document falls into one of its lines. -/
theorem exists_line_at_cut {document : Document} {left right : Text}
    (split : document.text = left ++ right) (leftPlain : Plain left) (rightPlain : Plain right) :
    ∃ before front back after, left = before ++ front ∧ right = back ++ after ∧
      LineAt document (Position.endOf left).line before (front ++ back) after := by
  obtain ⟨text⟩ := document
  obtain rfl : text = left ++ right := split
  induction left, leftPlain using Plain.line_induction with
  | last body unbroken =>
      rw [Position.end_of_unbroken unbroken]
      rcases plain_cases right rightPlain with unbrokenRight | cut
      · exact ⟨[], body, right, [], by simp, by simp,
          line_at_last (unbroken_append.mpr ⟨unbroken, unbrokenRight⟩)⟩
      · obtain ⟨tail, terminator, rest, rfl, tailUnbroken, ends, restPlain⟩ := cut
        refine ⟨[], body, tail, terminator ++ rest, by simp, by simp, ?_⟩
        rw [← List.append_assoc, ← List.append_assoc]
        exact line_at_first (unbroken_append.mpr ⟨unbroken, tailUnbroken⟩) ends restPlain
  | line body terminator rest unbroken ends restPlain induction =>
      obtain ⟨before, front, back, after, rfl, rfl, line⟩ := induction
      refine ⟨body ++ terminator ++ before, front, back, after, by simp, rfl, ?_⟩
      rw [Position.end_of_line unbroken ends, List.append_assoc _ (before ++ front)]
      exact line.below unbroken ends

theorem has_position_end_of {document : Document} {before after : Text}
    (split : document.text = before ++ after) (beforePlain : Plain before)
    (afterPlain : Plain after) :
    document.HasPosition (Position.endOf before) := by
  obtain ⟨upto, front, back, rest, rfl, rfl, line⟩ :=
    exists_line_at_cut split beforePlain afterPlain
  have unbroken := (unbroken_append.mp line.unbroken).1
  refine ⟨front ++ back, line.line_eq, front.length, by simp, ?_⟩
  rw [List.take_left, Position.end_of_append, line.start_eq, Position.advance_unbroken _ unbroken]
  exact (Nat.zero_add _).symm

/-- Every position of a plain document is the end of one of its beginnings. -/
theorem HasPosition.exists_split {document : Document} {position : Position}
    (present : document.HasPosition position) (plain : Plain document.text) :
    ∃ before after, document.text = before ++ after ∧ Plain before ∧ Plain after ∧
      position = Position.endOf before := by
  obtain ⟨number, column⟩ := position
  obtain ⟨body, found, count, -, rfl⟩ := present
  obtain ⟨before, after, line⟩ := exists_line_at plain found
  have pieces := unbroken_append.mp ((List.take_append_drop count body).symm ▸ line.unbroken)
  refine ⟨before ++ body.take count, body.drop count ++ after, ?_,
    line.before_plain.append pieces.1.plain, pieces.2.plain.append line.after_plain, ?_⟩
  · rw [line.split, ← List.append_assoc, List.append_assoc before (body.take count),
      List.take_append_drop]
  · rw [Position.end_of_append, line.start_eq, Position.advance_unbroken _ pieces.1, Nat.zero_add]

theorem HasPosition.offset_le_iff {document : Document} {left right : Position}
    (leftPresent : document.HasPosition left) (rightPresent : document.HasPosition right)
    (plain : Plain document.text) :
    document.offset left ≤ document.offset right ↔ left ≤ right := by
  obtain ⟨before, after, split, beforePlain, afterPlain, rfl⟩ := leftPresent.exists_split plain
  obtain ⟨upto, rest, otherSplit, uptoPlain, restPlain, rfl⟩ := rightPresent.exists_split plain
  have same : before ++ after = upto ++ rest := split.symm.trans otherSplit
  rw [offset_end_of split beforePlain afterPlain, offset_end_of otherSplit uptoPlain restPlain,
    Position.end_of_le_iff same]

theorem HasPosition.eq_of_offset_eq {document : Document} {left right : Position}
    (leftPresent : document.HasPosition left) (rightPresent : document.HasPosition right)
    (plain : Plain document.text) (same : document.offset left = document.offset right) :
    left = right :=
  le_antisymm ((leftPresent.offset_le_iff rightPresent plain).mp same.le)
    ((rightPresent.offset_le_iff leftPresent plain).mp same.ge)

end Document
end PhpNames
