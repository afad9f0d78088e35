import Mathlib.Algebra.BigOperators.Group.List.Basic
import Mathlib.Algebra.Ring.Int.Defs
import Mathlib.Data.List.TakeWhile
import Mathlib.Tactic.MkIffOfInductiveProp
import PhpNames.Proofs.InsertionSort
import PhpNames.Proofs.Layout
import PhpNames.Proofs.Rewriting

/-!
Batches of edits on plain documents: a batch replaces all its ranges at once, and a position moved
through it stays where it was in the text.

A batch is carried out last start first. `Edit.Stacked` is what this order gives: each edit lies in
the part of the text that the edits before it in the list have left alone, so its line and columns
still mean there what they meant at first. Every statement about a whole batch is an induction over
`Edit.Stacked`, with one step for a single edit.
-/

namespace PhpNames

open Text

namespace Edit

/-! ### One edit -/

structure Fits (edit : Edit) (before replaced after : Text) : Prop where
  before_plain : Plain before
  replaced_plain : Plain replaced
  after_plain : Plain after
  text_plain : Plain edit.text
  start_eq : edit.range.start = Position.endOf before
  stop_eq : edit.range.stop = Position.endOf (before ++ replaced)

theorem exists_fits {document : Document} {edit : Edit}
    (plain : Plain document.text) (textPlain : Plain edit.text)
    (starts : document.HasPosition edit.range.start)
    (stops : document.HasPosition edit.range.stop)
    (ordered : edit.range.start ≤ edit.range.stop) :
    ∃ before replaced after, document.text = before ++ replaced ++ after ∧
      edit.Fits before replaced after := by
  obtain ⟨before, behind, split, beforePlain, -, startEq⟩ := starts.exists_split plain
  obtain ⟨upto, after, splitStop, uptoPlain, afterPlain, stopEq⟩ := stops.exists_split plain
  rw [startEq, stopEq] at ordered
  obtain ⟨replaced, rfl, -⟩ :=
    Position.exists_between (split.symm.trans splitStop) ordered
  exact ⟨before, replaced, after, splitStop, beforePlain,
    (beforePlain.append_iff replaced).mp uptoPlain, afterPlain, textPlain, startEq, stopEq⟩

variable {edit : Edit} {before replaced after : Text}

theorem Fits.widen (fits : edit.Fits before replaced after) {behind : Text}
    (behindPlain : Plain behind) : edit.Fits before replaced (after ++ behind) :=
  { fits with after_plain := fits.after_plain.append behindPlain }

theorem Fits.rest_plain (fits : edit.Fits before replaced after) : Plain (replaced ++ after) :=
  fits.replaced_plain.append fits.after_plain

theorem Fits.splice_eq (fits : edit.Fits before replaced after) {document : Document}
    (split : document.text = before ++ replaced ++ after) :
    document.offset edit.range.start = before.length ∧
      document.offset edit.range.stop = (before ++ replaced).length := by
  constructor
  · rw [fits.start_eq]
    exact Document.offset_end_of (split.trans (List.append_assoc _ _ _)) fits.before_plain
      fits.rest_plain
  · rw [fits.stop_eq]
    exact Document.offset_end_of split (fits.before_plain.append fits.replaced_plain)
      fits.after_plain

theorem replace_of_offset {document : Document}
    (split : document.text = before ++ replaced ++ after)
    (start : document.offset edit.range.start = before.length)
    (stop : document.offset edit.range.stop = (before ++ replaced).length) :
    document.replace edit = ⟨before ++ edit.text ++ after⟩ := by
  have ordered : before.length ≤ (before ++ replaced).length := by simp
  have front : (before ++ replaced ++ after).take before.length = before := by
    rw [List.append_assoc, List.take_left]
  simp only [Document.replace, start, stop, Nat.max_eq_left ordered, split, front,
    List.drop_left]

theorem Fits.replace_eq (fits : edit.Fits before replaced after) {document : Document}
    (split : document.text = before ++ replaced ++ after) :
    document.replace edit = ⟨before ++ edit.text ++ after⟩ :=
  replace_of_offset split (fits.splice_eq split).1 (fits.splice_eq split).2

/-- The new text is its last line, after nothing or after a line feed. -/
theorem exists_last_line (edit : Edit) :
    ∃ front, edit.text = front ++ edit.lastLine ∧ edit.lastLine.count '\n' = 0 ∧
      (front = [] ∨ ∃ earlier, front = earlier ++ ['\n']) := by
  refine ⟨(edit.text.reverse.dropWhile (· != '\n')).reverse, ?_, ?_, ?_⟩
  · rw [lastLine, ← List.reverse_append, List.takeWhile_append_dropWhile, List.reverse_reverse]
  · rw [lastLine, List.count_eq_zero, List.mem_reverse]
    intro member
    simpa using List.mem_takeWhile_imp member
  · cases left : edit.text.reverse.dropWhile (· != '\n') with
    | nil =>
        left
        rfl
    | cons c rest =>
        right
        have feed : c = '\n' := by
          have stopped := List.head?_dropWhile_not (· != '\n') edit.text.reverse
          simpa [left] using stopped
        exact ⟨rest.reverse, by rw [feed, List.reverse_cons]⟩

/-- The position at which the new text ends. -/
theorem start_advance (edit : Edit) :
    edit.range.start.advance edit.text =
      ⟨edit.range.start.line + edit.lineFeeds, edit.endColumn⟩ := by
  obtain ⟨front, text_eq, lastSameLine, boundary⟩ := edit.exists_last_line
  have line := Position.advance_line edit.range.start edit.text
  have column : (edit.range.start.advance edit.text).column = edit.endColumn := by
    rcases boundary with rfl | ⟨earlier, rfl⟩
    · rw [List.nil_append] at text_eq
      have noFeeds : edit.lineFeeds = 0 := by rw [lineFeeds, text_eq, lastSameLine]
      rw [endColumn, if_pos noFeeds, Position.advance_column_same_line _ noFeeds, ← text_eq]
    · have feeds : edit.lineFeeds ≠ 0 := by
        rw [lineFeeds, text_eq]
        simp
      rw [endColumn, if_neg feeds, text_eq, Position.advance_append,
        Position.advance_column_same_line _ lastSameLine, Position.advance_append]
      simp [Position.step]
  cases reached : edit.range.start.advance edit.text
  simp_all [lineFeeds]

/-- Behind the range, a position follows the text that it stands behind. -/
theorem shift_one_behind {edit : Edit} (text : Text) :
    Position.shiftOne (edit.range.stop.advance text) edit =
      (edit.range.start.advance edit.text).advance text := by
  have line := Position.advance_line edit.range.stop text
  have reachedLine :=
    Position.advance_line ⟨edit.range.start.line + edit.lineFeeds, edit.endColumn⟩ text
  rw [Position.shiftOne, if_pos (Position.le_advance _ text), start_advance]
  by_cases sameLine : text.count '\n' = 0
  · have column := Position.advance_column_same_line edit.range.stop sameLine
    have reachedColumn := Position.advance_column_same_line
      ⟨edit.range.start.line + edit.lineFeeds, edit.endColumn⟩ sameLine
    rw [if_pos (by omega)]
    cases reached :
      Position.advance ⟨edit.range.start.line + edit.lineFeeds, edit.endColumn⟩ text
    simp only [reached] at reachedLine reachedColumn
    simp only [Position.mk.injEq]
    omega
  · have reachedColumn := Position.advance_column_later_line edit.range.stop
      ⟨edit.range.start.line + edit.lineFeeds, edit.endColumn⟩ sameLine
    rw [if_neg (by omega)]
    cases reached :
      Position.advance ⟨edit.range.start.line + edit.lineFeeds, edit.endColumn⟩ text
    simp only [reached] at reachedLine reachedColumn
    simp only [Position.mk.injEq]
    omega

theorem Fits.shift_one_behind (fits : edit.Fits before replaced after) (text : Text) :
    Position.shiftOne (Position.endOf (before ++ replaced ++ text)) edit =
      Position.endOf (before ++ edit.text ++ text) := by
  rw [Position.end_of_append, ← fits.stop_eq, Edit.shift_one_behind, Position.end_of_append,
    Position.end_of_append, fits.start_eq]

/-- Inside the range, a position goes to its start. -/
theorem Fits.shift_one_inside (fits : edit.Fits before replaced after) {inner rest : Text}
    (split : replaced = inner ++ rest) (rest_ne : rest ≠ []) :
    Position.shiftOne (Position.endOf (before ++ inner)) edit = Position.endOf before := by
  have beforeStop : Position.endOf (before ++ inner) < edit.range.stop := by
    rw [fits.stop_eq, split, ← List.append_assoc, Position.end_of_append (before ++ inner)]
    exact Position.lt_advance _ rest_ne
  rw [Position.shiftOne, if_neg beforeStop.not_ge]
  by_cases empty : inner = []
  · subst empty
    rw [List.append_nil, ← fits.start_eq, if_neg (lt_irrefl _)]
  · have afterStart : edit.range.start < Position.endOf (before ++ inner) := by
      rw [fits.start_eq, Position.end_of_append]
      exact Position.lt_advance _ empty
    rw [if_pos afterStart, fits.start_eq]

/-- In front of the range, a position stays where it is. -/
theorem Fits.shift_one_ahead (fits : edit.Fits before replaced after) {front rest : Text}
    (split : before = front ++ rest) (ahead : rest ++ replaced ≠ []) :
    Position.shiftOne (Position.endOf front) edit = Position.endOf front := by
  have beforeStop : Position.endOf front < edit.range.stop := by
    rw [fits.stop_eq, split, List.append_assoc, Position.end_of_append front]
    exact Position.lt_advance _ ahead
  have notAfterStart : Position.endOf front ≤ edit.range.start := by
    rw [fits.start_eq, split, Position.end_of_append]
    exact Position.le_advance _ rest
  rw [Position.shiftOne, if_neg beforeStop.not_ge, if_neg notAfterStart.not_gt]

/-! ### A batch, last start first -/

/-- Edits, last one first, that turn a text into another. Each lies in what the ones before it in
the list leave in front of them. -/
inductive Stacked : Text → List Edit → Text → Prop where
  | nil (text : Text) : Stacked text [] text
  | cons {edit : Edit} {before replaced after rewritten : Text} {rest : List Edit}
      (fits : edit.Fits before replaced after) (stacked : Stacked before rest rewritten) :
      Stacked (before ++ replaced ++ after) (edit :: rest) (rewritten ++ edit.text ++ after)

/-- Edits of existing ranges, each of which stops where the one before it in the list starts or
earlier, are stacked. -/
theorem exists_stacked {document : Document} {edits : List Edit} {text behind : Text}
    (split : document.text = text ++ behind) (plain : Plain document.text)
    (textPlain : Plain text)
    (newPlain : ∀ edit ∈ edits, Plain edit.text)
    (starts : ∀ edit ∈ edits, document.HasPosition edit.range.start)
    (stops : ∀ edit ∈ edits, document.HasPosition edit.range.stop)
    (ordered : ∀ edit ∈ edits, edit.range.start ≤ edit.range.stop)
    (inside : ∀ edit ∈ edits, edit.range.stop ≤ Position.endOf text)
    (descending : edits.Pairwise fun later earlier => earlier.range.stop ≤ later.range.start) :
    ∃ rewritten, Stacked text edits rewritten := by
  induction edits generalizing text behind with
  | nil => exact ⟨text, .nil text⟩
  | cons edit rest induction =>
      obtain ⟨before, replaced, after, whole, fits⟩ := exists_fits plain
        (newPlain edit List.mem_cons_self) (starts edit List.mem_cons_self)
        (stops edit List.mem_cons_self) (ordered edit List.mem_cons_self)
      obtain ⟨below, restDescending⟩ := List.pairwise_cons.mp descending
      have same : before ++ replaced ++ after = text ++ behind := whole.symm.trans split
      have within := inside edit List.mem_cons_self
      rw [fits.stop_eq] at within
      obtain ⟨inner, rfl, -⟩ := Position.exists_between same within
      have frontPlain : Plain (before ++ replaced) := fits.before_plain.append fits.replaced_plain
      have innerPlain : Plain inner := (frontPlain.append_iff inner).mp textPlain
      obtain ⟨rewritten, stacked⟩ := induction
        (whole.trans (List.append_assoc _ _ _)) fits.before_plain
        (fun other member => newPlain other (List.mem_cons_of_mem edit member))
        (fun other member => starts other (List.mem_cons_of_mem edit member))
        (fun other member => stops other (List.mem_cons_of_mem edit member))
        (fun other member => ordered other (List.mem_cons_of_mem edit member))
        (fun other member => fits.start_eq ▸ below other member) restDescending
      exact ⟨rewritten ++ edit.text ++ inner,
        .cons { fits with after_plain := innerPlain } stacked⟩

variable {text rewritten : Text} {edits : List Edit}

theorem Stacked.fits_of_mem (stacked : Stacked text edits rewritten)
    {edit : Edit} (member : edit ∈ edits) :
    ∃ before replaced after, text = before ++ replaced ++ after ∧
      edit.Fits before replaced after := by
  induction stacked with
  | nil => cases member
  | @cons first before replaced after rewritten rest fits _ induction =>
      rcases List.mem_cons.mp member with rfl | member
      · exact ⟨before, replaced, after, rfl, fits⟩
      · obtain ⟨inner, innerReplaced, innerAfter, rfl, innerFits⟩ := induction member
        exact ⟨inner, innerReplaced, innerAfter ++ (replaced ++ after),
          by simp only [List.append_assoc], innerFits.widen fits.rest_plain⟩

theorem Stacked.stop_le (stacked : Stacked text edits rewritten)
    {edit : Edit} (member : edit ∈ edits) : edit.range.stop ≤ Position.endOf text := by
  obtain ⟨before, replaced, after, rfl, fits⟩ := stacked.fits_of_mem member
  rw [fits.stop_eq, Position.end_of_append (before ++ replaced)]
  exact Position.le_advance _ _

theorem Stacked.plain (stacked : Stacked text edits rewritten) (textPlain : Plain text) :
    Plain rewritten := by
  induction stacked with
  | nil => exact textPlain
  | cons fits _ induction =>
      exact ((induction fits.before_plain).append fits.text_plain).append fits.after_plain

/-- The batch changes the text in front, and leaves alone what stands behind all its ranges. -/
theorem Stacked.foldl_replace (stacked : Stacked text edits rewritten) {behind : Text}
    (behindPlain : Plain behind) :
    edits.foldl Document.replace ⟨text ++ behind⟩ = ⟨rewritten ++ behind⟩ := by
  induction stacked generalizing behind with
  | nil => rfl
  | @cons edit before replaced after rewritten rest fits _ induction =>
      have wider := fits.widen behindPlain
      have newBehind : Plain (edit.text ++ (after ++ behind)) :=
        fits.text_plain.append wider.after_plain
      rw [List.foldl_cons, List.append_assoc _ after behind, wider.replace_eq rfl,
        List.append_assoc,
        induction newBehind]
      simp only [List.append_assoc]

/-- A position behind all ranges follows the text that it stands behind. -/
theorem Stacked.foldl_shift_one_behind (stacked : Stacked text edits rewritten) (behind : Text) :
    edits.foldl Position.shiftOne (Position.endOf (text ++ behind)) =
      Position.endOf (rewritten ++ behind) := by
  induction stacked generalizing behind with
  | nil => rfl
  | cons fits _ induction =>
      rw [List.foldl_cons, List.append_assoc _ _ behind, fits.shift_one_behind, List.append_assoc,
        induction]
      simp only [List.append_assoc]

end Edit

namespace Document

def splice (document : Document) (edit : Edit) : Splice :=
  ⟨document.offset edit.range.start, document.offset edit.range.stop, edit.text⟩

/-- By how much the edits that stop at a position or before it make the text longer. -/
def growthBefore (document : Document) (edits : List Edit) (position : Position) : Int :=
  ((edits.filter fun edit => decide (edit.range.stop ≤ position)).map
    fun edit => (document.splice edit).growth).sum

end Document

namespace Edit

section Growth

variable {document : Document} {text rewritten : Text} {edits : List Edit}

theorem Fits.growth_eq {edit : Edit} {before replaced after : Text}
    (fits : edit.Fits before replaced after)
    (split : document.text = before ++ replaced ++ after) :
    (document.splice edit).growth = edit.text.length - replaced.length := by
  obtain ⟨start, stop⟩ := fits.splice_eq split
  simp only [Splice.growth, Document.splice, start, stop, List.length_append]
  omega

theorem growth_before_cons_of_le {edit : Edit} {rest : List Edit} {position : Position}
    (le : edit.range.stop ≤ position) :
    document.growthBefore (edit :: rest) position =
      (document.splice edit).growth + document.growthBefore rest position := by
  simp [Document.growthBefore, le]

theorem growth_before_cons_of_lt {edit : Edit} {rest : List Edit} {position : Position}
    (lt : position < edit.range.stop) :
    document.growthBefore (edit :: rest) position = document.growthBefore rest position := by
  simp [Document.growthBefore, lt.not_ge]

/-- How long the text gets. -/
theorem Stacked.length_eq (stacked : Stacked text edits rewritten) {behind : Text}
    (split : document.text = text ++ behind) (behindPlain : Plain behind)
    {position : Position} (behindAll : Position.endOf text ≤ position) :
    (rewritten.length : Int) = text.length + document.growthBefore edits position := by
  induction stacked generalizing behind with
  | nil => simp [Document.growthBefore]
  | @cons edit before replaced after rewritten rest fits stacked induction =>
      have wider := fits.widen behindPlain
      have growth := wider.growth_eq (split.trans (List.append_assoc _ _ _))
      have stopLe : edit.range.stop ≤ position :=
        ((Stacked.cons fits stacked).stop_le List.mem_cons_self).trans behindAll
      have frontLe : Position.endOf before ≤ position := by
        refine le_trans ?_ behindAll
        rw [List.append_assoc, Position.end_of_append]
        exact Position.le_advance _ _
      have nested : document.text = before ++ (replaced ++ (after ++ behind)) :=
        split.trans (by simp only [List.append_assoc])
      have shorter := induction nested wider.rest_plain frontLe
      rw [growth_before_cons_of_le stopLe, growth]
      simp only [List.length_append]
      omega

/-- A position outside all ranges moves by the growth of the edits that it stands behind. -/
theorem Stacked.shift_outside (stacked : Stacked text edits rewritten) {behind : Text}
    (split : document.text = text ++ behind) (behindPlain : Plain behind)
    {front rest : Text} (cut : text = front ++ rest) (frontPlain : Plain front)
    (restPlain : Plain rest)
    (outside : ∀ edit ∈ edits, ¬(edit.range.start < Position.endOf front ∧
      Position.endOf front < edit.range.stop)) :
    ∃ newFront newRest, rewritten = newFront ++ newRest ∧ Plain newFront ∧ Plain newRest ∧
      edits.foldl Position.shiftOne (Position.endOf front) = Position.endOf newFront ∧
      (newFront.length : Int) =
        front.length + document.growthBefore edits (Position.endOf front) := by
  induction stacked generalizing behind rest with
  | nil => exact ⟨front, rest, cut, frontPlain, restPlain, rfl, by simp [Document.growthBefore]⟩
  | @cons edit before replaced after rewritten later fits stacked induction =>
      have wider := fits.widen behindPlain
      have whole : document.text = before ++ replaced ++ (after ++ behind) :=
        split.trans (List.append_assoc _ _ _)
      have nested : document.text = before ++ (replaced ++ (after ++ behind)) :=
        whole.trans (List.append_assoc _ _ _)
      by_cases stopLe : edit.range.stop ≤ Position.endOf front
      · -- the position stands behind this edit, and so behind all that follow in the list
        obtain ⟨inner, rfl, rfl⟩ := Position.exists_between cut (fits.stop_eq ▸ stopLe)
        have innerPlain : Plain inner :=
          ((fits.before_plain.append fits.replaced_plain).append_iff inner).mp frontPlain
        have frontLe : Position.endOf before ≤ Position.endOf (before ++ replaced ++ inner) := by
          rw [List.append_assoc, Position.end_of_append]
          exact Position.le_advance _ _
        have shorter := stacked.length_eq nested wider.rest_plain frontLe
        refine ⟨rewritten ++ edit.text ++ inner, rest, by simp only [List.append_assoc],
          ((stacked.plain fits.before_plain).append fits.text_plain).append innerPlain,
          restPlain, ?_, ?_⟩
        · rw [List.foldl_cons, fits.shift_one_behind, List.append_assoc,
            stacked.foldl_shift_one_behind, List.append_assoc]
        · rw [growth_before_cons_of_le stopLe, wider.growth_eq whole]
          simp only [List.length_append]
          omega
      · -- the position stands in front of this edit
        have startGe : Position.endOf front ≤ edit.range.start := by
          by_contra beyond
          exact outside edit List.mem_cons_self ⟨not_le.mp beyond, not_le.mp stopLe⟩
        obtain ⟨inner, rfl, -⟩ := Position.exists_between
          (cut.symm.trans (List.append_assoc _ _ _)) (fits.start_eq ▸ startGe)
        have ahead : inner ++ replaced ≠ [] := by
          intro empty
          apply stopLe
          rw [fits.stop_eq, List.append_assoc, empty, List.append_nil]
        obtain ⟨newFront, newRest, rfl, newFrontPlain, newRestPlain, moved, length⟩ :=
          induction nested wider.rest_plain rfl ((frontPlain.append_iff inner).mp fits.before_plain)
            (fun other member => outside other (List.mem_cons_of_mem edit member))
        refine ⟨newFront, newRest ++ edit.text ++ after, by simp only [List.append_assoc],
          newFrontPlain, (newRestPlain.append fits.text_plain).append fits.after_plain, ?_, ?_⟩
        · rw [List.foldl_cons, fits.shift_one_ahead rfl ahead, moved]
        · rw [growth_before_cons_of_lt (not_le.mp stopLe), length]

/-- A position inside a range goes to where the new text of that range begins. -/
theorem Stacked.shift_inside (stacked : Stacked text edits rewritten) {behind : Text}
    (split : document.text = text ++ behind) (behindPlain : Plain behind)
    {edit : Edit} (member : edit ∈ edits) {front rest : Text} (cut : text = front ++ rest)
    (started : edit.range.start < Position.endOf front)
    (unfinished : Position.endOf front < edit.range.stop) :
    ∃ newFront newRest, rewritten = newFront ++ edit.text ++ newRest ∧ Plain newFront ∧
      Plain newRest ∧
      edits.foldl Position.shiftOne (Position.endOf front) = Position.endOf newFront ∧
      (newFront.length : Int) = document.offset edit.range.start +
        document.growthBefore edits edit.range.start := by
  induction stacked generalizing behind rest with
  | nil => cases member
  | @cons first before replaced after rewritten later fits stacked induction =>
      have wider := fits.widen behindPlain
      have whole : document.text = before ++ replaced ++ (after ++ behind) :=
        split.trans (List.append_assoc _ _ _)
      have nested : document.text = before ++ (replaced ++ (after ++ behind)) :=
        whole.trans (List.append_assoc _ _ _)
      rcases List.mem_cons.mp member with rfl | later_member
      · -- this is the range
        obtain ⟨inner, rfl, inner_rest⟩ := Position.exists_between
          ((List.append_assoc _ _ _).symm.trans cut) (fits.start_eq ▸ started.le)
        obtain ⟨outer, stop_eq, rest_eq⟩ :=
          Position.exists_between cut.symm (fits.stop_eq ▸ unfinished.le)
        have replaced_eq : replaced = inner ++ outer := by
          rw [List.append_assoc] at stop_eq
          exact List.append_cancel_left stop_eq
        have outer_ne : outer ≠ [] := by
          rintro rfl
          rw [fits.stop_eq, stop_eq, List.append_nil] at unfinished
          exact lt_irrefl _ unfinished
        have startLt : edit.range.start < edit.range.stop := started.trans unfinished
        have shorter := stacked.length_eq nested wider.rest_plain (le_of_eq fits.start_eq.symm)
        refine ⟨rewritten, after, rfl, stacked.plain fits.before_plain, fits.after_plain, ?_, ?_⟩
        · have rest_moved := stacked.foldl_shift_one_behind []
          simp only [List.append_nil] at rest_moved
          rw [List.foldl_cons, fits.shift_one_inside replaced_eq outer_ne, rest_moved]
        · rw [growth_before_cons_of_lt startLt, (wider.splice_eq whole).1, shorter]
      · -- the range lies in front of this edit, and the position with it
        have stopLe := stacked.stop_le later_member
        have inFront : Position.endOf front < Position.endOf before := unfinished.trans_le stopLe
        obtain ⟨inner, rfl, -⟩ := Position.exists_between
          (cut.symm.trans (List.append_assoc _ _ _)) inFront.le
        have inner_ne : inner ≠ [] := by
          rintro rfl
          rw [List.append_nil] at inFront
          exact lt_irrefl _ inFront
        have ahead : inner ++ replaced ≠ [] := by
          intro empty
          exact inner_ne (List.append_eq_nil_iff.mp empty).1
        obtain ⟨newFront, newRest, rfl, newFrontPlain, newRestPlain, moved, length⟩ :=
          induction nested wider.rest_plain later_member rfl
        have firstStop : edit.range.start < first.range.stop := by
          apply (started.trans inFront).trans_le
          rw [fits.stop_eq, Position.end_of_append (_ ++ _) replaced]
          exact Position.le_advance _ _
        refine ⟨newFront, newRest ++ first.text ++ after, by simp only [List.append_assoc],
          newFrontPlain, (newRestPlain.append fits.text_plain).append fits.after_plain, ?_, ?_⟩
        · rw [List.foldl_cons, fits.shift_one_ahead rfl ahead, moved]
        · rw [growth_before_cons_of_lt firstStop, length]

theorem Stacked.splices_inside (stacked : Stacked text edits rewritten) {behind : Text}
    (split : document.text = text ++ behind) (behindPlain : Plain behind)
    {splice : Splice} (member : splice ∈ edits.map document.splice) :
    splice.start ≤ splice.stop ∧ splice.stop ≤ text.length := by
  obtain ⟨edit, inEdits, rfl⟩ := List.mem_map.mp member
  obtain ⟨before, replaced, after, rfl, fits⟩ := stacked.fits_of_mem inEdits
  obtain ⟨start, stop⟩ := (fits.widen behindPlain).splice_eq
    (split.trans (List.append_assoc _ _ _))
  simp only [Document.splice, start, stop, List.length_append]
  omega

/-- A stacked batch replaces all its ranges at once. -/
theorem Stacked.eq_at_once (stacked : Stacked text edits rewritten) {behind : Text}
    (split : document.text = text ++ behind) (behindPlain : Plain behind)
    (distinct : (edits.map document.splice).Pairwise fun left right => left.start ≠ right.start) :
    rewritten = Splice.atOnce (edits.map document.splice) text := by
  induction stacked generalizing behind with
  | nil => simp
  | @cons edit before replaced after rewritten rest fits stacked induction =>
      have wider := fits.widen behindPlain
      have whole : document.text = before ++ replaced ++ (after ++ behind) :=
        split.trans (List.append_assoc _ _ _)
      have nested : document.text = before ++ (replaced ++ (after ++ behind)) :=
        whole.trans (List.append_assoc _ _ _)
      have start : (document.splice edit).start = before.length := (wider.splice_eq whole).1
      have stop : (document.splice edit).stop = (before ++ replaced).length :=
        (wider.splice_eq whole).2
      obtain ⟨different, restDistinct⟩ := List.pairwise_cons.mp distinct
      -- the other replacements start and stop in front of this one, which comes last
      have inFront : ∀ other ∈ rest.map document.splice, other.start ≤ other.stop ∧
          other.stop ≤ before.length ∧ other.start < before.length := by
        intro other member
        have bounds := stacked.splices_inside nested wider.rest_plain member
        have notSame := different other member
        omega
      have ordered : ∀ other ∈ rest.map document.splice, other.start ≤ other.stop :=
        fun other member => (inFront other member).1
      have apart : ∀ other ∈ rest.map document.splice, other.Apart (document.splice edit) := by
        intro other member
        have bounds := inFront other member
        rw [Splice.Apart, start]
        omega
      have untouched : Splice.finish (rest.map document.splice) (document.splice edit).stop after =
          after := by
        apply Splice.finish_untouched
        intro other member
        have bounds := inFront other member
        rw [stop, List.length_append]
        omega
      have front : rewritten = Splice.walk (rest.map document.splice) 0 before := by
        rw [induction nested wider.rest_plain restDistinct]
        exact Splice.at_once_eq_walk fun other member => (inFront other member).2.2
      have moved : ((edit :: rest).map document.splice).Perm
          (rest.map document.splice ++ [document.splice edit]) :=
        (List.perm_append_singleton _ _).symm
      rw [Splice.at_once_perm moved distinct,
        Splice.at_once_add ordered apart after start stop, untouched, front]
      rfl

end Growth

end Edit

/-! ### Valid batches -/

namespace Document

/-- A batch of edits of existing ranges that do not overlap and start at different places, with
plain new texts. -/
@[mk_iff]
structure Admits (document : Document) (edits : List Edit) : Prop where
  starts : ∀ edit ∈ edits, document.HasPosition edit.range.start
  stops : ∀ edit ∈ edits, document.HasPosition edit.range.stop
  ordered : ∀ edit ∈ edits, edit.range.start ≤ edit.range.stop
  texts : ∀ edit ∈ edits, Plain edit.text
  apart : edits.Pairwise fun left right =>
    left.range.stop ≤ right.range.start ∨ right.range.stop ≤ left.range.start
  distinct : edits.Pairwise fun left right => left.range.start ≠ right.range.start

instance (document : Document) (edits : List Edit) : Decidable (document.Admits edits) :=
  decidable_of_iff' _ (admits_iff document edits)

variable {document : Document} {edits : List Edit}

theorem Admits.splices_distinct (valid : document.Admits edits) (plain : Plain document.text) :
    (edits.map document.splice).Pairwise fun left right => left.start ≠ right.start := by
  rw [List.pairwise_map]
  apply valid.distinct.imp_of_mem
  intro left right leftMember rightMember different same
  exact different ((valid.starts left leftMember).eq_of_offset_eq
    (valid.starts right rightMember) plain same)

theorem bottom_up_perm (edits : List Edit) : (Edit.bottomUp edits).Perm edits :=
  StableSort.sort_perm _ edits

theorem bottom_up_sorted (edits : List Edit) :
    (Edit.bottomUp edits).Pairwise
      fun later earlier => earlier.range.start ≤ later.range.start := by
  apply (StableSort.sort_pairwise _ _ edits).imp of_decide_eq_true
  · intro left right
    simpa using le_total right.range.start left.range.start
  · intro first second third firstLe secondLe
    simp only [decide_eq_true_eq] at firstLe secondLe ⊢
    exact secondLe.trans firstLe

/-- The order in which a valid batch is carried out puts each range in front of those before it. -/
theorem Admits.bottom_up_descending (valid : document.Admits edits) :
    (Edit.bottomUp edits).Pairwise
      fun later earlier => earlier.range.stop ≤ later.range.start := by
  have perm := bottom_up_perm edits
  have apart := (perm.pairwise_iff (fun h => h.symm)).mpr valid.apart
  have distinct := (perm.pairwise_iff (fun h => Ne.symm h)).mpr valid.distinct
  refine ((bottom_up_sorted edits).and (apart.and distinct)).imp_of_mem ?_
  intro later earlier laterMember _ ⟨le, sides, different⟩
  have inOrder := valid.ordered later (perm.mem_iff.mp laterMember)
  have lt := lt_of_le_of_ne le (Ne.symm different)
  rcases sides with stopLe | stopLe
  · exact absurd lt (inOrder.trans stopLe).not_gt
  · exact stopLe

theorem Admits.exists_stacked (valid : document.Admits edits) (plain : Plain document.text) :
    ∃ rewritten, Edit.Stacked document.text (Edit.bottomUp edits) rewritten := by
  have perm := bottom_up_perm edits
  apply Edit.exists_stacked (List.append_nil _).symm plain plain
  · exact fun edit member => valid.texts edit (perm.mem_iff.mp member)
  · exact fun edit member => valid.starts edit (perm.mem_iff.mp member)
  · exact fun edit member => valid.stops edit (perm.mem_iff.mp member)
  · exact fun edit member => valid.ordered edit (perm.mem_iff.mp member)
  · intro edit member
    obtain ⟨before, after, split, -, -, stop_eq⟩ :=
      (valid.stops edit (perm.mem_iff.mp member)).exists_split plain
    rw [stop_eq, split, Position.end_of_append]
    exact Position.le_advance _ _
  · exact valid.bottom_up_descending

theorem Admits.perm {other : List Edit} (valid : document.Admits edits)
    (perm : other.Perm edits) : document.Admits other where
  starts edit member := valid.starts edit (perm.mem_iff.mp member)
  stops edit member := valid.stops edit (perm.mem_iff.mp member)
  ordered edit member := valid.ordered edit (perm.mem_iff.mp member)
  texts edit member := valid.texts edit (perm.mem_iff.mp member)
  apart := (perm.pairwise_iff Or.symm).mpr valid.apart
  distinct := (perm.pairwise_iff Ne.symm).mpr valid.distinct

theorem growth_before_perm {other : List Edit} (perm : other.Perm edits) (position : Position) :
    document.growthBefore other position = document.growthBefore edits position :=
  ((perm.filter _).map _).sum_eq

theorem replace_all_of_stacked {rewritten : Text}
    (stacked : Edit.Stacked document.text (Edit.bottomUp edits) rewritten) :
    document.replaceAll edits = ⟨rewritten⟩ := by
  have carriedOut := stacked.foldl_replace plain_nil
  rw [List.append_nil, List.append_nil] at carriedOut
  exact carriedOut

theorem Admits.replace_all_text (valid : document.Admits edits) (plain : Plain document.text) :
    (document.replaceAll edits).text =
      Splice.atOnce (edits.map document.splice) document.text := by
  obtain ⟨rewritten, stacked⟩ := valid.exists_stacked plain
  have perm := (bottom_up_perm edits).map document.splice
  have distinct := (perm.pairwise_iff Ne.symm).mpr (valid.splices_distinct plain)
  rw [replace_all_of_stacked stacked,
    stacked.eq_at_once (List.append_nil _).symm plain_nil distinct,
    Splice.at_once_perm perm distinct]

/-- A valid batch replaces all its ranges at once, in whatever order it lists them. -/
theorem replace_all_at_once (document : Document) (edits : List Edit)
    (plain : Plain document.text) (valid : document.Admits edits) :
    (document.replaceAll edits).text =
        Splice.atOnce (edits.map document.splice) document.text ∧
      ∀ other, other.Perm edits → document.replaceAll other = document.replaceAll edits := by
  refine ⟨valid.replace_all_text plain, ?_⟩
  intro other perm
  have otherText := (valid.perm perm).replace_all_text plain
  have distinct := (valid.perm perm).splices_distinct plain
  rw [Splice.at_once_perm (perm.map _) distinct, ← valid.replace_all_text plain] at otherText
  exact congrArg Document.mk otherText

theorem replace_all_at_once_touching_edits :
    (Document.mk "a𝒳b\r\ncd\nef".toList).Admits
        [⟨⟨⟨1, 0⟩, ⟨1, 1⟩⟩, "x\r\ny".toList⟩, ⟨⟨⟨0, 3⟩, ⟨1, 0⟩⟩, []⟩,
          ⟨⟨⟨2, 1⟩, ⟨2, 1⟩⟩, "z\n".toList⟩] ∧
      (Document.mk "a𝒳b\r\ncd\nef".toList).replaceAll
          [⟨⟨⟨0, 3⟩, ⟨1, 0⟩⟩, []⟩, ⟨⟨⟨2, 1⟩, ⟨2, 1⟩⟩, "z\n".toList⟩,
            ⟨⟨⟨1, 0⟩, ⟨1, 1⟩⟩, "x\r\ny".toList⟩] =
        ⟨"a𝒳x\r\nyd\nez\nf".toList⟩ := by
  refine ⟨by decide, ?_⟩
  rw [(replace_all_at_once (Document.mk "a𝒳b\r\ncd\nef".toList)
    [⟨⟨⟨1, 0⟩, ⟨1, 1⟩⟩, "x\r\ny".toList⟩, ⟨⟨⟨0, 3⟩, ⟨1, 0⟩⟩, []⟩,
      ⟨⟨⟨2, 1⟩, ⟨2, 1⟩⟩, "z\n".toList⟩] (by decide) (by decide)).2 _ (by decide)]
  decide

/-- A position moved through a valid batch exists afterwards and stands where it stood: behind the
same text if it lies inside no range, and else where the new text of that range begins. -/
theorem shift_tracks_replace_all (document : Document) (edits : List Edit) (position : Position)
    (plain : Plain document.text) (valid : document.Admits edits)
    (present : document.HasPosition position) :
    (document.replaceAll edits).HasPosition (position.shift edits) ∧
      ((∀ edit ∈ edits, ¬(edit.range.start < position ∧ position < edit.range.stop)) →
        ((document.replaceAll edits).offset (position.shift edits) : Int) =
          document.offset position + document.growthBefore edits position) ∧
      ∀ edit ∈ edits, edit.range.start < position → position < edit.range.stop →
        ((document.replaceAll edits).offset (position.shift edits) : Int) =
            document.offset edit.range.start +
              document.growthBefore edits edit.range.start ∧
          ∃ before after, (document.replaceAll edits).text = before ++ edit.text ++ after ∧
            before.length = (document.replaceAll edits).offset (position.shift edits) := by
  obtain ⟨rewritten, stacked⟩ := valid.exists_stacked plain
  obtain ⟨front, rest, cut, frontPlain, restPlain, rfl⟩ := present.exists_split plain
  have perm := bottom_up_perm edits
  have whole : document.text = document.text ++ [] := (List.append_nil _).symm
  rw [replace_all_of_stacked stacked]
  have outsideCase : (∀ edit ∈ edits, ¬(edit.range.start < Position.endOf front ∧
      Position.endOf front < edit.range.stop)) →
        HasPosition ⟨rewritten⟩ ((Position.endOf front).shift edits) ∧
          (offset ⟨rewritten⟩ ((Position.endOf front).shift edits) : Int) =
            document.offset (Position.endOf front) +
              document.growthBefore edits (Position.endOf front) := by
    intro outside
    obtain ⟨newFront, newRest, split, newFrontPlain, newRestPlain, moved, length⟩ :=
      stacked.shift_outside whole plain_nil cut frontPlain restPlain
        (fun edit member => outside edit (perm.mem_iff.mp member))
    rw [growth_before_perm perm] at length
    rw [Position.shift, moved, offset_end_of cut frontPlain restPlain,
      offset_end_of split newFrontPlain newRestPlain]
    exact ⟨has_position_end_of split newFrontPlain newRestPlain, length⟩
  have insideCase : ∀ edit ∈ edits, edit.range.start < Position.endOf front →
      Position.endOf front < edit.range.stop →
        HasPosition ⟨rewritten⟩ ((Position.endOf front).shift edits) ∧
          (offset ⟨rewritten⟩ ((Position.endOf front).shift edits) : Int) =
              document.offset edit.range.start +
                document.growthBefore edits edit.range.start ∧
            ∃ before after, rewritten = before ++ edit.text ++ after ∧
              before.length = offset ⟨rewritten⟩ ((Position.endOf front).shift edits) := by
    intro edit member started unfinished
    obtain ⟨newFront, newRest, split, newFrontPlain, newRestPlain, moved, length⟩ :=
      stacked.shift_inside whole plain_nil (perm.mem_iff.mpr member) cut started unfinished
    have textPlain := valid.texts edit member
    have newSplit : rewritten = newFront ++ (edit.text ++ newRest) :=
      split.trans (List.append_assoc _ _ _)
    have behindPlain : Plain (edit.text ++ newRest) := textPlain.append newRestPlain
    rw [growth_before_perm perm] at length
    rw [Position.shift, moved, offset_end_of newSplit newFrontPlain behindPlain]
    exact ⟨has_position_end_of newSplit newFrontPlain behindPlain, length, newFront, newRest, split,
      rfl⟩
  refine ⟨?_, fun outside => (outsideCase outside).2, fun edit member started unfinished =>
    (insideCase edit member started unfinished).2⟩
  by_cases inside : ∃ edit ∈ edits, edit.range.start < Position.endOf front ∧
      Position.endOf front < edit.range.stop
  · obtain ⟨edit, member, started, unfinished⟩ := inside
    exact (insideCase edit member started unfinished).1
  · exact (outsideCase fun edit member between => inside ⟨edit, member, between⟩).1

theorem shift_tracks_replace_all_inside_and_behind :
    Position.shift ⟨0, 4⟩ [⟨⟨⟨1, 0⟩, ⟨1, 1⟩⟩, "x\r\ny".toList⟩, ⟨⟨⟨0, 3⟩, ⟨1, 0⟩⟩, []⟩] = ⟨0, 3⟩ ∧
      Position.shift ⟨1, 2⟩ [⟨⟨⟨1, 0⟩, ⟨1, 1⟩⟩, "x\r\ny".toList⟩, ⟨⟨⟨0, 3⟩, ⟨1, 0⟩⟩, []⟩] =
        ⟨1, 2⟩ ∧
      (Document.mk "a𝒳x\r\nyd\nef".toList).offset ⟨0, 3⟩ = 2 ∧
      ((Document.mk "a𝒳x\r\nyd\nef".toList).offset ⟨1, 2⟩ : Int) = 7 + (4 - 1) + (0 - 3) := by
  have inside := (shift_tracks_replace_all (Document.mk "a𝒳b\r\ncd\nef".toList)
    [⟨⟨⟨1, 0⟩, ⟨1, 1⟩⟩, "x\r\ny".toList⟩, ⟨⟨⟨0, 3⟩, ⟨1, 0⟩⟩, []⟩] ⟨0, 4⟩
    (by decide) (by decide) (by decide)).2.2 ⟨⟨⟨0, 3⟩, ⟨1, 0⟩⟩, []⟩ (by decide) (by decide)
    (by decide)
  have behind := (shift_tracks_replace_all (Document.mk "a𝒳b\r\ncd\nef".toList)
    [⟨⟨⟨1, 0⟩, ⟨1, 1⟩⟩, "x\r\ny".toList⟩, ⟨⟨⟨0, 3⟩, ⟨1, 0⟩⟩, []⟩] ⟨1, 2⟩
    (by decide) (by decide) (by decide)).2.1 (by decide)
  refine ⟨by decide, by decide, ?_, ?_⟩
  · exact Int.ofNat_inj.mp inside.1
  · exact behind

end Document
end PhpNames
