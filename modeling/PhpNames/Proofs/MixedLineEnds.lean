import Mathlib.Data.List.Nodup
import PhpNames.Proofs.SortedBlock

/-!
Sorting in documents with terminators of every kind.

A statement keeps every terminator in its text but a line feed. So the line feeds stay where they
are when statements exchange their texts, and all other terminators go with the texts. Every line
stays a line exactly if a text that ends in a terminator goes where such a text has been, and no
carriage return comes to stand before a line feed.
-/

namespace PhpNames

open Text Commands

namespace Document

/-! ### The lines of any document -/

def EndedLine (line : Text) : Prop :=
  ∃ body terminator, line = body ++ terminator ∧ Unbroken body ∧
    (terminator = ['\r', '\n'] ∨ ∃ c, isBreak c = true ∧ terminator = [c])

/-- Whether a carriage return and a line feed meet where one text follows another. -/
def Fuse (left right : Text) : Prop :=
  left.getLast? = some '\r' ∧ right.head? = some '\n'

/-- Pieces that are the lines of the text they make up. -/
inductive Cut : List Text → Prop where
  | last {body : Text} (unbroken : Unbroken body) : Cut [body]
  | line {first next : Text} {rest : List Text} (ended : EndedLine first)
      (apart : ¬ Fuse first next) (cut : Cut (next :: rest)) : Cut (first :: next :: rest)

variable {line text next : Text} {lines rest : List Text} {number count : Nat}

theorem EndedLine.ne_nil (ended : EndedLine line) : line ≠ [] := by
  obtain ⟨body, terminator, rfl, -, rfl | ⟨c, -, rfl⟩⟩ := ended <;> simp

theorem raw_lines_ended (ended : EndedLine line) (apart : ¬ Fuse line text) :
    rawLines ⟨line ++ text⟩ = line :: rawLines ⟨text⟩ := by
  obtain ⟨body, terminator, rfl, unbroken, rfl | ⟨c, breaks, rfl⟩⟩ := ended
  · exact raw_lines_line unbroken (Or.inr rfl) text
  · rw [rawLines, List.append_assoc, break_lines_unbroken unbroken, List.singleton_append,
      breakLines, if_pos breaks]
    · simp [rawLines]
    · rintro rest rfl rfl
      exact apart (by simp [Fuse])

theorem Cut.head_ne_nil (cut : Cut (next :: rest)) (more : rest ≠ []) : next ≠ [] := by
  cases cut with
  | last unbroken => exact absurd rfl more
  | line ended apart cut => exact ended.ne_nil

/-- What follows a line starts like the next line. -/
theorem Cut.not_fuse (cut : Cut (next :: rest)) (apart : ¬ Fuse line next) :
    ¬ Fuse line (next :: rest).flatten := by
  rintro ⟨ends, starts⟩
  by_cases more : rest = []
  · rw [more] at starts
    exact apart ⟨ends, by simpa using starts⟩
  · rw [List.flatten_cons, List.head?_append_of_ne_nil _ (cut.head_ne_nil more)] at starts
    exact apart ⟨ends, starts⟩

theorem Cut.raw_lines_flatten (cut : Cut lines) : rawLines ⟨lines.flatten⟩ = lines := by
  induction cut with
  | last unbroken =>
      rw [List.flatten_cons, List.flatten_nil, List.append_nil]
      exact raw_lines_last unbroken
  | line ended apart cut induction =>
      rw [List.flatten_cons, raw_lines_ended ended (cut.not_fuse apart), induction]

theorem cut_break_lines {line text : Text} (unbroken : Unbroken line.reverse) :
    Cut (breakLines line text) := by
  have nothing : Unbroken ([] : Text).reverse := by simp [Unbroken]
  fun_induction breakLines line text with
  | case1 line => exact .last unbroken
  | case2 line rest induction =>
      obtain ⟨next, more, lines_eq⟩ := List.exists_cons_of_ne_nil (break_lines_ne_nil [] rest)
      have below := induction nothing
      rw [lines_eq] at below ⊢
      refine .line ⟨line.reverse, ['\r', '\n'], by simp, unbroken, Or.inl rfl⟩ ?_ below
      simp [Fuse]
  | case3 line c rest notPair breaks induction =>
      obtain ⟨next, more, lines_eq⟩ := List.exists_cons_of_ne_nil (break_lines_ne_nil [] rest)
      have whole := flatten_break_lines [] rest
      have below := induction nothing
      rw [lines_eq] at below whole ⊢
      refine .line ⟨line.reverse, [c], by simp, unbroken, Or.inr ⟨c, breaks, rfl⟩⟩ ?_ below
      rintro ⟨ends, starts⟩
      obtain ⟨after, rfl⟩ := List.head?_eq_some_iff.mp starts
      exact notPair (after ++ more.flatten) (by simpa using ends) (by simpa using whole.symm)
  | case4 line c rest notPair kept induction =>
      apply induction
      rw [List.reverse_cons]
      exact unbroken_append.mpr ⟨unbroken, by simpa [Unbroken] using kept⟩

theorem cut_raw_lines (document : Document) : Cut document.rawLines :=
  cut_break_lines (by simp [Unbroken])

theorem cut_iff : Cut lines ↔ rawLines ⟨lines.flatten⟩ = lines := by
  constructor
  · exact Cut.raw_lines_flatten
  · intro same
    rw [← same]
    exact cut_raw_lines _

/-- Another text below some lines leaves them as they are, unless it starts with a line feed. -/
theorem Cut.raw_lines_take (cut : Cut lines) (inside : count < lines.length)
    (starts : text.head? ≠ some '\n') :
    rawLines ⟨(lines.take count).flatten ++ text⟩ = lines.take count ++ rawLines ⟨text⟩ := by
  induction cut generalizing count with
  | @last body unbroken =>
      obtain rfl : count = 0 := by simpa using inside
      rfl
  | @line first next rest ended apart cut induction =>
      cases count with
      | zero => rfl
      | succ count =>
          have within : count < (next :: rest).length := by simpa using inside
          have further : ¬ Fuse first (((next :: rest).take count).flatten ++ text) := by
            rintro ⟨ends, begins⟩
            cases count with
            | zero => exact starts begins
            | succ count =>
                have filled := cut.head_ne_nil (by rintro rfl; simp at within)
                rw [List.take_succ_cons, List.flatten_cons, List.append_assoc,
                  List.head?_append_of_ne_nil _ filled] at begins
                exact apart ⟨ends, begins⟩
          rw [List.take_succ_cons, List.flatten_cons, List.append_assoc,
            raw_lines_ended ended further, induction within, List.cons_append]

end Document

/-! ### Statements and their new texts -/

namespace UseStatement

variable {uses sorted : List UseStatement} {statement target : UseStatement}

theorem length_eq_of_lines (lines_eq : sorted.map (·.line) = uses.map (·.line)) :
    sorted.length = uses.length := by
  simpa using congrArg List.length lines_eq

theorem exists_same_line (lines_eq : sorted.map (·.line) = uses.map (·.line))
    (member : target ∈ sorted) : ∃ statement ∈ uses, statement.line = target.line := by
  have inLines : target.line ∈ sorted.map (·.line) := List.mem_map_of_mem member
  rw [lines_eq] at inLines
  exact List.mem_map.mp inLines

theorem line_eq_of_mem_zip (lines_eq : sorted.map (·.line) = uses.map (·.line))
    (together : (statement, target) ∈ uses.zip sorted) : target.line = statement.line := by
  have length_eq := length_eq_of_lines lines_eq
  have firsts : ((uses.zip sorted).map Prod.fst).map (·.line) = uses.map (·.line) := by
    rw [List.map_fst_zip length_eq.ge]
  have seconds : ((uses.zip sorted).map Prod.snd).map (·.line) = sorted.map (·.line) := by
    rw [List.map_snd_zip length_eq.le]
  have same := seconds.trans (lines_eq.trans firsts.symm)
  rw [List.map_map, List.map_map] at same
  exact List.map_inj_left.mp same _ together

theorem exists_target (length_eq : sorted.length = uses.length) (member : statement ∈ uses) :
    ∃ target, (statement, target) ∈ uses.zip sorted := by
  rw [← List.map_fst_zip length_eq.ge] at member
  obtain ⟨⟨same, target⟩, together, rfl⟩ := List.mem_map.mp member
  exact ⟨target, together⟩

/-- If no place loses a property there are no fewer places with it, and with as many places no other
place wins it. -/
theorem count_where_le_of_zip {view : UseStatement → Bool} (length_eq : sorted.length = uses.length)
    (kept : ∀ pair ∈ uses.zip sorted, view pair.1 = true → view pair.2 = true) :
    uses.countP view ≤ sorted.countP view ∧
      (uses.countP view = sorted.countP view →
        ∀ pair ∈ uses.zip sorted, view pair.2 = view pair.1) := by
  induction uses generalizing sorted with
  | nil => simp
  | cons first uses induction =>
      cases sorted with
      | nil => cases length_eq
      | cons target sorted =>
          rw [List.zip_cons_cons, List.forall_mem_cons] at kept
          obtain ⟨keptHere, keptBelow⟩ := kept
          obtain ⟨fewer, alike⟩ := induction (Nat.succ.inj length_eq) keptBelow
          rw [List.countP_cons, List.countP_cons, List.zip_cons_cons, List.forall_mem_cons]
          cases before : view first with
          | true =>
              rw [keptHere before]
              simp only [if_true]
              exact ⟨by omega, fun same => ⟨trivial, alike (by omega)⟩⟩
          | false =>
              cases after : view target with
              | true =>
                  simp only [Bool.false_eq_true, if_true, if_false]
                  exact ⟨by omega, fun same => by omega⟩
              | false =>
                  simp only [Bool.false_eq_true, if_false]
                  exact ⟨by omega, fun same => ⟨trivial, alike (by omega)⟩⟩

end UseStatement

/-! ### Edits from the last line to the first -/

/-- Edits that are listed from the first line on are carried out from the last on. -/
theorem Edit.bottom_up_ascending {edits : List Edit}
    (ascending : edits.Pairwise fun upper lower => upper.range.start < lower.range.start) :
    Edit.bottomUp edits = edits.reverse := by
  have perm := Document.bottom_up_perm edits
  have distinct : (edits.map (·.range.start)).Nodup :=
    List.pairwise_map.mpr (ascending.imp ne_of_lt)
  apply List.Perm.eq_of_pairwise _ (Document.bottom_up_sorted edits) _
    (perm.trans (List.reverse_perm edits).symm)
  · intro left right inLeft inRight above below
    exact List.inj_on_of_nodup_map distinct (perm.mem_iff.mp inLeft) (List.mem_reverse.mp inRight)
      (le_antisymm below above)
  · rw [List.pairwise_reverse]
    exact ascending.imp le_of_lt

namespace Document

/-- Lines with the texts of statements on them. The line feeds that end the lines stay. -/
def exchanged (lines : List Text) (statements : List UseStatement) : List Text :=
  statements.foldr
    (fun statement lines => lines.modify statement.line (statement.text ++ ending ·)) lines

section Exchanged

variable {lines : List Text} {statements : List UseStatement}

@[simp] theorem length_exchanged : (exchanged lines statements).length = lines.length := by
  induction statements with
  | nil => rfl
  | cons first rest induction => exact (List.length_modify _ _ _).trans induction

theorem exchanged_elsewhere {number : Nat}
    (elsewhere : ∀ statement ∈ statements, statement.line ≠ number) :
    (exchanged lines statements)[number]? = lines[number]? := by
  induction statements with
  | nil => rfl
  | cons first rest induction =>
      obtain ⟨different, others⟩ := List.forall_mem_cons.mp elsewhere
      rw [← induction others]
      change ((exchanged lines rest).modify first.line _)[number]? = _
      simp [different]

theorem exchanged_here {target : UseStatement}
    (ascending : statements.Pairwise fun upper lower => upper.line < lower.line)
    (member : target ∈ statements) :
    (exchanged lines statements)[target.line]? =
      lines[target.line]?.map (target.text ++ ending ·) := by
  induction statements with
  | nil => cases member
  | cons first rest induction =>
      obtain ⟨above, others⟩ := List.pairwise_cons.mp ascending
      change ((exchanged lines rest).modify first.line _)[target.line]? = _
      rcases List.mem_cons.mp member with rfl | inRest
      · rw [List.getElem?_modify, exchanged_elsewhere fun other inRest => (above other inRest).ne']
        simp
      · rw [← induction others inRest]
        simp [(above target inRest).ne]

theorem exchanged_cons {target : UseStatement} {raw : Text}
    (here : lines[target.line]? = some raw)
    (below : ∀ other ∈ statements, target.line < other.line) :
    exchanged lines (target :: statements) =
      (exchanged lines statements).set target.line (target.text ++ ending raw) := by
  have still : (exchanged lines statements)[target.line]? = some raw := by
    rw [← here]
    exact exchanged_elsewhere fun other member => (below other member).ne'
  change (exchanged lines statements).modify target.line _ = _
  rw [List.modify_eq_set_getElem?, still]
  rfl

theorem exchanged_self
    (found : ∀ statement ∈ statements,
      ∃ raw, lines[statement.line]? = some raw ∧ content raw = statement.text) :
    exchanged lines statements = lines := by
  induction statements with
  | nil => rfl
  | cons first rest induction =>
      obtain ⟨⟨raw, here, content_eq⟩, others⟩ := List.forall_mem_cons.mp found
      obtain ⟨inside, raw_eq⟩ := List.getElem?_eq_some_iff.mp here
      change (exchanged lines rest).modify first.line _ = _
      rw [induction others, List.modify_eq_set_getElem?, here, ← content_eq]
      change lines.set first.line (content raw ++ ending raw) = lines
      rw [content_append_ending, ← raw_eq, List.set_getElem_self]

theorem take_exchanged {count : Nat} (below : ∀ statement ∈ statements, count ≤ statement.line) :
    (exchanged lines statements).take count = lines.take count := by
  apply List.ext_getElem?
  intro number
  rw [List.getElem?_take, List.getElem?_take]
  split
  · apply exchanged_elsewhere
    intro statement member
    have := below statement member
    omega
  · rfl

end Exchanged

theorem flatten_set {left right : List Text} {number : Nat} (text : Text)
    (inLeft : number < left.length) (inRight : number < right.length)
    (same : left.flatten = right.flatten)
    (front : left.take (number + 1) = right.take (number + 1)) :
    (left.set number text).flatten = (right.set number text).flatten := by
  have shorter : left.take number = right.take number := by
    simpa [List.take_take] using congrArg (List.take number) front
  have behind : (left.drop (number + 1)).flatten = (right.drop (number + 1)).flatten := by
    rw [← List.take_append_drop (number + 1) left, ← List.take_append_drop (number + 1) right,
      List.flatten_append, List.flatten_append, front] at same
    exact List.append_cancel_left same
  rw [List.set_eq_take_append_cons_drop, if_pos inLeft, List.set_eq_take_append_cons_drop,
    if_pos inRight, List.flatten_append, List.flatten_append, List.flatten_cons, List.flatten_cons,
    shorter, behind]

/-- Another text on one line leaves the lines above it as they are, unless it starts with a line
feed. -/
theorem Cut.take_raw_lines_set {lines : List Text} {text : Text} {number count : Nat}
    (cut : Cut lines) (inside : number < lines.length) (filled : text ≠ [])
    (notFeed : text.head? ≠ some '\n') (above : count ≤ number) :
    (rawLines ⟨(lines.set number text).flatten⟩).take count = lines.take count := by
  have starts : (text ++ (lines.drop (number + 1)).flatten).head? ≠ some '\n' := by
    rwa [List.head?_append_of_ne_nil _ filled]
  rw [List.set_eq_take_append_cons_drop, if_pos inside, List.flatten_append, List.flatten_cons,
    cut.raw_lines_take inside starts, List.take_append_of_le_length, List.take_take,
    Nat.min_eq_left above]
  rw [List.length_take]
  omega

/-- What the edits of sorting make of a document when they are carried out from the last on. The
lines above those that have been edited are still its lines. -/
theorem foldr_sort_edits {document : Document} {uses sorted : List UseStatement}
    (found : ∀ statement ∈ uses, document.line? statement.line = some statement.text)
    (ascending : uses.Pairwise fun upper lower => upper.line < lower.line)
    (lines_eq : sorted.map (·.line) = uses.map (·.line))
    (starts : ∀ target ∈ sorted, target.text ≠ [] ∧ target.text.head? ≠ some '\n') :
    let new := (UseStatement.sortEdits uses sorted).foldr (fun edit old => old.replace edit)
      document
    new.text = (exchanged document.rawLines sorted).flatten ∧
      ∀ count ≤ document.rawLines.length, (∀ statement ∈ uses, count ≤ statement.line) →
        new.rawLines.take count = document.rawLines.take count := by
  induction uses generalizing sorted with
  | nil =>
      rw [List.map_eq_nil_iff.mp lines_eq]
      exact ⟨(flatten_raw_lines document).symm, fun _ _ _ => rfl⟩
  | cons first rest induction =>
      cases sorted with
      | nil => cases lines_eq
      | cons target targets =>
          obtain ⟨line_eq, rest_eq⟩ := List.cons.inj lines_eq
          obtain ⟨above, restAscending⟩ := List.pairwise_cons.mp ascending
          obtain ⟨firstFound, restFound⟩ := List.forall_mem_cons.mp found
          obtain ⟨⟨filled, notFeed⟩, restStarts⟩ := List.forall_mem_cons.mp starts
          obtain ⟨text_eq, kept⟩ := induction restFound restAscending rest_eq restStarts
          intro new
          generalize between_eq : (UseStatement.sortEdits rest targets).foldr
            (fun edit old => old.replace edit) document = between at text_eq kept
          obtain ⟨raw, rawHere, content_eq⟩ := line?_eq_some firstFound
          have inside := (List.getElem?_eq_some_iff.mp rawHere).1
          have top := kept (first.line + 1) inside above
          have still : between.rawLines[first.line]? = some raw := by
            simpa [List.getElem?_take, rawHere] using congrArg (·[first.line]?) top
          have stillInside := (List.getElem?_eq_some_iff.mp still).1
          have new_eq : new =
              ⟨(between.rawLines.set first.line (target.text ++ ending raw)).flatten⟩ := by
            rw [← replace_replace_line still, content_eq, ← between_eq]
            rfl
          have targetsBelow : ∀ other ∈ targets, first.line < other.line := by
            intro other member
            obtain ⟨statement, inRest, same⟩ := UseStatement.exists_same_line rest_eq member
            rw [← same]
            exact above statement inRest
          have exchanged_eq : exchanged document.rawLines (target :: targets) =
              (exchanged document.rawLines targets).set first.line (target.text ++ ending raw) := by
            rw [← show target.line = first.line from line_eq] at rawHere targetsBelow ⊢
            exact exchanged_cons rawHere targetsBelow
          constructor
          · rw [new_eq, exchanged_eq]
            exact flatten_set _ stillInside (by simpa using inside)
              ((flatten_raw_lines between).trans text_eq)
              (top.trans (take_exchanged targetsBelow).symm)
          · intro count within below
            obtain ⟨firstBelow, restBelow⟩ := List.forall_mem_cons.mp below
            rw [new_eq, ← kept count within restBelow]
            apply (cut_raw_lines between).take_raw_lines_set stillInside _ _ firstBelow
            · simp [filled]
            · rwa [List.head?_append_of_ne_nil _ filled]

/-! ### What a line is made of -/

def endsInBreak (text : Text) : Bool :=
  text.getLast?.any isBreak

structure LineText (text : Text) : Prop where
  unbroken : Unbroken text.dropLast
  noFeed : text.getLast? ≠ some '\n'

theorem line_text_of_mem {document : Document} {line : Text} (member : line ∈ document.lines) :
    LineText line := by
  refine ⟨unbroken_drop_last_of_mem_lines member, ?_⟩
  obtain ⟨raw, inRaw, rfl⟩ := List.mem_map.mp member
  obtain ⟨body, terminator, rfl, unbroken, shape⟩ :=
    exists_of_mem_break_lines (by simp [Unbroken]) inRaw
  have inBody : body.getLast? ≠ some '\n' := fun last =>
    unbroken.ne (List.mem_of_getLast? last) (by decide) rfl
  rcases shape with rfl | ends | ⟨c, notFeed, rfl⟩
  · rwa [List.append_nil, content_unbroken unbroken]
  · rwa [content_line unbroken ends]
  · rw [content_of_not_feed notFeed]
    simpa using notFeed

theorem LineText.unbroken_iff {text : Text} (shape : LineText text) :
    Unbroken text ↔ endsInBreak text = false := by
  rcases List.eq_nil_or_concat text with rfl | ⟨front, c, rfl⟩
  · simp [Unbroken, endsInBreak]
  · have frontUnbroken : Unbroken front := by simpa using shape.unbroken
    rw [List.concat_eq_append, unbroken_append, and_iff_right frontUnbroken]
    simp [endsInBreak, Unbroken]

theorem LineText.content_eq {text : Text} (shape : LineText text) : content text = text := by
  rcases List.eq_nil_or_concat text with rfl | ⟨front, c, rfl⟩
  · rfl
  · have notFeed : c ≠ '\n' := fun feed => shape.noFeed (by simp [feed])
    rw [List.concat_eq_append, content_of_not_feed notFeed]

theorem EndedLine.ends_in_break {line : Text} (ended : EndedLine line) :
    endsInBreak line = true := by
  obtain ⟨body, terminator, rfl, -, rfl | ⟨c, breaks, rfl⟩⟩ := ended
  · simp [Document.endsInBreak, isBreak]
  · simpa [Document.endsInBreak] using breaks

theorem LineText.ended {text : Text} (shape : LineText text) (breaks : endsInBreak text = true) :
    EndedLine text := by
  rw [endsInBreak, Option.any_eq_true] at breaks
  obtain ⟨c, last, breaks⟩ := breaks
  obtain ⟨front, rfl⟩ := List.getLast?_eq_some_iff.mp last
  exact ⟨front, [c], rfl, by simpa using shape.unbroken, Or.inr ⟨c, breaks, rfl⟩⟩

theorem ended_line_append {text terminator : Text} (unbroken : Unbroken text)
    (ends : IsTerminator terminator) : EndedLine (text ++ terminator) := by
  rcases ends with rfl | rfl
  · exact ⟨text, ['\n'], rfl, unbroken, Or.inr ⟨'\n', by decide, rfl⟩⟩
  · exact ⟨text, ['\r', '\n'], rfl, unbroken, Or.inl rfl⟩

/-- Whether a line is one of a document where another or none comes next. -/
def Stands (line : Text) : Option Text → Prop
  | some next => EndedLine line ∧ ¬ Fuse line next
  | none => Unbroken line

theorem cut_iff_stands {lines : List Text} :
    Cut lines ↔ lines ≠ [] ∧
      ∀ number line, lines[number]? = some line → Stands line lines[number + 1]? := by
  constructor
  · intro cut
    induction cut with
    | last unbroken =>
        refine ⟨by simp, ?_⟩
        intro number line here
        cases number with
        | zero =>
            cases here
            exact unbroken
        | succ number => cases here
    | @line first next rest ended apart cut induction =>
        refine ⟨by simp, ?_⟩
        intro number line here
        cases number with
        | zero =>
            cases here
            exact ⟨ended, apart⟩
        | succ number => exact induction.2 number line here
  · rintro ⟨some, stands⟩
    induction lines with
    | nil => exact absurd rfl some
    | cons first rest induction =>
        cases rest with
        | nil => exact .last (stands 0 first rfl)
        | cons next rest =>
            obtain ⟨ended, apart⟩ := stands 0 first rfl
            exact .line ended apart
              (induction (by simp) fun number line here => stands (number + 1) line here)

/-- How the terminator of a line is shared between its content and its ending. -/
theorem Stands.cases {raw : Text} {next? : Option Text} (stands : Stands raw next?) :
    Unbroken (content raw) ∧ IsTerminator (ending raw) ∧ next?.isSome ∨
      Unbroken (content raw) ∧ ending raw = [] ∧ next? = none ∨
      endsInBreak (content raw) = true ∧ ending raw = [] ∧ next?.isSome := by
  cases next? with
  | none =>
      have ending_eq := ending_append stands (Or.inl rfl)
      rw [List.append_nil] at ending_eq
      exact Or.inr (Or.inl ⟨by rwa [content_unbroken stands], ending_eq, rfl⟩)
  | some next =>
      obtain ⟨⟨body, terminator, rfl, unbroken, shape⟩, -⟩ := stands
      by_cases ends : IsTerminator terminator
      · rw [content_line unbroken ends, ending_append unbroken (Or.inr ends)]
        exact Or.inl ⟨unbroken, ends, rfl⟩
      · rcases shape with rfl | ⟨c, breaks, rfl⟩
        · exact absurd (Or.inr rfl) ends
        · have notFeed : c ≠ '\n' := fun feed => ends (Or.inl (by rw [feed]))
          rw [ending, content_of_not_feed notFeed, List.drop_length]
          exact Or.inr (Or.inr ⟨by simpa [endsInBreak] using breaks, rfl, rfl⟩)

def startsWithFeed (text : Text) : Bool :=
  text.head? == some '\n'

theorem starts_with_feed_iff {text : Text} :
    startsWithFeed text = true ↔ text.head? = some '\n' :=
  beq_iff_eq

theorem stands_congr {line : Text} {next? other? : Option Text}
    (starts : next?.map startsWithFeed = other?.map startsWithFeed) :
    Stands line next? ↔ Stands line other? := by
  cases next? with
  | none =>
      cases other? with
      | none => rfl
      | some other => cases starts
  | some next =>
      cases other? with
      | none => cases starts
      | some other =>
          have head_eq : next.head? = some '\n' ↔ other.head? = some '\n' := by
            rw [← starts_with_feed_iff, ← starts_with_feed_iff, Option.some.inj starts]
          rw [Stands, Stands, Fuse, Fuse, head_eq]

/-- A line with another text stands where it stood, if that ends as the old text did. -/
theorem Stands.exchange {raw text : Text} {next? : Option Text} (stands : Stands raw next?)
    (shape : LineText text) (alike : endsInBreak text = endsInBreak (content raw))
    (oldShape : LineText (content raw))
    (apart : text.getLast? = some '\r' → ∀ next ∈ next?, next.head? ≠ some '\n') :
    Stands (text ++ ending raw) next? := by
  rcases stands.cases with ⟨unbroken, ends, more⟩ | ⟨unbroken, none, rfl⟩ | ⟨breaks, none, more⟩
  · rw [oldShape.unbroken_iff, ← alike, ← shape.unbroken_iff] at unbroken
    obtain ⟨next, rfl⟩ := Option.isSome_iff_exists.mp more
    refine ⟨ended_line_append unbroken ends, ?_⟩
    rintro ⟨last, -⟩
    rcases ends with feed | feed <;> rw [feed] at last <;> simp at last
  · rw [oldShape.unbroken_iff, ← alike, ← shape.unbroken_iff] at unbroken
    rw [none, List.append_nil]
    exact unbroken
  · obtain ⟨next, rfl⟩ := Option.isSome_iff_exists.mp more
    rw [none, List.append_nil]
    refine ⟨shape.ended (alike.trans breaks), ?_⟩
    rintro ⟨last, starts⟩
    exact apart last next rfl starts

/-- Where the terminator stood in the text, the new text has to have one. -/
theorem Stands.ends_in_break_of_exchange {raw text : Text} {next? other? : Option Text}
    (stands : Stands raw next?) (new : Stands (text ++ ending raw) other?)
    (sameEnd : next?.isSome = other?.isSome) (shape : LineText (content raw))
    (breaks : endsInBreak (content raw) = true) :
    endsInBreak text = true ∧ ending raw = [] ∧ next?.isSome := by
  rcases stands.cases with ⟨unbroken, -⟩ | ⟨unbroken, -⟩ | ⟨-, none, more⟩
  · rw [shape.unbroken_iff.mp unbroken] at breaks
    cases breaks
  · rw [shape.unbroken_iff.mp unbroken] at breaks
    cases breaks
  · rw [sameEnd] at more
    obtain ⟨other, rfl⟩ := Option.isSome_iff_exists.mp more
    rw [none, List.append_nil] at new
    exact ⟨new.1.ends_in_break, none, by rw [sameEnd]; rfl⟩

end Document

namespace Document

/-- Whether every statement gets a text that ends in a terminator exactly if its old text did, and
no carriage return before a line feed. -/
structure EndsAlike (lines : List Text) (uses sorted : List UseStatement) : Prop where
  breaks : ∀ statement target, (statement, target) ∈ uses.zip sorted →
    endsInBreak target.text = endsInBreak statement.text
  apart : ∀ statement target next, (statement, target) ∈ uses.zip sorted →
    target.text.getLast? = some '\r' → lines[statement.line + 1]? = some next →
      next.head? ≠ some '\n'

instance (lines : List Text) (uses sorted : List UseStatement) :
    Decidable (EndsAlike lines uses sorted) :=
  decidable_of_iff
    ((∀ pair ∈ uses.zip sorted, endsInBreak pair.2.text = endsInBreak pair.1.text) ∧
      ∀ pair ∈ uses.zip sorted, pair.2.text.getLast? = some '\r' →
        ∀ next ∈ lines[pair.1.line + 1]?, next.head? ≠ some '\n')
    ⟨fun ⟨breaks, apart⟩ => ⟨fun statement target => breaks (statement, target),
      fun statement target next together last => apart (statement, target) together last next⟩,
      fun alike => ⟨fun pair => alike.breaks pair.1 pair.2,
        fun pair together last next => alike.apart pair.1 pair.2 next together last⟩⟩

section Sorted

variable {document : Document} {block : Block} {policy : SortPolicy} {sorted : List UseStatement}
  (scanned : Block.scan document.lines none = .ok block)
  (result : UseStatement.sort policy block.uses = .ok sorted)

include result

theorem exchanged_unless_use {number : Nat}
    (elsewhere : ∀ statement ∈ block.uses, statement.line ≠ number) :
    (exchanged document.rawLines sorted)[number]? = document.rawLines[number]? := by
  apply exchanged_elsewhere
  intro target member
  obtain ⟨statement, inUses, same⟩ :=
    UseStatement.exists_same_line (UseStatement.map_line_of_sort result) member
  rw [← same]
  exact elsewhere statement inUses

/-- A line is that of a statement, with its new text, or it is as it was. -/
theorem exchanged_cases (number : Nat) :
    (∃ statement target, (statement, target) ∈ block.uses.zip sorted ∧ statement.line = number) ∨
      (exchanged document.rawLines sorted)[number]? = document.rawLines[number]? := by
  have length_eq := UseStatement.length_eq_of_lines (UseStatement.map_line_of_sort result)
  by_cases onUse : ∃ statement ∈ block.uses, statement.line = number
  · obtain ⟨statement, member, here⟩ := onUse
    obtain ⟨target, together⟩ := UseStatement.exists_target length_eq member
    exact Or.inl ⟨statement, target, together, here⟩
  · exact Or.inr (exchanged_unless_use result fun statement member here =>
      onUse ⟨statement, member, here⟩)

include scanned

theorem ascending_of_sort :
    sorted.Pairwise fun upper lower => upper.line < lower.line := by
  obtain ⟨reached, records⟩ := Block.exists_records scanned
  have ascending : (block.uses.map (·.line)).Pairwise (· < ·) :=
    List.pairwise_map.mpr records.ascending
  rw [← UseStatement.map_line_of_sort result] at ascending
  exact List.pairwise_map.mp ascending

theorem found_of_mem_zip {statement target : UseStatement}
    (together : (statement, target) ∈ block.uses.zip sorted) :
    ∃ raw, document.rawLines[statement.line]? = some raw ∧ content raw = statement.text ∧
      (exchanged document.rawLines sorted)[statement.line]? = some (target.text ++ ending raw) ∧
      LineText statement.text ∧ LineText target.text ∧
      UseStatement.isUse statement.text = true ∧ UseStatement.isUse target.text = true := by
  obtain ⟨inUses, inSorted⟩ := List.of_mem_zip together
  obtain ⟨source, inSource, text_eq⟩ := UseStatement.text_mem_of_sort result inSorted
  have line_eq := UseStatement.line_eq_of_mem_zip (UseStatement.map_line_of_sort result) together
  obtain ⟨here, isUse, -⟩ := (Block.mem_uses_of_scan scanned).mp inUses
  obtain ⟨sourceHere, sourceIsUse, -⟩ := (Block.mem_uses_of_scan scanned).mp inSource
  obtain ⟨raw, rawHere, content_eq⟩ := line?_eq_some here
  have written : (exchanged document.rawLines sorted)[target.line]? =
      document.rawLines[target.line]?.map (target.text ++ ending ·) :=
    exchanged_here (ascending_of_sort scanned result) inSorted
  rw [line_eq, rawHere, Option.map_some] at written
  refine ⟨raw, rawHere, content_eq, written, line_text_of_mem (List.mem_of_getElem? here), ?_,
    isUse, ?_⟩
  · rw [← text_eq]
    exact line_text_of_mem (List.mem_of_getElem? sourceHere)
  · rwa [← text_eq]

/-- A line starts with a line feed if it did before. -/
theorem starts_with_feed_exchanged (number : Nat) :
    (exchanged document.rawLines sorted)[number]?.map startsWithFeed =
      document.rawLines[number]?.map startsWithFeed := by
  rcases exchanged_cases result number with ⟨statement, target, together, rfl⟩ | same
  · obtain ⟨raw, here, content_eq, written, -, -, isUse, targetIsUse⟩ :=
      found_of_mem_zip scanned result together
    have apart : ∀ text behind : Text, UseStatement.isUse text = true →
        startsWithFeed (text ++ behind) = false := by
      intro text behind isUse
      obtain ⟨rest, rfl⟩ := List.isPrefixOf_iff_prefix.mp isUse
      rfl
    rw [written, here, Option.map_some, Option.map_some, apart _ _ targetIsUse,
      ← content_append_ending raw, content_eq, apart _ _ isUse]
  · rw [same]

theorem ends_alike_of_cut (cut : Cut (exchanged document.rawLines sorted)) :
    EndsAlike document.rawLines block.uses sorted := by
  have oldStands := (cut_iff_stands.mp (cut_raw_lines document)).2
  have newStands := (cut_iff_stands.mp cut).2
  have starts := starts_with_feed_exchanged scanned result
  have sameEnd : ∀ number : Nat, document.rawLines[number]?.isSome =
      (exchanged document.rawLines sorted)[number]?.isSome := by
    intro number
    simpa using congrArg Option.isSome (starts number).symm
  -- a text with its terminator cannot give way to one without
  have stays : ∀ statement target, (statement, target) ∈ block.uses.zip sorted →
      endsInBreak statement.text = true → endsInBreak target.text = true ∧
        Stands target.text document.rawLines[statement.line + 1]? := by
    intro statement target together breaks
    obtain ⟨raw, here, content_eq, written, shape, -⟩ := found_of_mem_zip scanned result together
    rw [← content_eq] at shape breaks
    have new := newStands _ _ written
    obtain ⟨targetBreaks, nothing, -⟩ := (oldStands _ _ here).ends_in_break_of_exchange new
      (sameEnd _) shape breaks
    rw [nothing, List.append_nil, stands_congr (starts _)] at new
    exact ⟨targetBreaks, new⟩
  have perm : (sorted.map (·.text)).Perm (block.uses.map (·.text)) := by
    rw [UseStatement.map_text_of_sort result]
    exact policy.sort_texts_perm _
  have count_eq : block.uses.countP (endsInBreak ·.text) = sorted.countP (endsInBreak ·.text) := by
    have counted := perm.countP_eq endsInBreak
    rw [List.countP_map, List.countP_map] at counted
    exact counted.symm
  have length_eq := UseStatement.length_eq_of_lines (UseStatement.map_line_of_sort result)
  have breaks := (UseStatement.count_where_le_of_zip length_eq fun pair together =>
    fun breaks => (stays pair.1 pair.2 together breaks).1).2 count_eq
  refine ⟨fun statement target together => breaks (statement, target) together, ?_⟩
  intro statement target next together last following starts
  have targetBreaks : endsInBreak target.text = true := by
    rw [endsInBreak, last]
    decide
  have same : endsInBreak target.text = endsInBreak statement.text := breaks _ together
  have stands := (stays statement target together (same ▸ targetBreaks)).2
  rw [following] at stands
  exact stands.2 ⟨last, starts⟩

theorem EndsAlike.cut (alike : EndsAlike document.rawLines block.uses sorted) :
    Cut (exchanged document.rawLines sorted) := by
  have oldStands := (cut_iff_stands.mp (cut_raw_lines document)).2
  have starts := starts_with_feed_exchanged scanned result
  refine cut_iff_stands.mpr ⟨?_, ?_⟩
  · have some := (cut_iff_stands.mp (cut_raw_lines document)).1
    rwa [← List.length_pos_iff, length_exchanged, List.length_pos_iff]
  · intro number line found
    rw [stands_congr (starts _)]
    rcases exchanged_cases result number with ⟨statement, target, together, rfl⟩ | same
    · obtain ⟨raw, here, content_eq, written, shape, targetShape, -⟩ :=
        found_of_mem_zip scanned result together
      obtain rfl := Option.some.inj (written.symm.trans found)
      apply (oldStands _ _ here).exchange targetShape
      · rw [content_eq]
        exact alike.breaks statement target together
      · rwa [content_eq]
      · exact fun last next following => alike.apart statement target next together last following
    · exact oldStands number line (same.symm.trans found)

/-- What sorting makes of a document, whatever its terminators. -/
theorem text_resorted :
    (document.resorted block.uses sorted).text =
      (exchanged document.rawLines sorted).flatten := by
  obtain ⟨reached, records⟩ := Block.exists_records scanned
  have found : ∀ statement ∈ block.uses, document.line? statement.line = some statement.text :=
    fun statement member => (records.uses statement member).2.1
  by_cases same : sorted = block.uses
  · have unchanged : exchanged document.rawLines block.uses = document.rawLines :=
      exchanged_self fun statement member => line?_eq_some (found statement member)
    rw [resorted, if_pos same, same, unchanged, flatten_raw_lines]
  · have inOrder : (UseStatement.sortEdits block.uses sorted).Pairwise
        fun upper lower => upper.range.start < lower.range.start := by
      apply (UseStatement.sort_edits_pairwise records.ascending).imp_of_mem
      intro upper lower inEdits _ below
      obtain ⟨statement, -, target, -, rfl⟩ := UseStatement.mem_sort_edits inEdits
      have ordered : (Edit.replaceLine statement.line statement.text target.text).range.start ≤
          (Edit.replaceLine statement.line statement.text target.text).range.stop :=
        Or.inr ⟨rfl, Nat.zero_le _⟩
      exact lt_of_le_of_lt ordered below
    have starts : ∀ target ∈ sorted, target.text ≠ [] ∧ target.text.head? ≠ some '\n' := by
      intro target member
      obtain ⟨source, inUses, text_eq⟩ := UseStatement.text_mem_of_sort result member
      have isUse := ((Block.mem_uses_of_scan scanned).mp inUses).2.1
      obtain ⟨rest, begins⟩ := List.isPrefixOf_iff_prefix.mp isUse
      rw [← text_eq, ← begins]
      exact ⟨List.cons_ne_nil _ _, fun feed => by cases feed⟩
    rw [resorted, if_neg same, replaceAll, Edit.bottom_up_ascending inOrder, List.foldl_reverse]
    exact (foldr_sort_edits found records.ascending (UseStatement.map_line_of_sort result) starts).1

theorem raw_lines_resorted_iff :
    (document.resorted block.uses sorted).rawLines = exchanged document.rawLines sorted ↔
      EndsAlike document.rawLines block.uses sorted := by
  have whole : document.resorted block.uses sorted =
      ⟨(exchanged document.rawLines sorted).flatten⟩ :=
    congrArg Document.mk (text_resorted scanned result)
  rw [whole, ← cut_iff]
  exact ⟨ends_alike_of_cut scanned result, fun alike => alike.cut scanned result⟩

section Alike

variable (alike : EndsAlike document.rawLines block.uses sorted)

include alike

theorem EndsAlike.line_count :
    (document.resorted block.uses sorted).lineCount = document.lineCount := by
  rw [Document.lineCount, (raw_lines_resorted_iff scanned result).mpr alike, length_exchanged]
  rfl

theorem EndsAlike.line?_elsewhere {number : Nat}
    (elsewhere : ∀ statement ∈ block.uses, statement.line ≠ number) :
    (document.resorted block.uses sorted).line? number = document.line? number := by
  rw [line?, lines, (raw_lines_resorted_iff scanned result).mpr alike, List.getElem?_map,
    exchanged_unless_use result elsewhere, ← List.getElem?_map]
  rfl

theorem EndsAlike.line?_here {statement target : UseStatement}
    (together : (statement, target) ∈ block.uses.zip sorted) :
    (document.resorted block.uses sorted).line? statement.line = some target.text := by
  obtain ⟨raw, here, content_eq, written, shape, targetShape, -⟩ :=
    found_of_mem_zip scanned result together
  have stands := (cut_iff_stands.mp (cut_raw_lines document)).2 _ _ here
  have same := alike.breaks statement target together
  rw [line?, lines, (raw_lines_resorted_iff scanned result).mpr alike, List.getElem?_map, written,
    Option.map_some]
  congr 1
  rcases stands.cases with ⟨unbroken, ends, -⟩ | ⟨-, nothing, -⟩ | ⟨-, nothing, -⟩
  · rw [content_eq, shape.unbroken_iff, ← same, ← targetShape.unbroken_iff] at unbroken
    exact content_append unbroken (Or.inr ends)
  · rw [nothing, List.append_nil, targetShape.content_eq]
  · rw [nothing, List.append_nil, targetShape.content_eq]

end Alike

/-- Statements that hold no terminator may be sorted, whatever ends the other lines. -/
theorem ends_alike_of_unbroken
    (unbroken : ∀ statement ∈ block.uses, Unbroken statement.text) :
    EndsAlike document.rawLines block.uses sorted := by
  have plainTexts : ∀ statement target, (statement, target) ∈ block.uses.zip sorted →
      Unbroken statement.text ∧ Unbroken target.text := by
    intro statement target together
    obtain ⟨inUses, inSorted⟩ := List.of_mem_zip together
    obtain ⟨source, inSource, text_eq⟩ := UseStatement.text_mem_of_sort result inSorted
    exact ⟨unbroken statement inUses, text_eq ▸ unbroken source inSource⟩
  constructor
  · intro statement target together
    obtain ⟨raw, -, -, -, shape, targetShape, -⟩ := found_of_mem_zip scanned result together
    obtain ⟨old, new⟩ := plainTexts statement target together
    rw [shape.unbroken_iff.mp old, targetShape.unbroken_iff.mp new]
  · intro statement target next together last
    exact absurd rfl ((plainTexts statement target together).2.ne (List.mem_of_getLast? last)
      (by decide))

end Sorted
end Document

/-! ### The command -/

namespace FaithfulEditor

open Job

/-- What an accepted sort makes of the lines of a document, whatever ends them: which text the
document has, when all lines are still lines, and what they hold then. -/
theorem sort_imports_line_by_line {σ : Type} [MonadEditor (StateM σ)] {uri : Text}
    (editor : FaithfulEditor σ uri) (s after : σ) (document : Document)
    (present : (editor.desk s).document = some document)
    (succeeded : ends (sortImports uri) s = (.ok (), after)) :
    ∃ block sorted new, Block.scan document.lines none = .ok block ∧
      UseStatement.sort (settingsAt s).sortPolicy block.uses = .ok sorted ∧
      (editor.desk after).document = some new ∧
      new.text = (Document.exchanged document.rawLines sorted).flatten ∧
      (new.rawLines = Document.exchanged document.rawLines sorted ↔
        Document.EndsAlike document.rawLines block.uses sorted) ∧
      (Document.EndsAlike document.rawLines block.uses sorted →
        new.lineCount = document.lineCount ∧
        (∀ number, (∀ statement ∈ block.uses, statement.line ≠ number) →
          new.line? number = document.line? number) ∧
        ∀ statement target, (statement, target) ∈ block.uses.zip sorted →
          new.line? statement.line = some target.text) ∧
      ((∀ statement ∈ block.uses, Unbroken statement.text) →
        Document.EndsAlike document.rawLines block.uses sorted) := by
  have scanned := Block.scan_none document.lines
  obtain ⟨made, trace, ended⟩ : Concludes uri (fun _ => False) (sortImports uri) s _ :=
    concludes_sort_imports editor s
  rw [succeeded] at trace ended
  obtain ⟨sorted, result, written⟩ := ended.resorted present scanned trace
  exact ⟨_, sorted, _, scanned, result, written, Document.text_resorted scanned result,
    Document.raw_lines_resorted_iff scanned result,
    fun alike => ⟨alike.line_count scanned result,
      fun _ elsewhere => alike.line?_elsewhere scanned result elsewhere,
      fun _ _ together => alike.line?_here scanned result together⟩,
    Document.ends_alike_of_unbroken scanned result⟩

def variedEnds : Document :=
  ⟨"<?php\x0cuse Ccc;\x0buse Bb;\r// no import\r\nuse A;\u2028".toList⟩

def variedBench : Workbench where
  documents := [("file:///m".toList, variedEnds)]

theorem sort_imports_line_by_line_varied :
    ∃ after new, ends (sortImports "file:///m".toList) variedBench = (.ok (), after) ∧
      after.document? "file:///m".toList = some new ∧
      new.text = "<?php\x0cuse A;\u2028use Bb;\r// no import\r\nuse Ccc;\x0b".toList ∧
      new.lineCount = variedEnds.lineCount ∧ new.line? 3 = variedEnds.line? 3 ∧
      new.line? 1 = some "use A;\u2028".toList := by
  have outcome : (ends (sortImports "file:///m".toList) variedBench).1 = .ok () := by
    decide +kernel
  obtain ⟨block, sorted, new, scanned, result, written, text_eq, -, kept, -⟩ :=
    sort_imports_line_by_line (Workbench.faithful "file:///m".toList) variedBench
      (ends (sortImports "file:///m".toList) variedBench).2 variedEnds rfl (Prod.ext outcome rfl)
  have scan_eq : Block.scan variedEnds.lines none = .ok
      ⟨[⟨"use Ccc;\x0b".toList, 1⟩, ⟨"use Bb;\r".toList, 2⟩, ⟨"use A;\u2028".toList, 4⟩],
        ⟨some 1, none, none, some 5, none⟩⟩ := by decide +kernel
  obtain rfl := Except.ok.inj (scan_eq.symm.trans scanned)
  have sort_eq : UseStatement.sort (settingsAt variedBench).sortPolicy
      [⟨"use Ccc;\x0b".toList, 1⟩, ⟨"use Bb;\r".toList, 2⟩, ⟨"use A;\u2028".toList, 4⟩] =
      .ok [⟨"use A;\u2028".toList, 1⟩, ⟨"use Bb;\r".toList, 2⟩, ⟨"use Ccc;\x0b".toList, 4⟩] := by
    decide +kernel
  obtain rfl := Except.ok.inj (sort_eq.symm.trans result)
  have alike : Document.EndsAlike variedEnds.rawLines
      [⟨"use Ccc;\x0b".toList, 1⟩, ⟨"use Bb;\r".toList, 2⟩, ⟨"use A;\u2028".toList, 4⟩]
      [⟨"use A;\u2028".toList, 1⟩, ⟨"use Bb;\r".toList, 2⟩, ⟨"use Ccc;\x0b".toList, 4⟩] := by
    decide +kernel
  obtain ⟨count_eq, elsewhere, here⟩ := kept alike
  refine ⟨_, new, Prod.ext outcome rfl, written, ?_, count_eq, elsewhere 3 (by decide), ?_⟩
  · rw [text_eq]
    decide +kernel
  · exact here _ _ List.mem_cons_self

end FaithfulEditor

namespace Document

def returnAndFeed : Document :=
  ⟨"<?php\nuse Bb;\ruse A;\nnew A;\n".toList⟩

/-- Sorting puts the statements on one line, and the lines below move up. -/
theorem resorted_joins_lines :
    ∃ block sorted, Block.scan returnAndFeed.lines none = .ok block ∧
      UseStatement.sort .length block.uses = .ok sorted ∧
      (returnAndFeed.resorted block.uses sorted).text =
        "<?php\nuse A;use Bb;\r\nnew A;\n".toList ∧
      (returnAndFeed.resorted block.uses sorted).lineCount ≠ returnAndFeed.lineCount ∧
      (∀ statement ∈ block.uses, statement.line ≠ 3) ∧
      (returnAndFeed.resorted block.uses sorted).line? 3 ≠ returnAndFeed.line? 3 := by
  refine ⟨⟨[⟨"use Bb;\r".toList, 1⟩, ⟨"use A;".toList, 2⟩], ⟨some 1, none, none, some 3, none⟩⟩,
    [⟨"use A;".toList, 1⟩, ⟨"use Bb;\r".toList, 2⟩], ?_⟩
  decide +kernel

end Document
end PhpNames
