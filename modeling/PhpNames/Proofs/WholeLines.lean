import PhpNames.Proofs.Batches

/-!
Edits of whole lines.

A document is its lines with their terminators, one behind the other. An insertion at the start of a
line puts new lines between old ones. A replacement of the content of lines leaves their terminators
and all other lines alone, in whatever order a batch lists it.
-/

namespace PhpNames

open Text

namespace Document

/-! ### Contents and endings -/

def ending (line : Text) : Text :=
  line.drop (content line).length

theorem exists_ending (line : Text) :
    ∃ terminator, line = content line ++ terminator ∧
      (terminator = [] ∨ IsTerminator terminator) := by
  unfold content
  split
  · rename_i rest reversed
    exact ⟨['\r', '\n'], by simpa using congrArg List.reverse reversed, Or.inr (Or.inr rfl)⟩
  · rename_i rest other reversed
    exact ⟨['\n'], by simpa using congrArg List.reverse reversed, Or.inr (Or.inl rfl)⟩
  · exact ⟨[], by simp, Or.inl rfl⟩

theorem content_append_ending (line : Text) : content line ++ ending line = line := by
  obtain ⟨terminator, line_eq, -⟩ := exists_ending line
  have ending_eq : ending line = terminator := by
    rw [ending]
    nth_rewrite 2 [line_eq]
    exact List.drop_left
  rw [ending_eq]
  exact line_eq.symm

theorem ending_cases (line : Text) : ending line = [] ∨ IsTerminator (ending line) := by
  obtain ⟨terminator, line_eq, cases⟩ := exists_ending line
  have whole := content_append_ending line
  rw [List.append_cancel_left (whole.trans line_eq)]
  exact cases

theorem content_append {text terminator : Text} (unbroken : Unbroken text)
    (ends : terminator = [] ∨ IsTerminator terminator) : content (text ++ terminator) = text := by
  rcases ends with rfl | ends
  · rw [List.append_nil, content_unbroken unbroken]
  · exact content_line unbroken ends

theorem ending_append {text terminator : Text} (unbroken : Unbroken text)
    (ends : terminator = [] ∨ IsTerminator terminator) :
    ending (text ++ terminator) = terminator := by
  rw [ending, content_append unbroken ends, List.drop_left]

/-! ### Lines of any document -/

theorem break_lines_ne_nil (line text : Text) : breakLines line text ≠ [] := by
  fun_induction breakLines line text with
  | case4 line c rest notPair kept induction => exact induction
  | _ => exact List.cons_ne_nil _ _

theorem content_of_not_feed {body : Text} {c : Char} (notFeed : c ≠ '\n') :
    content (body ++ [c]) = body ++ [c] := by
  unfold content
  rw [List.reverse_append, List.reverse_singleton, List.singleton_append]
  split
  · rename_i rest reversed
    exact absurd (List.cons.inj reversed).1 notFeed
  · rename_i rest other reversed
    exact absurd (List.cons.inj reversed).1 notFeed
  · rfl

/-- What the lines of a text look like, with their terminators. -/
theorem exists_of_mem_break_lines {line text raw : Text} (lineUnbroken : Unbroken line.reverse)
    (member : raw ∈ breakLines line text) :
    ∃ body ending, raw = body ++ ending ∧ Unbroken body ∧
      (ending = [] ∨ IsTerminator ending ∨ ∃ c, c ≠ '\n' ∧ ending = [c]) := by
  induction line, text using breakLines.induct with
  | case1 line =>
      rw [breakLines, List.mem_singleton] at member
      exact ⟨line.reverse, [], by simpa using member, lineUnbroken, Or.inl rfl⟩
  | case2 line rest induction =>
      rw [breakLines] at member
      rcases List.mem_cons.mp member with rfl | further
      · exact ⟨line.reverse, ['\r', '\n'], by simp, lineUnbroken, Or.inr (Or.inl (Or.inr rfl))⟩
      · exact induction (by simp [Unbroken]) further
  | case3 line c rest notPair breaks induction =>
      rw [breakLines, if_pos breaks] at member
      · rcases List.mem_cons.mp member with rfl | further
        · refine ⟨line.reverse, [c], by simp, lineUnbroken, Or.inr ?_⟩
          by_cases feed : c = '\n'
          · exact Or.inl (Or.inl (by rw [feed]))
          · exact Or.inr ⟨c, feed, rfl⟩
        · exact induction (by simp [Unbroken]) further
      · exact notPair
  | case4 line c rest notPair kept induction =>
      rw [breakLines, if_neg kept] at member
      · apply induction _ member
        rw [List.reverse_cons]
        exact unbroken_append.mpr ⟨lineUnbroken, by simpa [Unbroken] using kept⟩
      · exact notPair

theorem unbroken_drop_last_of_mem_lines {document : Document} {line : Text}
    (member : line ∈ document.lines) : Unbroken line.dropLast := by
  obtain ⟨raw, inRaw, rfl⟩ := List.mem_map.mp member
  obtain ⟨body, ending, rfl, unbroken, shape⟩ :=
    exists_of_mem_break_lines (by simp [Unbroken]) inRaw
  have shorter : Unbroken body.dropLast :=
    fun c member => unbroken c ((List.dropLast_sublist body).subset member)
  rcases shape with rfl | ends | ⟨c, notFeed, rfl⟩
  · rw [List.append_nil, content_unbroken unbroken]
    exact shorter
  · rw [content_line unbroken ends]
    exact shorter
  · rw [content_of_not_feed notFeed, List.dropLast_concat]
    exact unbroken

/-! ### Terminated lines -/

def Terminated (line : Text) : Prop :=
  Unbroken (content line) ∧ IsTerminator (ending line)

theorem terminated_append {body terminator : Text} (unbroken : Unbroken body)
    (ends : IsTerminator terminator) : Terminated (body ++ terminator) := by
  rw [Terminated, content_append unbroken (Or.inr ends), ending_append unbroken (Or.inr ends)]
  exact ⟨unbroken, ends⟩

/-! ### The lines of plain documents -/

/-- Lines of which all but the last end in a terminator. -/
inductive Laid : List Text → Prop where
  | last {body : Text} (unbroken : Unbroken body) : Laid [body]
  | line {first : Text} {rest : List Text} (terminated : Terminated first) (laid : Laid rest) :
      Laid (first :: rest)

theorem flatten_break_lines (line text : Text) :
    (breakLines line text).flatten = line.reverse ++ text := by
  fun_induction breakLines line text with
  | case1 line => simp
  | case2 line rest induction => simp [induction]
  | case3 line c rest notPair breaks induction => simp [induction]
  | case4 line c rest notPair breaks induction => simp [induction]

theorem flatten_raw_lines (document : Document) : document.rawLines.flatten = document.text :=
  flatten_break_lines [] document.text

theorem laid_raw_lines {document : Document} (plain : Plain document.text) :
    Laid document.rawLines := by
  obtain ⟨text⟩ := document
  induction text, plain using Plain.line_induction with
  | last body unbroken =>
      rw [raw_lines_last unbroken]
      exact .last unbroken
  | line body terminator rest unbroken ends _ induction =>
      rw [raw_lines_line unbroken ends]
      exact .line (terminated_append unbroken ends) induction

variable {lines front : List Text} {count number : Nat} {line text : Text}

theorem Laid.raw_lines_flatten (laid : Laid lines) : rawLines ⟨lines.flatten⟩ = lines := by
  induction laid with
  | last unbroken =>
      rw [List.flatten_cons, List.flatten_nil, List.append_nil]
      exact raw_lines_last unbroken
  | @line first rest terminated _ induction =>
      have split := raw_lines_line terminated.1 terminated.2 rest.flatten
      rw [content_append_ending] at split
      rw [List.flatten_cons, split, induction]

theorem Laid.plain (laid : Laid lines) : Plain lines.flatten := by
  induction laid with
  | @last body unbroken =>
      rw [List.flatten_cons, List.flatten_nil, List.append_nil]
      exact unbroken.plain
  | @line first rest terminated _ induction =>
      rw [List.flatten_cons, ← content_append_ending first]
      exact (plain_line terminated.1 terminated.2).mpr induction

theorem Laid.append (laid : Laid lines) (terminated : ∀ line ∈ front, Terminated line) :
    Laid (front ++ lines) := by
  induction front with
  | nil => exact laid
  | cons first rest induction =>
      apply Laid.line (terminated first List.mem_cons_self)
      apply induction
      intro line member
      exact terminated line (List.mem_cons_of_mem first member)

theorem plain_terminated (terminated : ∀ line ∈ lines, Terminated line) : Plain lines.flatten := by
  have empty : Laid [([] : Text)] := .last (by simp [Unbroken])
  simpa using (empty.append terminated).plain

theorem Laid.drop (laid : Laid lines) (inside : count < lines.length) :
    Laid (lines.drop count) := by
  induction laid generalizing count with
  | @last body unbroken =>
      obtain rfl : count = 0 := by simpa using inside
      exact .last unbroken
  | @line first rest terminated laid induction =>
      cases count with
      | zero => exact .line terminated laid
      | succ count => exact induction (by simpa using inside)

theorem Laid.terminated_take (laid : Laid lines) (inside : count < lines.length) :
    ∀ line ∈ lines.take count, Terminated line := by
  induction laid generalizing count with
  | @last body unbroken =>
      obtain rfl : count = 0 := by simpa using inside
      simp
  | @line first rest terminated laid induction =>
      cases count with
      | zero => simp
      | succ count =>
          intro line member
          rcases List.mem_cons.mp member with rfl | member
          · exact terminated
          · exact induction (by simpa using inside) line member

/-- Another content does not disturb the lines. -/
theorem Laid.set (laid : Laid lines) (here : lines[number]? = some line)
    (unbroken : Unbroken text) : Laid (lines.set number (text ++ ending line)) := by
  induction laid generalizing number with
  | @last body bodyUnbroken =>
      rw [List.getElem?_singleton] at here
      obtain ⟨rfl, rfl⟩ : number = 0 ∧ body = line := by simpa using here
      have nothing : ending body = [] := by
        rw [ending, content_unbroken bodyUnbroken, List.drop_length]
      rw [nothing, List.append_nil]
      exact .last unbroken
  | @line first rest terminated laid induction =>
      cases number with
      | zero =>
          obtain rfl : first = line := by simpa using here
          exact .line (terminated_append unbroken terminated.2) laid
      | succ number => exact .line terminated (induction here)

/-! ### Offsets of lines -/

theorem offset_in_line_start (lines : List Text) (number : Nat) :
    offsetIn lines number 0 = (lines.take number).flatten.length := by
  induction lines generalizing number with
  | nil => simp [offsetIn]
  | cons line rest induction =>
      cases number with
      | zero =>
          have start : charsBefore (content line) 0 = 0 := chars_before_units [] (content line)
          simp [offsetIn, start]
      | succ number => simp [offsetIn, induction]

theorem offset_in_line (here : lines[number]? = some line) (column : Nat) :
    offsetIn lines number column =
      (lines.take number).flatten.length + charsBefore (content line) column := by
  induction lines generalizing number with
  | nil => cases here
  | cons first rest induction =>
      cases number with
      | zero =>
          obtain rfl : first = line := by simpa using here
          simp [offsetIn]
      | succ number => simp [offsetIn, induction here, Nat.add_assoc]

theorem offset_in_content_end (here : lines[number]? = some line) :
    offsetIn lines number (units (content line)) =
      (lines.take number).flatten.length + (content line).length := by
  have whole := chars_before_units (content line) []
  rw [List.append_nil] at whole
  rw [offset_in_line here, whole]

theorem text_eq_take_drop (document : Document) (number : Nat) :
    document.text =
      (document.rawLines.take number).flatten ++ (document.rawLines.drop number).flatten := by
  rw [← List.flatten_append, List.take_append_drop, flatten_raw_lines]

theorem text_eq_around {document : Document} (here : document.rawLines[number]? = some line) :
    document.text = (document.rawLines.take number).flatten ++ (content line ++ (ending line ++
      (document.rawLines.drop (number + 1)).flatten)) := by
  obtain ⟨inside, line_eq⟩ := List.getElem?_eq_some_iff.mp here
  rw [← List.append_assoc (content line), content_append_ending, text_eq_take_drop document number,
    List.drop_eq_getElem_cons inside, line_eq, List.flatten_cons]

/-! ### One edit -/

variable {document : Document}

theorem replace_insert (document : Document) (number : Nat) (text : Text) :
    document.replace (Edit.insert ⟨number, 0⟩ text) =
      ⟨(document.rawLines.take number).flatten ++ text ++
        (document.rawLines.drop number).flatten⟩ := by
  have start : document.offset ⟨number, 0⟩ = (document.rawLines.take number).flatten.length :=
    offset_in_line_start document.rawLines number
  have split := text_eq_take_drop document number
  simp only [replace, Edit.insert, start, Nat.max_self]
  rw [split, List.take_left, List.drop_left]

theorem replace_replace_line (here : document.rawLines[number]? = some line) (text : Text) :
    document.replace (Edit.replaceLine number (content line) text) =
      ⟨(document.rawLines.set number (text ++ ending line)).flatten⟩ := by
  have inside := (List.getElem?_eq_some_iff.mp here).1
  have start : document.offset ⟨number, 0⟩ = (document.rawLines.take number).flatten.length :=
    offset_in_line_start document.rawLines number
  have stop : document.offset ⟨number, units (content line)⟩ =
      (document.rawLines.take number).flatten.length + (content line).length :=
    offset_in_content_end here
  have split := text_eq_around here
  simp only [replace, Edit.replaceLine, start, stop, Nat.max_eq_left (Nat.le_add_right _ _)]
  rw [split, List.take_left, List.drop_length_add_append, List.drop_left,
    List.set_eq_take_append_cons_drop, if_pos inside]
  simp

/-- New lines go between the old ones. -/
theorem raw_lines_insert (plain : Plain document.text) (inside : number < document.rawLines.length)
    (terminated : ∀ line ∈ lines, Terminated line) :
    rawLines (document.replace (Edit.insert ⟨number, 0⟩ lines.flatten)) =
      document.rawLines.take number ++ (lines ++ document.rawLines.drop number) := by
  have laid := laid_raw_lines plain
  have whole : Laid (document.rawLines.take number ++ (lines ++ document.rawLines.drop number)) :=
    ((laid.drop inside).append terminated).append (laid.terminated_take inside)
  rw [replace_insert, ← List.flatten_append, ← List.flatten_append, List.append_assoc]
  exact whole.raw_lines_flatten

theorem raw_lines_replace_line (plain : Plain document.text)
    (here : document.rawLines[number]? = some line) (unbroken : Unbroken text) :
    rawLines (document.replace (Edit.replaceLine number (content line) text)) =
      document.rawLines.set number (text ++ ending line) := by
  rw [replace_replace_line here]
  exact ((laid_raw_lines plain).set here unbroken).raw_lines_flatten

/-! ### A batch -/

/-- A batch that gives some lines another content, and what has become of the document. -/
structure Rewrites (document : Document) (edits : List Edit) (rewritten : Document) : Prop where
  plain : Plain rewritten.text
  endings : rewritten.rawLines.map ending = document.rawLines.map ending
  changed : ∀ edit ∈ edits, rewritten.line? edit.range.start.line = some edit.text
  kept : ∀ number, (∀ edit ∈ edits, edit.range.start.line ≠ number) →
    rewritten.line? number = document.line? number

theorem line?_eq_some {body : Text} (found : document.line? number = some body) :
    ∃ line, document.rawLines[number]? = some line ∧ content line = body := by
  rw [line?, lines, List.getElem?_map, Option.map_eq_some_iff] at found
  exact found

theorem rewrites_replace_line {body : Text} (plain : Plain document.text)
    (found : document.line? number = some body) (unbroken : Unbroken text) :
    document.Rewrites [Edit.replaceLine number body text]
      (document.replace (Edit.replaceLine number body text)) := by
  obtain ⟨line, here, rfl⟩ := line?_eq_some found
  have inside := (List.getElem?_eq_some_iff.mp here).1
  have raw := raw_lines_replace_line plain here unbroken
  refine ⟨?_, ?_, ?_, ?_⟩
  · rw [replace_replace_line here]
    exact ((laid_raw_lines plain).set here unbroken).plain
  · have inEndings : number < (document.rawLines.map ending).length := by simpa using inside
    have same : (document.rawLines.map ending)[number] = ending line := by
      rw [List.getElem_map, (List.getElem?_eq_some_iff.mp here).2]
    rw [raw, List.map_set, ending_append unbroken (ending_cases line), ← same,
      List.set_getElem_self]
  · intro edit member
    rw [List.mem_singleton.mp member, line?, lines, raw, List.getElem?_map]
    change ((document.rawLines.set number (text ++ ending line))[number]?).map content = some text
    rw [List.getElem?_set_self inside, Option.map_some, content_append unbroken (ending_cases line)]
  · intro other elsewhere
    have different : number ≠ other := elsewhere _ (List.mem_singleton.mpr rfl)
    rw [line?, lines, raw, line?, lines, List.getElem?_map, List.getElem?_map,
      List.getElem?_set_ne different]

/-- What does not tell the new content from the old is the same on every line. -/
theorem Rewrites.map_eq {α : Type} {view : Text → α} {body : Text} {rewritten : Document}
    (rewrites : document.Rewrites [Edit.replaceLine number body text] rewritten)
    (found : document.line? number = some body) (same : view text = view body) :
    rewritten.lines.map view = document.lines.map view := by
  apply List.ext_getElem?
  intro other
  rw [List.getElem?_map, List.getElem?_map]
  change (rewritten.line? other).map view = (document.line? other).map view
  by_cases here : number = other
  · have changed : rewritten.line? number = some text :=
      rewrites.changed _ (List.mem_singleton.mpr rfl)
    rw [← here, changed, found, Option.map_some, Option.map_some, same]
  · rw [rewrites.kept other]
    intro edit member
    rw [List.mem_singleton.mp member]
    exact here

theorem Rewrites.cons {first : Edit} {rest : List Edit} {between rewritten : Document}
    (head : document.Rewrites [first] between) (tail : between.Rewrites rest rewritten)
    (different : ∀ edit ∈ rest, first.range.start.line ≠ edit.range.start.line) :
    document.Rewrites (first :: rest) rewritten := by
  refine ⟨tail.plain, tail.endings.trans head.endings, ?_, ?_⟩
  · intro edit member
    rcases List.mem_cons.mp member with rfl | member
    · rw [tail.kept _ fun other inRest => (different other inRest).symm]
      exact head.changed edit (List.mem_singleton.mpr rfl)
    · exact tail.changed edit member
  · intro number elsewhere
    rw [tail.kept number fun edit member => elsewhere edit (List.mem_cons_of_mem first member)]
    apply head.kept
    intro edit member
    rw [List.mem_singleton.mp member]
    exact elsewhere first List.mem_cons_self

def EditsLine (document : Document) (edit : Edit) : Prop :=
  ∃ number body text, document.line? number = some body ∧ Unbroken text ∧
    edit = Edit.replaceLine number body text

/-- Edits of different lines, one after the other. -/
theorem rewrites_foldl {edits : List Edit} (plain : Plain document.text)
    (onLines : ∀ edit ∈ edits, document.EditsLine edit)
    (different : edits.Pairwise fun left right => left.range.start.line ≠ right.range.start.line) :
    document.Rewrites edits (edits.foldl replace document) := by
  induction edits generalizing document with
  | nil => exact ⟨plain, rfl, by simp, fun _ _ => rfl⟩
  | cons first rest induction =>
      obtain ⟨elsewhere, restDifferent⟩ := List.pairwise_cons.mp different
      obtain ⟨number, body, text, found, unbroken, rfl⟩ := onLines first List.mem_cons_self
      have head := rewrites_replace_line plain found unbroken
      apply head.cons _ elsewhere
      apply induction head.plain _ restDifferent
      intro edit member
      obtain ⟨other, otherBody, otherText, otherFound, otherUnbroken, rfl⟩ :=
        onLines edit (List.mem_cons_of_mem _ member)
      refine ⟨other, otherBody, otherText, ?_, otherUnbroken, rfl⟩
      rw [head.kept other, otherFound]
      intro same inSingleton
      rw [List.mem_singleton.mp inSingleton]
      exact elsewhere _ member

theorem rewrites_replace_all {edits : List Edit} (plain : Plain document.text)
    (onLines : ∀ edit ∈ edits, document.EditsLine edit)
    (different : edits.Pairwise fun left right => left.range.start.line ≠ right.range.start.line) :
    document.Rewrites edits (document.replaceAll edits) := by
  have perm := bottom_up_perm edits
  have carriedOut := rewrites_foldl plain
    (fun edit member => onLines edit (perm.mem_iff.mp member))
    ((perm.pairwise_iff Ne.symm).mpr different)
  exact ⟨carriedOut.plain, carriedOut.endings,
    fun edit member => carriedOut.changed edit (perm.mem_iff.mpr member),
    fun number elsewhere => carriedOut.kept number
      fun edit member => elsewhere edit (perm.mem_iff.mp member)⟩

end Document
end PhpNames
