import PhpNames.Proofs.FreeImport
import PhpNames.Proofs.PlainReplies

/-!
To expand a class name and to import the full name is to import the class.

The expanded name is a word at the same place, so importing it gives the short name back and adds
the line that importing the short name adds. Both edits of that batch are about the document with
the full name: the new line may go above the word, also directly, or further down.
-/

namespace PhpNames

open Text Word Commands

/-! ### Names -/

theorem Text.is_word_char_of_is_alphanum {c : Char} (letter : c.isAlphanum = true) :
    isWordChar c = true := by
  have small : c.toNat < 0x80 := is_name_part_lt (by simp [isNamePart, letter])
  rw [isWordChar, if_pos small, isAsciiWordChar, letter, Bool.true_or]

theorem Segmented.mono {isLetter isOther : Char → Bool} {name : Text}
    (segmented : Segmented isLetter name) (wider : ∀ c, isLetter c = true → isOther c = true) :
    Segmented isOther name := by
  intro segment member
  obtain ⟨nonempty, letters⟩ := segmented segment member
  exact ⟨nonempty, fun c inside => wider c (letters c inside)⟩

theorem Segmented.is_name_part {name : Text} (segmented : Segmented Char.isAlphanum name) :
    ∀ c ∈ '\\' :: name, Word.isNamePart c = true := by
  intro c member
  rcases List.mem_cons.mp member with rfl | member
  · decide
  · rcases segmented.mem member with rfl | letter
    · decide
    · simp [Word.isNamePart, letter]

/-- Every candidate for a short name is shortened to that name. -/
theorem Candidates.base_name_of_mem {name full : Text} {documents : List (List Text)}
    {candidates : Candidates} (resolved : resolve name documents = .ok candidates)
    (member : full ∈ candidates.names) (nonempty : name ≠ [])
    (letters : ∀ c ∈ name, isWordChar c = true) : baseName full = name := by
  rcases mem_resolve resolved member with rfl | inDeclared
  · exact @base_name_append [] _ nonempty letters (by simp)
  · obtain ⟨-, -, namespaceName, -, rfl⟩ := mem_declared inDeclared
    have whole : qualified namespaceName name = (namespaceName ++ ['\\']) ++ name := by
      simp [qualified]
    rw [whole]
    apply base_name_append nonempty letters
    intro c last
    rw [List.getLast?_concat] at last
    rw [← Option.some.inj last]
    decide

/-! ### The document with the full name -/

namespace Document

open UseStatement Position

variable {document left right : Document} {position : Position} {word : Word}
  {before after text name : Text}

def kindAt? (document : Document) (number : Nat) : Option LineKind :=
  (document.line? number).map LineKind.of

def withWord (document : Document) (position : Position) (word : Word) (text : Text) : Document :=
  document.replaceAll [⟨word.range position.line, text⟩]

theorem WordAt.with_word_eq (touched : document.WordAt position word before after)
    (plain : Plain document.text) (textPlain : Plain text) :
    document.withWord position word text = ⟨before ++ text ++ after⟩ :=
  (touched.fits plain textPlain).replace_eq touched.split

theorem Closed.with_word (closed : document.Closed)
    (touched : document.wordAt? position = some word)
    (textPlain : Plain text) : (document.withWord position word text).Closed := by
  obtain ⟨before, after, there⟩ := (word_at?_eq_some closed.plain).mp touched
  have tidy := closed.tidy_word there textPlain
  exact (orderly_singleton ⟨before, _, after, there.split, tidy⟩).closed closed

theorem rewrites_with_word (plain : Plain document.text)
    (touched : document.wordAt? position = some word) (unbroken : Unbroken text) :
    ∃ body newBody, document.line? position.line = some body ∧
      document.Rewrites [Edit.replaceLine position.line body newBody]
        (document.withWord position word text) := by
  obtain ⟨before, front, back, after, line, there⟩ := exists_word_at_line plain touched
  have newUnbroken : Unbroken (front ++ text ++ back) := by
    have old := line.unbroken
    rw [unbroken_append, unbroken_append] at old ⊢
    exact ⟨⟨old.1.1, unbroken⟩, old.2⟩
  have same : document.replace
      (Edit.replaceLine position.line (front ++ word.text ++ back) (front ++ text ++ back)) =
        document.withWord position word text := by
    rw [there.with_word_eq plain unbroken.plain,
      (line.fits newUnbroken.plain).replace_eq line.split]
    simp [Edit.replaceLine]
  have rewrites := rewrites_replace_line plain line.line_eq newUnbroken
  rw [same] at rewrites
  exact ⟨_, _, line.line_eq, rewrites⟩

theorem Lacks.congr (kinds_eq : left.lines.map LineKind.of = right.lines.map LineKind.of)
    (statements_eq : left.lines.map (Option.guard isUse) = right.lines.map (Option.guard isUse))
    (lacks : right.Lacks name) : left.Lacks name := by
  have read (lines : List Text) (count : Nat) : (lines.take count).filter isUse =
      ((lines.map (Option.guard isUse)).take count).filterMap id := by
    rw [← List.map_take, List.filterMap_map, Function.id_comp, List.filterMap_eq_filter]
  have same (count : Nat) :
      (left.lines.take count).filter isUse = (right.lines.take count).filter isUse := by
    rw [read, statements_eq, ← read]
  constructor
  · intro found
    have among := List.mem_filter.mpr ⟨found, is_use_importing name⟩
    rw [same, Block.window_congr kinds_eq] at among
    exact lacks.absent (List.mem_filter.mp among).1
  · have free := lacks.free
    rw [short_names_eq, Block.texts] at free ⊢
    rwa [same, Block.window_congr kinds_eq]

section SameKind

variable (plain : Plain document.text) (touched : document.wordAt? position = some word)
  (unbroken : Unbroken text)
  (sameKind : (document.withWord position word text).kindAt? position.line =
    document.kindAt? position.line)
  (notUse : document.kindAt? position.line ≠ some .useStatement)

include plain touched unbroken sameKind notUse

theorem map_with_word {α : Type} (view : Text → α)
    (blind : ∀ line other, LineKind.of line = LineKind.of other →
      LineKind.of other ≠ .useStatement → view line = view other) :
    (document.withWord position word text).lines.map view = document.lines.map view := by
  obtain ⟨body, newBody, here, rewrites⟩ := rewrites_with_word plain touched unbroken
  have changed : (document.withWord position word text).line? position.line = some newBody :=
    rewrites.changed _ (List.mem_singleton.mpr rfl)
  rw [kindAt?, kindAt?, changed, here] at sameKind
  rw [kindAt?, here] at notUse
  exact rewrites.map_eq here (blind newBody body (Option.some.inj sameKind)
    fun isUse => notUse (congrArg some isUse))

theorem kinds_with_word :
    (document.withWord position word text).lines.map LineKind.of =
      document.lines.map LineKind.of :=
  map_with_word plain touched unbroken sameKind notUse LineKind.of fun _ _ same _ => same

theorem lacks_with_word (lacks : document.Lacks name) :
    (document.withWord position word text).Lacks name := by
  apply lacks.congr (kinds_with_word plain touched unbroken sameKind notUse)
  apply map_with_word plain touched unbroken sameKind notUse
  intro line other kind_eq otherKind
  have lineKind : LineKind.of line ≠ .useStatement := kind_eq ▸ otherKind
  rw [ne_eq, LineKind.of_eq_use_statement] at lineKind otherKind
  simp [Option.guard, lineKind, otherKind]

end SameKind

/-! ### The short name again -/

/-- What stands on later lines keeps its position when a word becomes longer or shorter. -/
theorem end_of_behind_line {front word long mid : Text} (wordUnbroken : Unbroken word)
    (longUnbroken : Unbroken long) (feed : mid.count '\n' ≠ 0) :
    endOf (front ++ long ++ mid) = endOf (front ++ word ++ mid) := by
  rw [end_of_append (front ++ long), end_of_append (front ++ word)]
  have line_eq : ((endOf (front ++ long)).advance mid).line =
      ((endOf (front ++ word)).advance mid).line := by
    rw [advance_line, advance_line, end_of_append, end_of_append, advance_unbroken _ wordUnbroken,
      advance_unbroken _ longUnbroken]
  have column_eq := advance_column_later_line (endOf (front ++ long)) (endOf (front ++ word)) feed
  exact congrArg₂ Position.mk line_eq column_eq

section Restore

variable {insertion : Edit} {front short long back : Text}

/-- An insertion at the start of a line, together with a word that gets its old text back, leaves
what the insertion alone leaves of the old document. -/
theorem replace_all_restore (plainFront : Plain front) (plainBack : Plain back)
    (stands : Stands front short back) (longParts : ∀ c ∈ long, isNamePart c = true)
    (split : document.text = front ++ short ++ back)
    (insertSplit : document.text = before ++ [] ++ after) (inserts : insertion.Tidy before [] after)
    (atStart : insertion.range.start.column = 0) :
    (Document.mk (front ++ long ++ back)).replaceAll
        [⟨⟨endOf front, endOf (front ++ long)⟩, short⟩, insertion] =
      document.replaceAll [insertion] := by
  have shortUnbroken := unbroken_word stands.parts
  have longUnbroken := unbroken_word longParts
  have start_eq := inserts.start_eq
  have stop_eq := inserts.stop_eq
  rw [List.append_nil] at stop_eq
  have point : ¬ insertion.range.start < insertion.range.stop := by
    rw [start_eq, stop_eq]
    exact lt_irrefl _
  have restores {rest : Text} (plain : Plain rest) :
      Edit.Fits ⟨⟨endOf front, endOf (front ++ long)⟩, short⟩ front long rest :=
    ⟨plainFront, longUnbroken.plain, plain, shortUnbroken.plain, rfl, rfl⟩
  have alone : document.replaceAll [insertion] = ⟨before ++ insertion.text ++ after⟩ :=
    inserts.toFits.replace_eq insertSplit
  unfold replaceAll at alone ⊢
  rw [Edit.bottom_up_pair, start_eq]
  rcases inserts.sides stands (insertSplit.symm.trans split) (fun nonempty => absurd nonempty point)
    with ⟨mid, front_eq, -⟩ | ⟨mid, mid_ne, before_eq, back_eq⟩
  · -- the word is restored first, which gives the old document
    have above : endOf before ≤ endOf front := by
      rw [front_eq, List.append_nil, end_of_append]
      exact le_advance _ _
    have old : (Document.mk (front ++ long ++ back)).replace
        ⟨⟨endOf front, endOf (front ++ long)⟩, short⟩ = document := by
      rw [(restores plainBack).replace_eq rfl, ← split]
    rw [if_pos above, List.foldl_cons, old]
    rfl
  · -- the insertion comes first, on a line below the word
    have below : ¬ endOf before ≤ endOf front := by
      rw [not_le, before_eq, end_of_append (front ++ short)]
      exact lt_of_le_of_lt (end_of_append front short ▸ le_advance _ _) (lt_advance _ mid_ne)
    have feed : mid.count '\n' ≠ 0 := by
      intro sameLine
      have column_eq := advance_column_same_line (endOf (front ++ short)) sameLine
      have positive := units_pos mid_ne
      rw [start_eq, before_eq, end_of_append (front ++ short)] at atStart
      omega
    have midPlain : Plain mid := by
      have plain := inserts.before_plain
      rw [before_eq] at plain
      exact ((plainFront.append shortUnbroken.plain).append_iff mid).mp plain
    have lower : insertion.Fits (front ++ long ++ mid) [] after := by
      refine ⟨(plainFront.append longUnbroken.plain).append midPlain, plain_nil,
        inserts.after_plain, inserts.text_plain, ?_, ?_⟩
      · rw [start_eq, before_eq, end_of_behind_line shortUnbroken longUnbroken feed]
      · rw [List.append_nil, stop_eq, before_eq, end_of_behind_line shortUnbroken longUnbroken feed]
    have first : (Document.mk (front ++ long ++ back)).replace insertion =
        ⟨front ++ long ++ (mid ++ insertion.text ++ after)⟩ := by
      rw [lower.replace_eq (by simp [back_eq])]
      simp
    have restPlain := (midPlain.append inserts.text_plain).append inserts.after_plain
    rw [if_neg below, List.foldl_cons, first, List.foldl_cons, (restores restPlain).replace_eq rfl,
      alone, before_eq]
    simp

end Restore

theorem WordAt.replaced {long : Text} (touched : document.WordAt position word before after)
    (nonempty : long ≠ []) (parts : ∀ c ∈ long, isNamePart c = true) :
    WordAt ⟨before ++ long ++ after⟩ ⟨position.line, word.start⟩
      ⟨word.start, word.start + long.length, long⟩ before after where
  split := rfl
  stands := ⟨nonempty, parts, touched.stands.left, touched.stands.right⟩
  start_eq := touched.start_eq
  stop_eq := rfl
  starts := Nat.le_refl _
  stops := Nat.le_add_right _ _

section Expanded

variable {long : Text} (closed : document.Closed) (touched : document.wordAt? position = some word)
  (nonempty : long ≠ []) (parts : ∀ c ∈ long, isNamePart c = true)

include closed touched nonempty parts

theorem Closed.word_at?_with_word :
    (document.withWord position word long).wordAt? ⟨position.line, word.start⟩ =
      some ⟨word.start, word.start + long.length, long⟩ := by
  have longPlain := (unbroken_word parts).plain
  obtain ⟨before, after, there⟩ := (word_at?_eq_some closed.plain).mp touched
  rw [word_at?_eq_some (closed.with_word touched longPlain).plain,
    there.with_word_eq closed.plain longPlain]
  exact ⟨before, after, there.replaced nonempty parts⟩

theorem Closed.replace_all_with_word (unbroken : Unbroken name) :
    (document.withWord position word long).replaceAll (selectionEdit
        (some (Word.range ⟨word.start, word.start + long.length, long⟩ position.line)) word.text ++
          [insertEdit name none document.declarations]) = document.withUse name := by
  have scanned := Block.scan_none document.lines
  obtain ⟨reached, records⟩ := Block.exists_records scanned
  obtain ⟨above, below, split, inserts⟩ := closed.tidy_insert records unbroken.plain
    (by simp : ∀ other ∈ (none : Option Text), Plain other)
  rw [declarations_of_scan scanned] at inserts
  obtain ⟨before, after, there⟩ := (word_at?_eq_some closed.plain).mp touched
  obtain ⟨beforePlain, afterPlain⟩ := there.plain closed.plain
  have range_eq := (there.replaced nonempty parts).range_eq
  rw [there.with_word_eq closed.plain (unbroken_word parts).plain, range_eq]
  exact replace_all_restore beforePlain afterPlain there.stands parts there.split split inserts rfl

end Expanded

end Document

/-! ### The commands -/

namespace Commands

def expandPicked {m : Type → Type} [Monad m] [MonadEditor m] (uri : Text) (range : Range) :
    Option Text → ExceptT ResolveError m Outcome
  | none => return .cancelled
  | some full => do
      let separator := if (← (MonadEditor.settings : m _)).leadingSeparator then ['\\'] else []
      submit uri [⟨range, separator ++ full⟩]
      return .done

def expandWord {m : Type → Type} [Monad m] [MonadEditor m] (uri : Text) (range : Range)
    (name : Text) : ExceptT ResolveError m Outcome := do
  let candidates ← findCandidates name
  let picked ← (pickName candidates : m _)
  expandPicked uri range picked

variable {σ : Type} [MonadEditor (StateM σ)]

theorem expand_at_eq_expand_word (uri : Text) (position : Position) :
    (expandAt uri position : Job σ Outcome) =
      wordAt uri position >>= fun word => expandWord uri (word.range position.line) word.text :=
  rfl

theorem expand_word_eq_resolve {name : Text} (unqualified : '\\' ∉ name) (uri : Text)
    (range : Range) :
    (expandWord uri range name : Job σ Outcome) = resolve name >>= expandPicked uri range := by
  have notContains : ¬ name.contains '\\' = true := by simpa using unqualified
  rw [expandWord, resolve, if_neg notContains, bind_assoc]

end Commands

namespace Workbench

open Job UseStatement

/-- A user who, asked what a short name stands for, ends up with one of the candidates. -/
structure Picks (bench : Workbench) (name full : Text) : Prop where
  candidate : ∃ candidates, (ends (findCandidates name) bench).1 = .ok candidates ∧
    full ∈ candidates.names
  picked : (ends (resolve name) bench).1 = .ok (some full)

variable {bench : Workbench} {uri name full : Text} {document : Document} {position : Position}
  {word : Word}

theorem Picks.base_name_eq (picks : bench.Picks name full) (nonempty : name ≠ [])
    (letters : ∀ c ∈ name, isWordChar c = true) : baseName full = name := by
  obtain ⟨candidates, found, member⟩ := picks.candidate
  rw [ends_find_candidates] at found
  exact Candidates.base_name_of_mem found member nonempty letters

theorem expand_picked_accepted (opened : bench.document? uri = some document)
    (leading : bench.settings.leadingSeparator = true) (accepts : bench.AcceptsAll)
    (range : Range) :
    ∃ after made, ends (expandPicked uri range (some full)) bench = (.ok .done, after) ∧
      bench.Makes made after ∧
      after.document? uri = some (document.replaceAll [⟨range, '\\' :: full⟩]) := by
  have concludes : Concludes uri (fun _ => False) (expandPicked uri range (some full)) bench
      fun result made => ∃ isAccepted, made = [⟨uri, [⟨range, '\\' :: full⟩], isAccepted⟩] ∧
        (isAccepted = true → result = .ok .done) := by
    apply concludes_ask (asks_request .settings rfl)
    intro settings asked replied _
    obtain ⟨rfl, rfl⟩ : bench.settings = settings ∧ bench = asked := Prod.mk.inj replied
    rw [leading, if_pos rfl]
    apply concludes_bind (FaithfulEditor.concludes_submit bench uri _)
    · intro error made hands
      cases hands
      exact ⟨false, rfl, by simp⟩
    · intro _ made after _ hands
      cases hands
      exact concludes_pure ⟨true, rfl, fun _ => rfl⟩
  unfold Concludes at concludes
  generalize ends (expandPicked uri range (some full)) bench = ended at concludes ⊢
  obtain ⟨result, after⟩ := ended
  obtain ⟨made, trace, isAccepted, rfl, done⟩ := concludes
  have makes := makes_of_trace trace
  obtain rfl : isAccepted = true := makes.willing accepts _ (List.mem_singleton.mpr rfl)
  obtain rfl := done rfl
  exact ⟨after, _, rfl, makes, document?_of_trace trace opened⟩

theorem expand_at_picked (opened : bench.document? uri = some document)
    (touched : document.wordAt? position = some word) (unqualified : '\\' ∉ word.text)
    (picked : (ends (resolve word.text) bench).1 = .ok (some full))
    (leading : bench.settings.leadingSeparator = true) (accepts : bench.AcceptsAll) :
    ∃ after made, ends (expandAt uri position) bench = (.ok .done, after) ∧
      bench.Makes made after ∧
      after.document? uri = some (document.withWord position word ('\\' :: full)) := by
  obtain ⟨found, resolved, asked⟩ := ends_resolve picked
  rw [expand_at_eq_expand_word, ends_bind, ends_word_at opened touched]
  dsimp only
  rw [expand_word_eq_resolve unqualified, ends_bind, resolved]
  rw [← asked.document? uri] at opened
  rw [← asked.settings] at leading
  obtain ⟨after, made, ended, makes, shown⟩ :=
    expand_picked_accepted opened leading (asked.accepts_all accepts) (word.range position.line)
  exact ⟨after, made, ended, asked.trans makes, shown⟩

/-- Expanding a class name and importing it at the start of the full name ends with the document
that importing it at once ends with. -/
theorem expand_at_then_import_at (bench other : Workbench) (uri : Text) (position : Position)
    (document : Document) (word : Word) (full : Text) (block : Block)
    (opened : bench.document? uri = some document)
    (otherOpened : other.document? uri = some document)
    (sameSettings : other.settings = bench.settings)
    (leading : bench.settings.leadingSeparator = true) (closed : document.Closed)
    (touched : document.wordAt? position = some word) (unqualified : '\\' ∉ word.text)
    (notUse : document.kindAt? position.line ≠ some .useStatement)
    (sameKind : (document.withWord position word ('\\' :: full)).kindAt? position.line =
      document.kindAt? position.line)
    (segmented : Segmented Char.isAlphanum full) (picks : bench.Picks word.text full)
    (otherPicks : other.Picks word.text full)
    (absent : Block.scan document.lines (some full) = .ok block)
    (free : UseStatement.takes block.uses (baseName full) = false)
    (accepts : bench.AcceptsAll) (otherAccepts : other.AcceptsAll) :
    ∃ expanded after otherAfter,
      ends (expandAt uri position) bench = (.ok .done, expanded) ∧
      ends (importAt uri ⟨position.line, word.start⟩) expanded = (.ok .done, after) ∧
      ends (importAt uri position) other = (.ok .done, otherAfter) ∧
      after.document? uri = some ((document.replaceAll
        [insertEdit full none block.declarations]).followedUp bench.settings) ∧
      otherAfter.document? uri = after.document? uri := by
  have parts := segmented.is_name_part
  have lacks := Document.lacks_of_scan absent free
  have unbroken : Unbroken full :=
    (segmented.mono fun _ => Text.is_word_char_of_is_alphanum).unbroken
  have longUnbroken := unbroken_word parts
  have lacksLong :=
    Document.lacks_with_word closed.plain touched longUnbroken sameKind notUse lacks
  have kinds_eq := Document.kinds_with_word closed.plain touched longUnbroken sameKind notUse
  have restored := closed.replace_all_with_word touched (List.cons_ne_nil _ _) parts unbroken
  obtain ⟨before, behind, there⟩ := (Document.word_at?_eq_some closed.plain).mp touched
  -- every candidate ends in the word, so the import of the full name puts it back
  have short_eq : baseName full = word.text := by
    apply picks.base_name_eq there.stands.nonempty
    intro c member
    have part := there.stands.parts c member
    have notSeparator : c ≠ '\\' := fun same => unqualified (same ▸ member)
    apply Text.is_word_char_of_is_alphanum
    simpa [isNamePart, notSeparator] using part
  obtain ⟨expanded, _, ended, makes, shown⟩ :=
    expand_at_picked opened touched unqualified picks.picked leading accepts
  have qualified : ('\\' :: full).contains '\\' = true := List.elem_cons_self
  have full_eq : (ends (resolve ('\\' :: full)) expanded).1 = .ok (some full) := by
    rw [resolve, if_pos qualified]
    rfl
  obtain ⟨after, _, endedLater, _, shownLater⟩ := import_at_free shown
    (closed.word_at?_with_word touched (List.cons_ne_nil _ _) parts) full_eq lacksLong
    (makes.accepts_all accepts)
  obtain ⟨otherAfter, _, otherEnded, _, otherShown⟩ :=
    import_at_free otherOpened touched otherPicks.picked lacks otherAccepts
  have notQualified : ¬ word.text.contains '\\' = true := by simpa using unqualified
  rw [if_pos qualified, short_eq, Document.declarations_congr kinds_eq, makes.settings,
    restored] at shownLater
  rw [if_neg notQualified, sameSettings] at otherShown
  rw [Document.declarations_of_scan absent]
  exact ⟨expanded, after, otherAfter, ended, endedLater, otherEnded, shownLater,
    otherShown.trans shownLater.symm⟩

def touchingBench : Workbench where
  documents := [("m".toList, ⟨"<?php\nClosure::x;\r\n".toList⟩),
    ("file:///Closure.php".toList, ⟨"namespace X;".toList⟩)]
  search := [("Closure".toList, [Path.ofText "/Closure.php".toList])]
  choices := [some "X\\Closure".toList]

theorem expand_at_then_import_at_touching :
    ∃ expanded after otherAfter,
      ends (expandAt "m".toList ⟨1, 7⟩) touchingBench = (.ok .done, expanded) ∧
      ends (importAt "m".toList ⟨1, 0⟩) expanded = (.ok .done, after) ∧
      ends (importAt "m".toList ⟨1, 7⟩) touchingBench = (.ok .done, otherAfter) ∧
      after.document? "m".toList =
        some ⟨"<?php\n\nuse X\\Closure;\nClosure::x;\r\n".toList⟩ ∧
      otherAfter.document? "m".toList = after.document? "m".toList := by
  have picks : touchingBench.Picks "Closure".toList "X\\Closure".toList :=
    ⟨⟨⟨["Closure".toList, "X\\Closure".toList]⟩, by decide +kernel, by decide⟩, by decide +kernel⟩
  have final : ((Document.mk "<?php\nClosure::x;\r\n".toList).replaceAll
      [insertEdit "X\\Closure".toList none ⟨some 1, none, none, none, none⟩]).followedUp
        touchingBench.settings = ⟨"<?php\n\nuse X\\Closure;\nClosure::x;\r\n".toList⟩ := by
    decide +kernel
  rw [← final]
  exact expand_at_then_import_at touchingBench touchingBench "m".toList ⟨1, 7⟩
    ⟨"<?php\nClosure::x;\r\n".toList⟩ ⟨0, 7, "Closure".toList⟩ "X\\Closure".toList
    ⟨[], ⟨some 1, none, none, none, none⟩⟩ rfl rfl rfl rfl ⟨by decide, by decide⟩
    (by decide +kernel) (by decide) (by decide +kernel) (by decide +kernel) (by decide) picks picks
    (by decide +kernel) (by decide +kernel) (by decide) (by decide)

end Workbench
end PhpNames
