import PhpNames.Import
import PhpNames.Proofs.TidyBatches
import PhpNames.Sorting

/-!
The batches of an import keep words whole.

The declaration block is read off lines of the document. So a new `use` line goes to the start of
the document or below a line that is not empty, and a statement is replaced as a whole line.
-/

namespace PhpNames

open Text Word Position

/-! ### What a scan finds -/

namespace Declarations

/-- Whether some construct was found on a line, counted from one. -/
def Mentions (found : Declarations) (number : Nat) : Prop :=
  some number = found.openingTag ∨ some number = found.declareLine ∨
    some number = found.namespaceLine ∨ some number = found.lastUse ∨ some number = found.firstType

theorem Mentions.of_note {found : Declarations} {number line : Nat} {kind : LineKind}
    (mentions : (found.note line kind).Mentions number) :
    found.Mentions number ∨ number = line ∧ kind ≠ .other := by
  have first : ∀ known : Option Nat, some number = known.or (some line) →
      some number = known ∨ number = line := by
    intro known
    cases known with
    | none => exact fun new => Or.inr (Option.some.inj new)
    | some old => exact Or.inl
  unfold note Mentions at *
  cases kind with
  | other => exact Or.inl mentions
  | openingTag withNamespace => cases withNamespace <;> grind
  | useStatement => grind
  | declareStatement => grind
  | namespaceStatement => grind
  | typeDeclaration => grind

end Declarations

theorem InsertionPoint.line_of (found : Declarations) :
    (InsertionPoint.of found).line = 0 ∨ found.Mentions (InsertionPoint.of found).line := by
  unfold InsertionPoint.of Declarations.Mentions
  cases found.lastUse with
  | some line => simp
  | none =>
      cases found.namespaceLine with
      | some line => simp
      | none =>
          cases found.openingTag with
          | some line => simp
          | none => simp

namespace Block

structure Records (block : Block) (lines : List Text) (index : Nat) : Prop where
  uses : ∀ statement ∈ block.uses, statement.line < index ∧
    lines[statement.line]? = some statement.text ∧ statement.text ≠ []
  ascending : block.uses.Pairwise fun upper lower => upper.line < lower.line
  mentions : ∀ number, block.declarations.Mentions number → ∃ line text, number = line + 1 ∧
    lines[line]? = some text ∧ text ≠ []

theorem records_empty (lines : List Text) : Records {} lines 0 where
  uses := by simp
  ascending := List.Pairwise.nil
  mentions := by simp [Declarations.Mentions]

variable {block final : Block} {lines rest : List Text} {index : Nat} {line : Text}

theorem take_uses (block : Block) (index : Nat) (line : Text) :
    (block.take index line).uses =
      block.uses ++ if LineKind.of line = .useStatement then [⟨line, index⟩] else [] := by
  unfold Block.take
  by_cases isUse : LineKind.of line = .useStatement
  · simp only [isUse, if_true]
  · simp only [isUse, if_false, List.append_nil]

theorem Records.take (records : block.Records lines index) (here : lines[index]? = some line) :
    (block.take index line).Records lines (index + 1) := by
  have nonempty : LineKind.of line ≠ .other → line ≠ [] := by
    rintro shows rfl
    exact shows (by decide)
  refine ⟨?_, ?_, ?_⟩
  · intro statement member
    rw [take_uses, List.mem_append] at member
    rcases member with known | new
    · obtain ⟨above, found⟩ := records.uses statement known
      exact ⟨Nat.lt_succ_of_lt above, found⟩
    · split at new
      · rename_i isUse
        rw [List.mem_singleton.mp new]
        exact ⟨Nat.lt_succ_self index, here, nonempty (by rw [isUse]; decide)⟩
      · cases new
  · rw [take_uses]
    apply List.pairwise_append.mpr
    refine ⟨records.ascending, by split <;> simp, ?_⟩
    intro upper known lower new
    split at new
    · rw [List.mem_singleton.mp new]
      exact (records.uses upper known).1
    · cases new
  · intro number mentions
    rcases mentions.of_note with known | ⟨rfl, shows⟩
    · exact records.mentions number known
    · exact ⟨index, line, rfl, here, nonempty shows⟩

theorem Records.scan_from {stop : Option Text} (records : block.Records lines index)
    (rest_eq : lines.drop index = rest)
    (scanned : Block.scanFrom stop block index rest = .ok final) :
    ∃ reached, final.Records lines reached := by
  induction rest generalizing block index with
  | nil =>
      cases scanned
      exact ⟨index, records⟩
  | cons line rest induction =>
      rw [Block.scanFrom] at scanned
      split at scanned
      · cases scanned
      · split at scanned
        · cases scanned
          exact ⟨index, records⟩
        · have here : lines[index]? = some line := by
            rw [← List.head?_drop, rest_eq, List.head?_cons]
          have next : lines.drop (index + 1) = rest := by
            rw [← List.drop_drop, rest_eq, List.drop_one, List.tail_cons]
          exact induction (records.take here) next scanned

theorem exists_records {stop : Option Text} (scanned : Block.scan lines stop = .ok block) :
    ∃ reached, block.Records lines reached :=
  (records_empty lines).scan_from rfl scanned

end Block

/-! ### Tidy edits -/

namespace Document

variable {document : Document} {number : Nat} {body text : Text}

/-- A line or word that is not empty does not end a document that ends in a line break. -/
theorem Closed.after_ne {before after : Text} (closed : document.Closed)
    (split : document.text = before ++ body ++ after) (nonempty : body ≠ [])
    (unbroken : Unbroken body) : after ≠ [] := by
  rintro rfl
  have last := closed.last
  rw [split, List.append_nil, List.getLast?_append_of_ne_nil _ nonempty,
    List.getLast?_eq_some_getLast nonempty, Option.some.injEq] at last
  exact unbroken.ne (List.getLast_mem nonempty) (by decide) last

theorem LineAt.fits {before after : Text} (line : document.LineAt number before body after)
    (textPlain : Plain text) : (Edit.replaceLine number body text).Fits before body after where
  before_plain := line.before_plain
  replaced_plain := line.unbroken.plain
  after_plain := line.after_plain
  text_plain := textPlain
  start_eq := line.start_eq.symm
  stop_eq := by
    rw [end_of_append, line.start_eq, advance_unbroken _ line.unbroken, Nat.zero_add]
    rfl

theorem Closed.tidy_in_replace_line (closed : document.Closed)
    (found : document.line? number = some body) (nonempty : body ≠ []) (textPlain : Plain text) :
    (Edit.replaceLine number body text).TidyIn document.text := by
  obtain ⟨before, after, line⟩ := exists_line_at closed.plain found
  have after_ne := closed.after_ne line.split nonempty line.unbroken
  refine ⟨before, body, after, line.split, line.fits textPlain, ?_, ?_, ?_⟩
  · intro c last
    rw [line.left c last]
    decide
  · exact fun _ => ⟨after_ne, fun c first => is_name_part_break (line.right c first)⟩
  · exact fun empty => absurd empty nonempty

theorem Closed.tidy_word {position : Position} {word : Word} {before after : Text}
    (closed : document.Closed) (touched : document.WordAt position word before after)
    (textPlain : Plain text) :
    Edit.Tidy ⟨word.range position.line, text⟩ before word.text after := by
  have after_ne := closed.after_ne touched.split touched.stands.nonempty
    (unbroken_word touched.stands.parts)
  exact ⟨touched.fits closed.plain textPlain, touched.stands.left,
    fun _ => ⟨after_ne, touched.stands.right⟩, fun empty => absurd empty touched.stands.nonempty⟩

/-- Below a line that is not empty the document can be cut. -/
theorem Closed.exists_cut_below (closed : document.Closed)
    (found : document.line? number = some body) (nonempty : body ≠ []) :
    ∃ before after, document.text = before ++ after ∧ Plain before ∧ Plain after ∧
      endOf before = ⟨number + 1, 0⟩ ∧ ∀ c ∈ before.getLast?, c = '\n' := by
  obtain ⟨before, after, line⟩ := exists_line_at closed.plain found
  obtain ⟨terminator, rest, rfl, ends, restPlain⟩ :=
    line.exists_terminator (closed.after_ne line.split nonempty line.unbroken)
  have terminatorPlain : Plain terminator := by
    rw [← List.append_nil terminator]
    exact (plain_terminator_append ends []).mpr plain_nil
  refine ⟨before ++ body ++ terminator, rest, ?_,
    (line.before_plain.append line.unbroken.plain).append terminatorPlain, restPlain, ?_, ?_⟩
  · rw [line.split, List.append_assoc _ terminator]
  · rw [end_of_append, end_of_append, line.start_eq, advance_unbroken _ line.unbroken,
      advance_terminator _ ends]
  · intro c last
    rcases ends with rfl | rfl
    · simpa [eq_comm] using last
    · simpa [eq_comm] using last

theorem Closed.exists_insertion {block : Block} {reached : Nat} (closed : document.Closed)
    (records : block.Records document.lines reached) :
    ∃ before after, document.text = before ++ after ∧ Plain before ∧ Plain after ∧
      endOf before = ⟨(InsertionPoint.of block.declarations).line, 0⟩ ∧
      ∀ c ∈ before.getLast?, c = '\n' := by
  rcases InsertionPoint.line_of block.declarations with top | below
  · rw [top]
    exact ⟨[], document.text, rfl, plain_nil, closed.plain, rfl, by simp⟩
  · obtain ⟨line, body, line_eq, found, nonempty⟩ := records.mentions _ below
    rw [line_eq]
    exact closed.exists_cut_below found nonempty

end Document

theorem UseStatement.plain_line_for {name : Text} {otherName : Option Text} (namePlain : Plain name)
    (otherPlain : ∀ other ∈ otherName, Plain other) : Plain (lineFor name otherName) := by
  have keyword : Plain "use ".toList := by decide
  have named : Plain ("use ".toList ++ name) := keyword.append namePlain
  cases otherName with
  | none => exact named.append (by decide)
  | some other =>
      have link : Plain " as ".toList := by decide
      exact ((named.append link).append (otherPlain other rfl)).append (by decide)

theorem InsertionPoint.surroundings (found : Declarations) :
    ((InsertionPoint.of found).before = [] ∨ (InsertionPoint.of found).before = ['\n']) ∧
      ((InsertionPoint.of found).after = ['\n'] ∨
        (InsertionPoint.of found).after = ['\n', '\n']) := by
  have after_eq : ∀ isCrowded : Bool, (if isCrowded then ['\n', '\n'] else ['\n']) = ['\n'] ∨
      (if isCrowded then ['\n', '\n'] else ['\n']) = ['\n', '\n'] := by decide
  unfold InsertionPoint.of
  cases found.lastUse with
  | some line => exact ⟨Or.inl rfl, after_eq _⟩
  | none =>
      cases found.namespaceLine with
      | some line => exact ⟨Or.inr rfl, after_eq _⟩
      | none =>
          cases found.openingTag with
          | some line => exact ⟨Or.inr rfl, after_eq _⟩
          | none => exact ⟨Or.inl rfl, after_eq _⟩

namespace UseStatement

variable {statements sorted : List UseStatement}

theorem mem_sort_edits {edit : Edit} (member : edit ∈ sortEdits statements sorted) :
    ∃ statement ∈ statements, ∃ target ∈ sorted,
      edit = Edit.replaceLine statement.line statement.text target.text := by
  rw [sortEdits, ← List.map_uncurry_zip_eq_zipWith, List.mem_map] at member
  obtain ⟨⟨statement, target⟩, together, rfl⟩ := member
  obtain ⟨inStatements, inSorted⟩ := List.of_mem_zip together
  exact ⟨statement, inStatements, target, inSorted, rfl⟩

theorem text_mem_of_sort {policy : SortPolicy} {target : UseStatement}
    (result : sort policy statements = .ok sorted) (member : target ∈ sorted) :
    ∃ statement ∈ statements, statement.text = target.text := by
  unfold sort at result
  split at result
  · cases result
  · cases result
    rw [withTexts, ← List.map_uncurry_zip_eq_zipWith, List.mem_map] at member
    obtain ⟨⟨statement, text⟩, together, rfl⟩ := member
    have inTexts := (StableSort.sort_perm _ _).mem_iff.mp (List.of_mem_zip together).2
    exact List.mem_map.mp inTexts

theorem sort_edits_pairwise
    (ascending : statements.Pairwise fun upper lower => upper.line < lower.line) :
    (sortEdits statements sorted).Pairwise
      fun upper lower => upper.range.stop < lower.range.start := by
  induction statements generalizing sorted with
  | nil => exact List.Pairwise.nil
  | cons first statements induction =>
      cases sorted with
      | nil => exact List.Pairwise.nil
      | cons target sorted =>
          obtain ⟨below, restAscending⟩ := List.pairwise_cons.mp ascending
          refine List.pairwise_cons.mpr ⟨?_, induction restAscending⟩
          intro edit member
          obtain ⟨statement, inStatements, -, -, rfl⟩ := mem_sort_edits member
          exact Or.inl (below statement inStatements)

end UseStatement

/-! ### Batches -/

namespace Document

variable {document : Document} {block : Block} {reached : Nat} {name : Text}

theorem Closed.tidy_insert {otherName : Option Text} (closed : document.Closed)
    (records : block.Records document.lines reached) (namePlain : Plain name)
    (otherPlain : ∀ other ∈ otherName, Plain other) :
    ∃ before after, document.text = before ++ [] ++ after ∧
      (UseStatement.insertEdit name otherName block.declarations).Tidy before [] after := by
  obtain ⟨before, after, split, beforePlain, afterPlain, start_eq, last⟩ :=
    closed.exists_insertion records
  obtain ⟨above, below⟩ := InsertionPoint.surroundings block.declarations
  have linePlain := UseStatement.plain_line_for namePlain otherPlain
  refine ⟨before, after, by rw [split, List.append_nil],
    ⟨beforePlain, plain_nil, afterPlain, ?_, start_eq.symm, ?_⟩, ?_, ?_, ?_⟩
  · have abovePlain : Plain (InsertionPoint.of block.declarations).before := by
      rcases above with empty | feed
      · rw [empty]; decide
      · rw [feed]; decide
    have belowPlain : Plain (InsertionPoint.of block.declarations).after := by
      rcases below with feed | feeds
      · rw [feed]; decide
      · rw [feeds]; decide
    exact (abovePlain.append linePlain).append belowPlain
  · rw [List.append_nil]
    exact start_eq.symm
  · intro c ends
    rw [last c ends]
    decide
  · exact fun nonempty => absurd rfl nonempty
  · intro _
    change (_ ++ (InsertionPoint.of block.declarations).after).getLast? = some '\n'
    rcases below with feed | feeds
    · rw [feed, List.getLast?_append_of_ne_nil _ (by decide)]
      rfl
    · rw [feeds, List.getLast?_append_of_ne_nil _ (by decide)]
      rfl

theorem Closed.orderly_insert (closed : document.Closed)
    (records : block.Records document.lines reached) (namePlain : Plain name) :
    document.Orderly [UseStatement.insertEdit name none block.declarations] := by
  obtain ⟨before, after, split, tidy⟩ := closed.tidy_insert records namePlain
    (by simp : ∀ other ∈ (none : Option Text), Plain other)
  exact orderly_singleton ⟨before, [], after, split, tidy⟩

theorem Closed.orderly_replace_word_insert {position : Position} {word : Word} {text : Text}
    {otherName : Option Text} (closed : document.Closed)
    (records : block.Records document.lines reached)
    (touched : document.wordAt? position = some word) (textPlain : Plain text)
    (namePlain : Plain name) (otherPlain : ∀ other ∈ otherName, Plain other) :
    document.Orderly [⟨word.range position.line, text⟩,
      UseStatement.insertEdit name otherName block.declarations] := by
  obtain ⟨front, back, there⟩ := (word_at?_eq_some closed.plain).mp touched
  obtain ⟨before, after, split, inserts⟩ := closed.tidy_insert records namePlain otherPlain
  exact orderly_pair there.split there.stands (closed.tidy_word there textPlain) split inserts

theorem Closed.orderly_replace {edit : Edit} (closed : document.Closed)
    (records : block.Records document.lines reached) (namePlain : Plain name)
    (planned : UseStatement.replaceEdit? name block.uses = some edit) :
    document.Orderly [edit] := by
  rw [UseStatement.replaceEdit?, Option.bind_eq_bind, Option.bind_eq_some_iff] at planned
  obtain ⟨statement, searched, made⟩ := planned
  obtain rfl := Option.some.inj made
  obtain ⟨-, found, nonempty⟩ := records.uses statement (List.mem_of_find?_eq_some searched)
  apply orderly_singleton
  exact closed.tidy_in_replace_line found nonempty
    (UseStatement.plain_line_for namePlain (by simp : ∀ other ∈ (none : Option Text), Plain other))

theorem Closed.orderly_sort {policy : SortPolicy} {sorted : List UseStatement}
    (closed : document.Closed) (records : block.Records document.lines reached)
    (result : UseStatement.sort policy block.uses = .ok sorted) :
    document.Orderly (UseStatement.sortEdits block.uses sorted) := by
  apply orderly_of_apart
  · intro edit member
    obtain ⟨statement, inUses, target, inSorted, rfl⟩ := UseStatement.mem_sort_edits member
    obtain ⟨-, found, nonempty⟩ := records.uses statement inUses
    obtain ⟨source, sourceInUses, text_eq⟩ := UseStatement.text_mem_of_sort result inSorted
    obtain ⟨-, sourceFound, -⟩ := records.uses source sourceInUses
    obtain ⟨before, after, line⟩ := exists_line_at closed.plain sourceFound
    exact closed.tidy_in_replace_line found nonempty (text_eq ▸ line.unbroken.plain)
  · intro edit member
    obtain ⟨statement, -, target, -, rfl⟩ := UseStatement.mem_sort_edits member
    exact Or.inr ⟨rfl, Nat.zero_le _⟩
  · exact (UseStatement.sort_edits_pairwise records.ascending).imp Or.inl

end Document
end PhpNames
