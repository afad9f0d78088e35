import PhpNames.Proofs.ShortNames

/-!
The name that an accepted answer gives a class.

An answer is compared as it was typed with the names that are taken, but the line that is written
for it makes the word before the first semicolon of the line available. The two are the same if the
answer is a word. Any other answer can be accepted and still give a name that is taken, or no name.
-/

namespace PhpNames

open Text

namespace UseStatement

/-- The name that an answer gives a class: the word right before its first semicolon or its end. -/
def givenName (answer : Text) : Text :=
  lastRun (answer.takeWhile (· != ';'))

def AddsFreeName (name otherName : Text) (uses : List UseStatement) : Prop :=
  ∃ short, shortNameOf? (importingAs name otherName) = some short ∧
    ∀ statement ∈ uses, statement.shortName? ≠ some short

variable {name answer : Text} {uses : List UseStatement}

theorem takes_eq_true_iff :
    takes uses name = true ↔ ∃ statement ∈ uses, statement.shortName? = some name := by
  simp [takes]

theorem takes_eq_false_iff :
    takes uses name = false ↔ ∀ statement ∈ uses, statement.shortName? ≠ some name := by
  simp [takes]

/-! ### Words -/

theorem letters_given_name (answer : Text) : ∀ c ∈ givenName answer, isWordChar c = true := by
  intro c member
  exact List.mem_takeWhile_imp (List.mem_reverse.mp member)

theorem given_name_letters (letters : ∀ c ∈ answer, isWordChar c = true) :
    givenName answer = answer := by
  have noEnd : ∀ c ∈ answer, (c != ';') = true := by
    intro c member
    rw [bne_iff_ne]
    intro same
    have isWord := letters c member
    rw [same, is_word_char_semicolon] at isWord
    cases isWord
  rw [givenName, List.takeWhile_eq_self_iff.mpr noEnd, last_run_letters letters]

/-- The answers that are read as they were typed are the words. -/
theorem given_name_eq_self_iff :
    givenName answer = answer ↔ ∀ c ∈ answer, isWordChar c = true := by
  constructor
  · intro same
    rw [← same]
    exact letters_given_name answer
  · exact given_name_letters

/-! ### Written lines -/

/-- The first semicolon of a written answer is its own or that of the line. -/
theorem exists_ended (front answer : Text) :
    ∃ further, front ++ answer ++ [';'] =
      front ++ answer.takeWhile (· != ';') ++ ';' :: further := by
  simp only [List.append_assoc, List.append_cancel_left_eq]
  induction answer with
  | nil => exact ⟨[], rfl⟩
  | cons c answer induction =>
      by_cases ends : c = ';'
      · exact ⟨answer ++ [';'], by simp [ends]⟩
      · obtain ⟨further, split⟩ := induction
        refine ⟨further, ?_⟩
        rw [List.takeWhile_cons_of_pos (by simpa using ends), List.cons_append, split]
        rfl

theorem short_name_of?_importing_as (noEnd : ';' ∉ name) (answer : Text) :
    shortNameOf? (importingAs name answer) =
      if givenName answer = [] then none else some (givenName answer) := by
  have link : " as ".toList.getLast? = some ' ' := by decide
  have apart : ∀ c ∈ ("use ".toList ++ name ++ " as ".toList).getLast?, isWordChar c = false := by
    intro c isLast
    rw [List.getLast?_append, link] at isLast
    obtain rfl : ' ' = c := Option.some.inj isLast
    decide
  have absent : ';' ∉ "use ".toList ++ name ++ " as ".toList ++ answer.takeWhile (· != ';') := by
    simp only [List.mem_append, not_or]
    refine ⟨⟨⟨by decide, noEnd⟩, by decide⟩, ?_⟩
    intro member
    simpa using List.mem_takeWhile_imp member
  obtain ⟨further, ended⟩ := exists_ended ("use ".toList ++ name ++ " as ".toList) answer
  calc
    shortNameOf? (importingAs name answer)
    _ = shortNameOf? ("use ".toList ++ name ++ " as ".toList ++ answer.takeWhile (· != ';') ++
          ';' :: further) := congrArg shortNameOf? ended
    _ = _ := by rw [short_name_of?_ended absent, last_run_behind apart, givenName]

theorem short_name_of?_importing {word : Text} (nonempty : word ≠ [])
    (letters : ∀ c ∈ word, isWordChar c = true) : shortNameOf? (importing word) = some word := by
  apply short_name_of?_statement (by decide) [] nonempty letters
  intro c isLast
  obtain rfl : ' ' = c := Option.some.inj isLast
  decide

theorem adds_free_name_iff (noEnd : ';' ∉ name) :
    AddsFreeName name answer uses ↔
      givenName answer ≠ [] ∧ takes uses (givenName answer) = false := by
  rw [AddsFreeName, short_name_of?_importing_as noEnd, takes_eq_false_iff]
  by_cases unnamed : givenName answer = []
  · simp [unnamed]
  · simp [unnamed]

end UseStatement

/-! ### Answers -/

namespace AliasDecision

open UseStatement

variable {name answer : Text} {uses : List UseStatement}

theorem of_eq_use_alias_iff {otherName : Text} :
    AliasDecision.of (some answer) uses = .useAlias otherName ↔
      otherName = answer ∧ answer ≠ [] ∧ takes uses answer = false := by
  constructor
  · intro decided
    obtain ⟨same, named, free⟩ := free_of_use_alias decided
    obtain rfl := Option.some.inj same
    exact ⟨rfl, named, free⟩
  · intro ⟨same, named, free⟩
    simp [AliasDecision.of, same, named, free]

/-- An answer that is no word is accepted in some document where it does not give a free name. -/
theorem exists_not_adds_free_name (noEnd : ';' ∉ name) (named : answer ≠ [])
    (noWord : givenName answer ≠ answer) :
    ∃ uses, AliasDecision.of (some answer) uses = .useAlias answer ∧
      ¬ AddsFreeName name answer uses := by
  by_cases unnamed : givenName answer = []
  · refine ⟨[], of_eq_use_alias_iff.mpr ⟨rfl, named, rfl⟩, ?_⟩
    rw [adds_free_name_iff noEnd]
    exact fun free => free.1 unnamed
  · -- the only statement has the name that the answer gives, and not the answer
    have taken := short_name_of?_importing unnamed (letters_given_name answer)
    refine ⟨[⟨importing (givenName answer), 0⟩], of_eq_use_alias_iff.mpr ⟨rfl, named, ?_⟩, ?_⟩
    · simp [takes, shortName?, taken, noWord]
    · rw [adds_free_name_iff noEnd]
      simp [takes, shortName?, taken]

/-- An accepted answer is the other name that is written, and the line for it adds a free name if
and only if the word before the first semicolon is there and not taken. An accepted word is free.
Every other answer is accepted in some document in which it adds no free name. -/
theorem use_alias_adds_free_name_iff {otherName : Text} (noEnd : ';' ∉ name)
    (decided : AliasDecision.of (some answer) uses = .useAlias otherName) :
    otherName = answer ∧
    (∀ found, ∃ above below, (insertEdit name (some otherName) found).text =
      above ++ importingAs name otherName ++ below ∧ ∀ c ∈ above ++ below, c = '\n') ∧
    shortNameOf? (importingAs name otherName) =
      (if givenName answer = [] then none else some (givenName answer)) ∧
    (AddsFreeName name otherName uses ↔
      givenName answer ≠ [] ∧ takes uses (givenName answer) = false) ∧
    ((∀ c ∈ answer, isWordChar c = true) →
      shortNameOf? (importingAs name otherName) = some answer ∧
        AddsFreeName name otherName uses) ∧
    ((∀ others, AliasDecision.of (some answer) others = .useAlias answer →
      AddsFreeName name answer others) ↔ ∀ c ∈ answer, isWordChar c = true) := by
  obtain ⟨rfl, named, free⟩ := of_eq_use_alias_iff.mp decided
  have short := short_name_of?_importing_as noEnd otherName
  have word_free : ∀ others, (∀ c ∈ otherName, isWordChar c = true) →
      AliasDecision.of (some otherName) others = .useAlias otherName →
        AddsFreeName name otherName others := by
    intro others letters accepted
    rw [adds_free_name_iff noEnd, given_name_letters letters]
    exact (of_eq_use_alias_iff.mp accepted).2
  refine ⟨rfl, ?_, short, adds_free_name_iff noEnd, ?_, ?_⟩
  · intro found
    refine ⟨(InsertionPoint.of found).before, (InsertionPoint.of found).after, rfl, ?_⟩
    intro c member
    rw [InsertionPoint.before_eq, InsertionPoint.after_eq, List.mem_append, List.mem_cons] at member
    rcases member with above | feed | below
    · exact List.eq_of_mem_replicate above
    · exact feed
    · exact List.eq_of_mem_replicate below
  · intro letters
    rw [short, given_name_letters letters, if_neg named]
    exact ⟨rfl, word_free uses letters decided⟩
  · constructor
    · intro always
      rw [← given_name_eq_self_iff]
      by_contra noWord
      obtain ⟨others, accepted, taken⟩ := exists_not_adds_free_name noEnd named noWord
      exact taken (always others accepted)
    · intro letters others accepted
      exact word_free others letters accepted

def barUses : List UseStatement :=
  [⟨"use Foo\\Bar;".toList, 1⟩]

theorem use_alias_adds_free_name_iff_word :
    AliasDecision.of (some "Car".toList) barUses = .useAlias "Car".toList ∧
    shortNameOf? (importingAs "App\\Bar".toList "Car".toList) = some "Car".toList ∧
    AddsFreeName "App\\Bar".toList "Car".toList barUses := by
  have noEnd : ';' ∉ "App\\Bar".toList := by decide
  have decided : AliasDecision.of (some "Car".toList) barUses = .useAlias "Car".toList := by
    decide +kernel
  have letters : ∀ c ∈ "Car".toList, isWordChar c = true := by
    rw [← List.all_eq_true]
    decide
  exact ⟨decided, (use_alias_adds_free_name_iff noEnd decided).2.2.2.2.1 letters⟩

/-- A space before the name hides that it is taken. -/
theorem use_alias_takes_spaced_name :
    AliasDecision.of (some " Bar".toList) barUses = .useAlias " Bar".toList ∧
    shortNameOf? (importingAs "App\\Bar".toList " Bar".toList) = some "Bar".toList ∧
    takes barUses "Bar".toList = true ∧
    ¬ AddsFreeName "App\\Bar".toList " Bar".toList barUses := by
  have taken : takes barUses (givenName " Bar".toList) = true := by decide +kernel
  refine ⟨by decide +kernel, by decide +kernel, by decide +kernel, ?_⟩
  rw [adds_free_name_iff (by decide), taken]
  simp

end AliasDecision
end PhpNames
