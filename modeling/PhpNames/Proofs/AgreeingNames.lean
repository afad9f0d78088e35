import PhpNames.Proofs.AcceptedAlias
import PhpNames.Proofs.ImportAllTurns

/-!
The readers of short names agree.

A statement has the word right before its first semicolon as its short name, if there is one. The
reader of imported names finds the same word there. The statements that are written for a class have
the last word of its name, or the other name that it is imported under.
-/

namespace PhpNames

open Text

namespace UseStatement

/-- A word that cannot be made longer, right before the first semicolon of a text. -/
def ClosingWord (text word : Text) : Prop :=
  ∃ before after, text = before ++ word ++ ';' :: after ∧ ';' ∉ before ∧ word ≠ [] ∧
    (∀ c ∈ word, isWordChar c = true) ∧ ∀ c ∈ before.getLast?, isWordChar c = false

variable {text name : Text}

theorem short_name_of?_eq_some_iff : shortNameOf? text = some name ↔ ClosingWord text name := by
  constructor
  · intro short
    have ended : ';' ∈ text := by
      by_contra noEnd
      rw [short_name_of?_eq_none noEnd] at short
      cases short
    obtain ⟨before, after, rfl, noEnd⟩ := List.eq_append_cons_of_mem ended
    rw [short_name_of?_ended noEnd] at short
    split at short
    · cases short
    · rename_i named
      obtain rfl := Option.some.inj short
      obtain ⟨front, before_eq, letters, behind⟩ := exists_last_run before
      refine ⟨front, after, by rw [← before_eq], ?_, named, letters, behind⟩
      intro member
      rw [before_eq] at noEnd
      exact noEnd (List.mem_append_left _ member)
  · rintro ⟨before, after, rfl, noEnd, named, letters, behind⟩
    exact short_name_of?_statement noEnd after named letters behind

/-- The short name of a text is the word before its first semicolon, and the name that the text
imports; a class is imported under its last word or under the other name that it is given. -/
theorem short_names_agree :
    (∀ text name, shortNameOf? text = some name ↔ ClosingWord text name) ∧
    (∀ text name, shortNameOf? text = some name → importedName? text = some name) ∧
    ∀ name, ';' ∉ name → (∃ c ∈ name.getLast?, isWordChar c = true) →
      shortNameOf? (importing name) = some (baseName name) ∧
      ∀ otherName, otherName ≠ [] → (∀ c ∈ otherName, isWordChar c = true) →
        shortNameOf? (importingAs name otherName) = some otherName := by
  refine ⟨fun _ _ => short_name_of?_eq_some_iff, fun _ _ => imported_name?_of_short_name_of?, ?_⟩
  intro name noEnd ends
  refine ⟨short_name_of?_append_importing List.not_mem_nil noEnd ends, ?_⟩
  intro otherName named letters
  rw [short_name_of?_importing_as noEnd, given_name_letters letters, if_neg named]

def looseName : Text :=
  ['A', ' ', '\\', '-', Char.ofNat 0xC9, 't', Char.ofNat 0x301]

theorem short_names_agree_loose_name :
    shortNameOf? (importing looseName) = some [Char.ofNat 0xC9, 't', Char.ofNat 0x301] ∧
    importedName? (importing looseName) = some [Char.ofNat 0xC9, 't', Char.ofNat 0x301] ∧
    ClosingWord (importingAs looseName ['_', '1']) ['_', '1'] := by
  obtain ⟨closing, same, lines⟩ := short_names_agree
  have letter : isWordChar (Char.ofNat 0x301) = true := by decide +kernel
  obtain ⟨plain, aliased⟩ := lines looseName (by decide) ⟨_, rfl, letter⟩
  have base : baseName looseName = [Char.ofNat 0xC9, 't', Char.ofNat 0x301] := by decide +kernel
  rw [base] at plain
  refine ⟨plain, same _ _ plain, (closing _ _).mp (aliased ['_', '1'] (by decide) ?_)⟩
  exact List.all_eq_true.mp (by decide +kernel)

end UseStatement
end PhpNames
