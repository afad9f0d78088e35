import Mathlib.Data.List.Basic
import PhpNames.Proofs.CandidateList
import PhpNames.Proofs.FaithfulEditor
import PhpNames.Proofs.WholeLines

/-!
Names that hold no stray line break.

A line of a document holds a line break at most at its end, where no namespace can reach. So the
candidates for a class are free of line breaks, and a command gets only plain names if the user
types and picks only such.
-/

namespace PhpNames

open MonadRun Text

theorem mem_of_mem_last_run {text : Text} {c : Char} (member : c ∈ lastRun text) : c ∈ text := by
  rw [lastRun, List.mem_reverse] at member
  exact List.mem_reverse.mp ((List.takeWhile_prefix _).subset member)

theorem mem_of_mem_base_name {name : Text} {c : Char} (member : c ∈ baseName name) : c ∈ name := by
  unfold baseName at member
  simp only at member
  split at member
  · exact member
  · have inFront := List.mem_reverse.mp (mem_of_mem_last_run member)
    exact List.mem_reverse.mp ((List.dropWhile_suffix _).subset inFront)

namespace NamespaceStatement

/-- Something is left of a line behind the namespace that it declares. -/
theorem Declares.split {line name : Text} (declares : Declares line name) :
    ∃ front rest, rest ≠ [] ∧ line = front ++ name ++ rest := by
  obtain ⟨keyword, _, text, blank, line_eq, preferred⟩ := declares
  obtain ⟨behind, text_eq, named⟩ := preferred.follows.named
  obtain ⟨space, rest, behind_eq, _⟩ := named.ended
  refine ⟨keyword ++ blank, space ++ ';' :: rest, by simp, ?_⟩
  rw [line_eq, text_eq, behind_eq]
  simp only [List.append_assoc]

theorem unbroken_declared? {lines : List Text} {name : Text}
    (inLines : ∀ line ∈ lines, Unbroken line.dropLast) (found : declared? lines = some name) :
    Unbroken name := by
  obtain ⟨line, member, foundHere⟩ := List.exists_of_findSome?_eq_some found
  obtain ⟨front, rest, rest_ne, rfl⟩ := (name_in?_eq_some_iff.mp foundHere).split
  have unbroken := inLines _ member
  rw [List.dropLast_append_of_ne_nil rest_ne, unbroken_append, unbroken_append] at unbroken
  exact unbroken.1.2

end NamespaceStatement

namespace Candidates

theorem mem_declared {name full : Text} {documents : List (List Text)}
    (member : full ∈ (declared name documents).names) :
    ∃ lines ∈ documents, ∃ namespaceName, NamespaceStatement.declared? lines = some namespaceName ∧
      full = qualified namespaceName name := by
  rw [declared_eq, List.mem_eraseDups] at member
  obtain ⟨namespaceName, found, same⟩ := List.mem_map.mp member
  obtain ⟨lines, inDocuments, declares⟩ := List.mem_filterMap.mp found
  exact ⟨lines, inDocuments, namespaceName, declares, same.symm⟩

theorem mem_resolve {name full : Text} {documents : List (List Text)} {candidates : Candidates}
    (resolved : resolve name documents = .ok candidates) (member : full ∈ candidates.names) :
    full = name ∨ full ∈ (declared name documents).names := by
  rw [names_of_resolve resolved, expected] at member
  rw [declared_eq]
  split at member
  · exact List.mem_cons.mp member
  · split at member
    · exact Or.inl (List.mem_singleton.mp member)
    · exact Or.inr member

theorem unbroken_resolve {name full : Text} {documents : List (List Text)}
    {candidates : Candidates} (nameUnbroken : Unbroken name)
    (inLines : ∀ lines ∈ documents, ∀ line ∈ lines, Unbroken line.dropLast)
    (resolved : resolve name documents = .ok candidates) (member : full ∈ candidates.names) :
    Unbroken full := by
  rcases mem_resolve resolved member with rfl | inDeclared
  · exact nameUnbroken
  · obtain ⟨lines, inDocuments, namespaceName, declares, rfl⟩ := mem_declared inDeclared
    have prefixUnbroken :=
      NamespaceStatement.unbroken_declared? (inLines lines inDocuments) declares
    exact unbroken_append.mpr
      ⟨prefixUnbroken, unbroken_cons.mpr ⟨by decide, nameUnbroken⟩⟩

end Candidates

/-! ### What a command is told -/

/-- Whether, from a state on, the user picks and types only plain texts, and files are read line by
line. -/
structure PlainReplies {σ : Type} {m : Type → Type} [Monad m] [MonadEditor m] [MonadRun σ m]
    (s : σ) : Prop where
  picked {after : σ} (reached : Reaches s after) (options : List Text) :
    ∀ name ∈ (run (MonadEditor.chooseName options : m _) after).1, Plain name
  typed {after : σ} (reached : Reaches s after) (placeholder : Text) :
    ∀ name ∈ (run (MonadEditor.askText placeholder : m _) after).1, Plain name
  read {after : σ} (reached : Reaches s after) (path : Path) :
    ∀ lines ∈ (run (MonadEditor.openFile path : m _) after).1,
      ∀ line ∈ lines, Unbroken line.dropLast

namespace PlainReplies

open Job

variable {σ : Type} {m : Type → Type} [Monad m] [MonadEditor m] [MonadRun σ m] {s after : σ}

theorem later (replies : PlainReplies s) (reached : Reaches s after) : PlainReplies after where
  picked further := replies.picked (reached.trans further)
  typed further := replies.typed (reached.trans further)
  read further := replies.read (reached.trans further)

theorem open_all (replies : PlainReplies s) (paths : List Path) :
    ∀ lines ∈ (run (Commands.openAll paths : m _) s).1,
      ∀ line ∈ lines, Unbroken line.dropLast := by
  induction paths generalizing s with
  | nil =>
      intro lines member
      rw [Commands.openAll, run_pure] at member
      cases member
  | cons path rest induction =>
      have here := replies.read .refl path
      have others : ∀ lines ∈ (run (Commands.openAll rest : m _)
          (run (MonadEditor.openFile path : m _) s).2).1,
            ∀ line ∈ lines, Unbroken line.dropLast :=
        induction (replies.later (.step .refl (.openFile path)))
      rw [Commands.openAll, run_bind]
      generalize run (MonadEditor.openFile path : m _) s = reply at here others ⊢
      rcases reply with ⟨_ | lines, next⟩
      · exact others
      · intro shown member
        rw [run_bind, run_pure] at member
        rcases List.mem_cons.mp member with rfl | further
        · exact here shown rfl
        · exact others shown further

theorem find_candidates {name : Text} {candidates : Candidates} (replies : PlainReplies s)
    (nameUnbroken : Unbroken name)
    (found : (ends (Commands.findCandidates name) s).1 = .ok candidates) :
    ∀ full ∈ candidates.names, Plain full := by
  intro full member
  rw [Commands.ends_find_candidates] at found
  have opened : ∀ lines ∈ (run (Commands.openCandidates name : m _) s).1,
      ∀ line ∈ lines, Unbroken line.dropLast := by
    rw [Commands.openCandidates, run_bind]
    exact (replies.later (.step .refl (.candidateFiles name))).open_all _
  exact (Candidates.unbroken_resolve nameUnbroken opened found member).plain

theorem pick_name {candidates : Candidates} (replies : PlainReplies s)
    (plain : ∀ full ∈ candidates.names, Plain full) :
    ∀ full ∈ (run (Commands.pickName candidates : m _) s).1, Plain full := by
  unfold Commands.pickName
  cases single : candidates.single? with
  | none => exact replies.picked .refl candidates.names
  | some only =>
      rintro full same
      rw [run_pure] at same
      obtain rfl : only = full := Option.some.inj same
      apply plain
      unfold Candidates.single? at single
      split at single
      · rename_i names_eq
        rw [names_eq, Option.some.inj single]
        exact List.mem_singleton_self _
      · cases single

end PlainReplies

theorem Workbench.plain_replies {bench : Workbench}
    (choices : ∀ name, some name ∈ bench.choices → Plain name)
    (answers : ∀ name, some name ∈ bench.answers → Plain name) : PlainReplies bench where
  picked := by
    intro after reached options name picked
    have next : some name ∈ after.choices :=
      List.mem_of_mem_head? (Option.join_eq_some_iff.mp picked)
    exact choices name ((reached_continues reached).choices.subset next)
  typed := by
    intro after reached placeholder name typed
    have next : some name ∈ after.answers :=
      List.mem_of_mem_head? (Option.join_eq_some_iff.mp typed)
    exact answers name ((reached_continues reached).answers.subset next)
  read := by
    intro after _ path lines read line member
    obtain ⟨uri, -, shown⟩ := Option.bind_eq_some_iff.mp read
    obtain ⟨document, -, shownLines⟩ := Option.bind_eq_some_iff.mp shown
    obtain rfl := Option.some.inj shownLines
    exact Document.unbroken_drop_last_of_mem_lines member

end PhpNames
