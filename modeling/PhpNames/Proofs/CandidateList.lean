import PhpNames.Candidates
import PhpNames.Proofs.FirstOccurrences
import PhpNames.Proofs.NamespaceLine

/-!
The exact list of the full names that a short class name may stand for.

A line declares a namespace by a keyword, blank space, the name and a semicolon, with blank space
before the semicolon or not. Where it can be read in several ways, the longest blank space behind
the keyword counts, and then the shortest name. A document declares what its first such line does.
The candidates are the short name itself if PHP has a class of that name, and then every name that
a document declares it under, once and in the order of the documents. A full name is longer than the
short name, so none of them is the short name.
-/

namespace PhpNames

open Text

/-! ### What a line declares -/

namespace NamespaceStatement

/-- Whether a text starts with a name on one line and then ends the statement. -/
structure StartsWith (text name : Text) : Prop where
  nonempty : name ≠ []
  sameLine : '\n' ∉ name
  ended : ∃ space rest, text = name ++ (space ++ ';' :: rest) ∧ ∀ c ∈ space, isBlank c = true

structure Follows (text blank name : Text) : Prop where
  nonempty : blank ≠ []
  isBlank : ∀ c ∈ blank, isBlank c = true
  named : ∃ behind, text = blank ++ behind ∧ StartsWith behind name

/-- The reading of a statement that counts: of the longest blank space the shortest name. -/
structure Preferred (text blank name : Text) : Prop where
  follows : Follows text blank name
  first (more other : Text) : Follows text more other →
    more.length < blank.length ∨ more.length = blank.length ∧ name.length ≤ other.length

def Declares (line name : Text) : Prop :=
  ∃ keyword ∈ keywords, ∃ text blank, line = keyword ++ text ∧ Preferred text blank name

/-- Whether the first line of a document that declares a namespace declares this one. -/
def FirstDeclares (lines : List Text) (name : Text) : Prop :=
  ∃ before line after, lines = before ++ line :: after ∧ Declares line name ∧
    ∀ earlier ∈ before, ∀ other, ¬ Declares earlier other

variable {text blank name line : Text} {c : Char}

theorem ends_here_iff : endsHere text = true ↔
    ∃ space rest, text = space ++ ';' :: rest ∧ ∀ c ∈ space, isBlank c = true := by
  induction text with
  | nil => simp [endsHere]
  | cons c text induction =>
      cases isBlankHere : isBlank c with
      | true =>
          rw [endsHere, List.dropWhile_cons_of_pos isBlankHere, ← endsHere, induction]
          constructor
          · intro ⟨space, rest, split, blanks⟩
            exact ⟨c :: space, rest, congrArg (c :: ·) split,
              List.forall_mem_cons.mpr ⟨isBlankHere, blanks⟩⟩
          · intro ⟨space, rest, split, blanks⟩
            cases space with
            | nil =>
                obtain ⟨rfl, _⟩ := List.cons.inj split
                exact absurd isBlankHere (by decide)
            | cons d space =>
                exact ⟨space, rest, (List.cons.inj split).2, (List.forall_mem_cons.mp blanks).2⟩
      | false =>
          rw [endsHere, List.dropWhile_cons_of_neg (by simp [isBlankHere]), List.head?_cons,
            beq_iff_eq, Option.some_inj]
          constructor
          · intro same
            exact ⟨[], text, by rw [same]; rfl, by simp⟩
          · intro ⟨space, rest, split, blanks⟩
            cases space with
            | nil => exact (List.cons.inj split).1
            | cons d space =>
                obtain ⟨rfl, _⟩ := List.cons.inj split
                rw [(List.forall_mem_cons.mp blanks).1] at isBlankHere
                cases isBlankHere

/-- A name is its first character and a shorter name, or the end of the statement behind that. -/
theorem starts_with_cons_iff : StartsWith (c :: text) name ↔
    c ≠ '\n' ∧ ∃ further, name = c :: further ∧
      (further = [] ∧ endsHere text = true ∨ StartsWith text further) := by
  constructor
  · intro ⟨nonempty, sameLine, space, rest, split, blanks⟩
    cases name with
    | nil => exact absurd rfl nonempty
    | cons d further =>
        obtain ⟨rfl, text_eq⟩ := List.cons.inj split
        simp only [List.mem_cons, not_or] at sameLine
        refine ⟨Ne.symm sameLine.1, further, rfl, ?_⟩
        by_cases last : further = []
        · subst last
          exact Or.inl ⟨rfl, ends_here_iff.mpr ⟨space, rest, text_eq, blanks⟩⟩
        · exact Or.inr ⟨last, sameLine.2, space, rest, text_eq, blanks⟩
  · intro ⟨notFeed, further, name_eq, longer⟩
    subst name_eq
    rcases longer with ⟨rfl, ends⟩ | starts
    · obtain ⟨space, rest, split, blanks⟩ := ends_here_iff.mp ends
      exact ⟨List.cons_ne_nil c [], by simpa using Ne.symm notFeed, space, rest,
        congrArg (c :: ·) split, blanks⟩
    · obtain ⟨space, rest, split, blanks⟩ := starts.ended
      exact ⟨List.cons_ne_nil c further, by simpa using ⟨Ne.symm notFeed, starts.sameLine⟩, space,
        rest, congrArg (c :: ·) split, blanks⟩

theorem not_starts_with_of_none (none : shortestName? text = none) (name : Text) :
    ¬ StartsWith text name := by
  induction text generalizing name with
  | nil =>
      intro starts
      obtain ⟨space, rest, split, _⟩ := starts.ended
      exact starts.nonempty (List.append_eq_nil_iff.mp split.symm).1
  | cons c text induction =>
      rw [shortestName?] at none
      rw [starts_with_cons_iff]
      intro starts
      obtain ⟨notFeed, further, _, longer⟩ := starts
      rw [if_neg notFeed] at none
      split at none
      · cases none
      · rename_i notHere
        rcases longer with ⟨_, ends⟩ | starts
        · exact notHere ends
        · exact induction (Option.map_eq_none_iff.mp none) further starts

theorem shortest_of_shortest_name? (found : shortestName? text = some name) :
    StartsWith text name ∧ ∀ other, StartsWith text other → name.length ≤ other.length := by
  induction text generalizing name with
  | nil => cases found
  | cons c text induction =>
      rw [shortestName?] at found
      split at found
      · cases found
      · rename_i notFeed
        split at found
        · rename_i ends
          cases found
          refine ⟨starts_with_cons_iff.mpr ⟨notFeed, [], rfl, Or.inl ⟨rfl, ends⟩⟩, ?_⟩
          intro other starts
          exact List.length_pos_iff.mpr starts.nonempty
        · rename_i notHere
          obtain ⟨further, searched, rfl⟩ := Option.map_eq_some_iff.mp found
          obtain ⟨starts, shortest⟩ := induction searched
          refine ⟨starts_with_cons_iff.mpr ⟨notFeed, further, rfl, Or.inr starts⟩, ?_⟩
          intro other startsOther
          obtain ⟨_, longer, rfl, named⟩ := starts_with_cons_iff.mp startsOther
          rcases named with ⟨_, ends⟩ | startsLonger
          · exact absurd ends notHere
          · exact Nat.succ_le_succ (shortest longer startsLonger)

/-- The blank space is its first character and less blank space, or the statement behind that. -/
theorem follows_cons_iff : Follows (c :: text) blank name ↔
    isBlank c = true ∧ ∃ fewer, blank = c :: fewer ∧
      (fewer = [] ∧ StartsWith text name ∨ Follows text fewer name) := by
  constructor
  · intro ⟨nonempty, blanks, behind, split, starts⟩
    cases blank with
    | nil => exact absurd rfl nonempty
    | cons d fewer =>
        obtain ⟨rfl, text_eq⟩ := List.cons.inj split
        obtain ⟨here, others⟩ := List.forall_mem_cons.mp blanks
        refine ⟨here, fewer, rfl, ?_⟩
        by_cases last : fewer = []
        · subst last
          obtain rfl : text = behind := text_eq
          exact Or.inl ⟨rfl, starts⟩
        · exact Or.inr ⟨last, others, behind, text_eq, starts⟩
  · intro ⟨here, fewer, blank_eq, longer⟩
    subst blank_eq
    rcases longer with ⟨rfl, starts⟩ | follows
    · exact ⟨List.cons_ne_nil c [], by simpa using here, text, rfl, starts⟩
    · obtain ⟨behind, split, starts⟩ := follows.named
      exact ⟨List.cons_ne_nil c fewer, List.forall_mem_cons.mpr ⟨here, follows.isBlank⟩, behind,
        congrArg (c :: ·) split, starts⟩

theorem not_follows_of_none (none : nameAfterBlank? text = none) (blank name : Text) :
    ¬ Follows text blank name := by
  induction text generalizing blank with
  | nil =>
      intro follows
      obtain ⟨behind, split, _⟩ := follows.named
      exact follows.nonempty (List.append_eq_nil_iff.mp split.symm).1
  | cons c text induction =>
      rw [nameAfterBlank?] at none
      rw [follows_cons_iff]
      intro follows
      obtain ⟨here, fewer, _, longer⟩ := follows
      rw [if_pos here, Option.or_eq_none_iff] at none
      rcases longer with ⟨_, starts⟩ | follows
      · exact not_starts_with_of_none none.2 name starts
      · exact induction none.1 fewer follows

theorem preferred_of_name_after_blank? (found : nameAfterBlank? text = some name) :
    ∃ blank, Preferred text blank name := by
  induction text with
  | nil => cases found
  | cons c text induction =>
      rw [nameAfterBlank?] at found
      split at found
      · rename_i here
        rcases Option.or_eq_some_iff.mp found with further | ⟨none, starts⟩
        · obtain ⟨blank, follows, first⟩ := induction further
          refine ⟨c :: blank, follows_cons_iff.mpr ⟨here, blank, rfl, Or.inr follows⟩, ?_⟩
          intro more other followsOther
          obtain ⟨_, fewer, rfl, longer⟩ := follows_cons_iff.mp followsOther
          rcases longer with ⟨rfl, _⟩ | follows'
          · left
            exact Nat.succ_lt_succ (List.length_pos_iff.mpr follows.nonempty)
          · rcases first fewer other follows' with less | ⟨same, shorter⟩
            · exact Or.inl (Nat.succ_lt_succ less)
            · exact Or.inr ⟨congrArg Nat.succ same, shorter⟩
        · obtain ⟨startsHere, shortest⟩ := shortest_of_shortest_name? starts
          refine ⟨[c], follows_cons_iff.mpr ⟨here, [], rfl, Or.inl ⟨rfl, startsHere⟩⟩, ?_⟩
          intro more other followsOther
          obtain ⟨_, fewer, rfl, longer⟩ := follows_cons_iff.mp followsOther
          rcases longer with ⟨rfl, startsOther⟩ | follows
          · exact Or.inr ⟨rfl, shortest other startsOther⟩
          · exact absurd follows (not_follows_of_none none fewer other)
      · cases found

/-- There is only one reading that counts. -/
theorem Preferred.unique {other more : Text} (preferred : Preferred text blank name)
    (again : Preferred text more other) : name = other := by
  have lengths : more.length = blank.length ∧ name.length = other.length := by
    have forth := preferred.first more other again.follows
    have back := again.first blank name preferred.follows
    omega
  obtain ⟨behind, split, _, _, _, _, named, _⟩ := preferred.follows.named
  obtain ⟨behindOther, splitOther, _, _, _, _, namedOther, _⟩ := again.follows.named
  obtain ⟨_, rfl⟩ := List.append_inj (splitOther.symm.trans split) lengths.1
  exact (List.append_inj (named.symm.trans namedOther) lengths.2).1

theorem name_in?_eq_some_iff : nameIn? line = some name ↔ Declares line name := by
  constructor
  · intro found
    obtain ⟨keyword, member, behind, line_eq, searched⟩ := name_in?_eq_some found
    obtain ⟨blank, preferred⟩ := preferred_of_name_after_blank? searched
    exact ⟨keyword, member, behind, blank, line_eq, preferred⟩
  · intro ⟨keyword, member, text, blank, line_eq, preferred⟩
    rw [line_eq, name_in?_keyword member]
    cases searched : nameAfterBlank? text with
    | none => exact absurd preferred.follows (not_follows_of_none searched blank name)
    | some other =>
        obtain ⟨more, again⟩ := preferred_of_name_after_blank? searched
        rw [again.unique preferred]

theorem declared?_eq_some_iff {lines : List Text} :
    declared? lines = some name ↔ FirstDeclares lines name := by
  have silent_iff : ∀ line, nameIn? line = none ↔ ∀ other, ¬ Declares line other := by
    intro line
    rw [Option.eq_none_iff_forall_ne_some]
    exact forall_congr' fun other => not_congr name_in?_eq_some_iff
  simp only [declared?, List.findSome?_eq_some_iff, name_in?_eq_some_iff, silent_iff, FirstDeclares]

end NamespaceStatement

/-! ### The candidates -/

namespace Candidates

variable {name : Text} {documents : List (List Text)}

def fullNames (name : Text) (documents : List (List Text)) : List Text :=
  (documents.filterMap NamespaceStatement.declared?).map (qualified · name)

theorem names_foldl_push (namespaceNames : List Text) (name : Text) :
    (namespaceNames.foldl
      (fun candidates namespaceName => push candidates (qualified namespaceName name)) {}).names =
        (namespaceNames.map (qualified · name)).eraseDups := by
  induction namespaceNames using List.reverseRecOn with
  | nil => simp
  | append_singleton namespaceNames namespaceName induction =>
      rw [List.foldl_append, List.map_append, List.map_singleton, erase_dups_concat, ← induction]
      have known : qualified namespaceName name ∈ namespaceNames.map (qualified · name) ↔
          qualified namespaceName name ∈ (namespaceNames.foldl
            (fun candidates namespaceName =>
              push candidates (qualified namespaceName name)) {}).names := by
        rw [induction, List.mem_eraseDups]
      simp only [known, List.foldl_cons, List.foldl_nil, push, List.contains_iff_mem]
      split
      · rfl
      · rfl

theorem declared_eq (name : Text) (documents : List (List Text)) :
    declared name documents = ⟨(fullNames name documents).eraseDups⟩ :=
  congrArg mk (names_foldl_push _ name)

/-- A full name is longer than the short one. -/
theorem name_not_mem_full_names : name ∉ fullNames name documents := by
  intro member
  obtain ⟨namespaceName, _, same⟩ := List.mem_map.mp member
  have lengths := congrArg List.length same
  simp only [qualified, List.length_append, List.length_cons] at lengths
  omega

theorem prepend_declared_eq (name : Text) (documents : List (List Text)) :
    (declared name documents).prepend name = ⟨name :: (fullNames name documents).eraseDups⟩ := by
  rw [declared_eq, prepend, List.filter_eq_self.mpr]
  intro full member
  rw [bne_iff_ne]
  intro same
  exact name_not_mem_full_names (same ▸ List.mem_eraseDups.mp member)

/-- The short name first if it is that of a class of PHP, then the full names, and the short name
alone if there would be none. -/
def expected (name : Text) (documents : List (List Text)) : List Text :=
  if Builtin.has name then name :: (fullNames name documents).eraseDups
  else if fullNames name documents = [] then [name]
  else (fullNames name documents).eraseDups

/-- What a search ends in, by what it is given. -/
theorem resolve_eq (name : Text) (documents : List (List Text)) :
    resolve name documents =
      if documents = [] ∧ Builtin.has name = false then .error (.classNotFound name)
      else .ok ⟨expected name documents⟩ := by
  cases builtIn : Builtin.has name with
  | true => simp [resolve, builtIn, prepend_declared_eq, expected]
  | false =>
      simp only [resolve, builtIn, declared_eq, expected, Bool.false_eq_true, if_false, and_true]
      by_cases none : fullNames name documents = []
      · simp [none, push]
      · have listed : (fullNames name documents).eraseDups ≠ [] := by
          obtain ⟨full, member⟩ := List.exists_mem_of_ne_nil _ none
          exact List.ne_nil_of_mem (List.mem_eraseDups.mpr member)
        have documented : documents ≠ [] := by
          intro empty
          rw [empty] at none
          exact none rfl
        simp [none, listed, documented]

theorem error_of_resolve {error : ResolveError} (failed : resolve name documents = .error error) :
    error = .classNotFound name := by
  rw [resolve_eq] at failed
  split at failed
  · exact (Except.error.inj failed).symm
  · cases failed

theorem names_of_resolve {candidates : Candidates}
    (resolved : resolve name documents = .ok candidates) :
    candidates.names = expected name documents := by
  rw [resolve_eq] at resolved
  split at resolved
  · cases resolved
  · exact congrArg names (Except.ok.inj resolved).symm

theorem nodup_expected (name : Text) (documents : List (List Text)) :
    (expected name documents).Nodup := by
  have distinct := nodup_erase_dups (fullNames name documents)
  rw [expected]
  split
  · exact List.nodup_cons.mpr
      ⟨fun member => name_not_mem_full_names (List.mem_eraseDups.mp member), distinct⟩
  · split
    · exact List.nodup_singleton name
    · exact distinct

/-- Among names that are listed once each, there is a single one if no other is listed. -/
theorem single?_eq_some_iff {candidates : Candidates} (distinct : candidates.names.Nodup)
    (only : Text) :
    candidates.single? = some only ↔ ∀ full, full ∈ candidates.names ↔ full = only := by
  have named : candidates.single? = some only ↔ candidates.names = [only] := by
    rw [single?]
    split
    · rename_i names_eq
      rw [names_eq, Option.some_inj, List.singleton_inj]
    · rename_i several
      exact ⟨fun found => (by cases found), fun names_eq => absurd names_eq (several only)⟩
  rw [named]
  constructor
  · intro names_eq full
    rw [names_eq, List.mem_singleton]
  · intro alone
    rw [← List.perm_singleton, List.perm_ext_iff_of_nodup distinct (List.nodup_singleton only)]
    intro full
    rw [alone, List.mem_singleton]

/-- The list of candidates is exact: a search fails only for a name that neither a document nor PHP
knows, and lists otherwise every full name once, in the order of the documents. -/
theorem resolve_exact_list (name : Text) (documents : List (List Text)) :
    (∀ lines namespaceName, NamespaceStatement.declared? lines = some namespaceName ↔
      NamespaceStatement.FirstDeclares lines namespaceName) ∧
    (∀ error, resolve name documents = .error error ↔
      error = .classNotFound name ∧ documents = [] ∧ Builtin.has name = false) ∧
    (∀ candidates, resolve name documents = .ok candidates ↔
      (documents ≠ [] ∨ Builtin.has name = true) ∧
        candidates.names = expected name documents) ∧
    ((declared name documents).prepend name).names = name :: (declared name documents).names ∧
    ∀ candidates, resolve name documents = .ok candidates →
      candidates.names.Nodup ∧
      ∀ only, candidates.single? = some only ↔ ∀ full, full ∈ candidates.names ↔ full = only := by
  have given : ¬ (documents = [] ∧ Builtin.has name = false) ↔
      documents ≠ [] ∨ Builtin.has name = true := by
    rw [not_and_or, Bool.not_eq_false]
  have listed : ∀ candidates, resolve name documents = .ok candidates ↔
      (documents ≠ [] ∨ Builtin.has name = true) ∧
        candidates.names = expected name documents := by
    intro candidates
    rw [resolve_eq, ← given]
    split
    · rename_i unknown
      simp [unknown]
    · rename_i known
      rw [Except.ok.injEq, and_iff_right known]
      exact ⟨fun same => same ▸ rfl, fun same => same ▸ rfl⟩
  refine ⟨fun lines namespaceName => NamespaceStatement.declared?_eq_some_iff, ?_, listed, ?_, ?_⟩
  · intro error
    rw [resolve_eq]
    split
    · rename_i unknown
      rw [Except.error.injEq, and_iff_left unknown, eq_comm]
    · rename_i known
      simp [known]
  · rw [prepend_declared_eq, declared_eq]
  · intro candidates found
    have distinct : candidates.names.Nodup := by
      rw [names_of_resolve found]
      exact nodup_expected name documents
    exact ⟨distinct, single?_eq_some_iff distinct⟩

def exceptionFiles : List (List Text) :=
  [["<?php", "namespace App\\Errors;"], ["namespace \t Lib ;;", "namespace Other;"],
    ["final class Exception", "<?php namespace App\\Errors ;"]].map (List.map String.toList)

theorem resolve_exact_list_exception :
    resolve "Exception".toList exceptionFiles =
      .ok ⟨["Exception", "App\\Errors\\Exception", "Lib\\Exception"].map String.toList⟩ ∧
    (declared "Exception".toList exceptionFiles).single? = none := by
  have given : Builtin.has "Exception".toList = true := by decide +kernel
  have listed := (resolve_exact_list "Exception".toList exceptionFiles).2.2.1
  exact ⟨(listed _).mpr ⟨Or.inr given, by decide +kernel⟩, by decide +kernel⟩

end Candidates
end PhpNames
