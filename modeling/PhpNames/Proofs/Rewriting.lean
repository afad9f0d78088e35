import Mathlib.Data.List.Basic
import PhpNames.Document

/-!
Replacing several stretches of a text at once.

`Splice.atOnce` reads the text once, from its first character to its last: at every index it puts
down what the replacements that start there bring, and keeps the character unless one of them takes
it away. All indices are those of the text as it was before. It is what a batch of edits is
measured against, and it does not say in which order anything happens.
-/

namespace PhpNames

/-- A replacement of the characters from index `start` up to index `stop`. -/
structure Splice where
  start : Nat
  stop : Nat
  text : Text
  deriving DecidableEq, Repr

namespace Splice

def covers (splice : Splice) (index : Nat) : Bool :=
  splice.start ≤ index && index < splice.stop

def growth (splice : Splice) : Int :=
  splice.text.length - (splice.stop - splice.start)

def putAt (splices : List Splice) (index : Nat) : Text :=
  (splices.filter (·.start == index)).flatMap (·.text)

/-- What a stretch of the text turns into, whose first character has index `index`. -/
def walk (splices : List Splice) (index : Nat) : Text → Text
  | [] => []
  | c :: rest =>
      putAt splices index ++ (if splices.any (·.covers index) then [] else [c]) ++
        walk splices (index + 1) rest

/-- What the rest of the text turns into, whose first character has index `index`: an insertion at
the very end belongs to it. -/
def finish (splices : List Splice) (index : Nat) (text : Text) : Text :=
  walk splices index text ++ putAt splices (index + text.length)

def atOnce (splices : List Splice) (text : Text) : Text :=
  finish splices 0 text

@[simp] theorem walk_nil (index : Nat) (text : Text) : walk [] index text = text := by
  induction text generalizing index with
  | nil => rfl
  | cons c rest induction => simp [walk, putAt, induction]

@[simp] theorem finish_nil (index : Nat) (text : Text) : finish [] index text = text := by
  simp [finish, putAt]

@[simp] theorem at_once_nil (text : Text) : atOnce [] text = text :=
  finish_nil 0 text

/-- Two replacements that do not overlap and do not start at the same place. -/
def Apart (left right : Splice) : Prop :=
  (left.stop ≤ right.start ∨ right.stop ≤ left.start) ∧ left.start ≠ right.start

theorem put_at_append (left right : List Splice) (index : Nat) :
    putAt (left ++ right) index = putAt left index ++ putAt right index := by
  simp [putAt]

theorem put_at_eq_nil {splices : List Splice} {index : Nat}
    (elsewhere : ∀ splice ∈ splices, splice.start ≠ index) : putAt splices index = [] := by
  have none : splices.filter (·.start == index) = [] := by
    rw [List.filter_eq_nil_iff]
    intro splice member
    simpa using elsewhere splice member
  rw [putAt, none, List.flatMap_nil]

theorem any_covers_eq_false {splices : List Splice} {index : Nat}
    (kept : ∀ splice ∈ splices, ¬(splice.start ≤ index ∧ index < splice.stop)) :
    splices.any (·.covers index) = false := by
  rw [List.any_eq_false]
  intro splice member
  simpa [covers] using kept splice member

theorem walk_append (splices : List Splice) (index : Nat) (left right : Text) :
    walk splices index (left ++ right) =
      walk splices index left ++ walk splices (index + left.length) right := by
  induction left generalizing index with
  | nil => simp [walk]
  | cons c rest induction =>
      simp only [List.cons_append, walk, induction, List.length_cons, List.append_assoc]
      rw [Nat.add_assoc, Nat.add_comm 1]

/-- The walk over a stretch depends only on what happens at the indices of the stretch. -/
theorem walk_congr {left right : List Splice} {index : Nat} {text : Text}
    (samePut : ∀ place, index ≤ place → place < index + text.length →
      putAt left place = putAt right place)
    (sameCover : ∀ place, index ≤ place → place < index + text.length →
      left.any (·.covers place) = right.any (·.covers place)) :
    walk left index text = walk right index text := by
  induction text generalizing index with
  | nil => rfl
  | cons c rest induction =>
      simp only [List.length_cons] at samePut sameCover
      have later : walk left (index + 1) rest = walk right (index + 1) rest := by
        apply induction
        · intro place lower upper
          exact samePut place (by omega) (by omega)
        · intro place lower upper
          exact sameCover place (by omega) (by omega)
      rw [walk, walk, samePut index (by omega) (by omega), sameCover index (by omega) (by omega),
        later]

/-- A stretch that no replacement starts in or covers stays as it is. -/
theorem walk_untouched {splices : List Splice} {index : Nat} {text : Text}
    (untouched : ∀ splice ∈ splices,
      splice.stop ≤ index ∧ splice.start < index ∨ index + text.length ≤ splice.start) :
    walk splices index text = text := by
  induction text generalizing index with
  | nil => rfl
  | cons c rest induction =>
      simp only [List.length_cons] at untouched
      have put : putAt splices index = [] := by
        apply put_at_eq_nil
        intro splice member
        have := untouched splice member
        omega
      have kept : splices.any (·.covers index) = false := by
        apply any_covers_eq_false
        intro splice member
        have := untouched splice member
        omega
      have later : walk splices (index + 1) rest = rest := by
        apply induction
        intro splice member
        have := untouched splice member
        omega
      simp [walk, put, kept, later]

theorem finish_untouched {splices : List Splice} {index : Nat}
    (inFront : ∀ splice ∈ splices, splice.stop ≤ index ∧ splice.start < index) (text : Text) :
    finish splices index text = text := by
  have nothing : putAt splices (index + text.length) = [] := by
    apply put_at_eq_nil
    intro splice member
    have := inFront splice member
    omega
  rw [finish, nothing, List.append_nil]
  exact walk_untouched fun splice member => Or.inl (inFront splice member)

theorem at_once_eq_walk {splices : List Splice} {text : Text}
    (inside : ∀ splice ∈ splices, splice.start < text.length) :
    atOnce splices text = walk splices 0 text := by
  have nothing : putAt splices (0 + text.length) = [] := by
    apply put_at_eq_nil
    intro splice member
    have := inside splice member
    omega
  rw [atOnce, finish, nothing, List.append_nil]

/-- A stretch whose characters one replacement takes away, and where none starts, vanishes. -/
theorem walk_covered {splices : List Splice} {index : Nat} {text : Text} (splice : Splice)
    (member : splice ∈ splices)
    (covered : splice.start ≤ index ∧ index + text.length ≤ splice.stop)
    (elsewhere : ∀ place, index ≤ place → place < index + text.length →
      putAt splices place = []) :
    walk splices index text = [] := by
  induction text generalizing index with
  | nil => rfl
  | cons c rest induction =>
      simp only [List.length_cons] at covered elsewhere
      have taken : splices.any (·.covers index) = true := by
        rw [List.any_eq_true]
        refine ⟨splice, member, ?_⟩
        simp only [covers, Bool.and_eq_true, decide_eq_true_eq]
        omega
      have later : walk splices (index + 1) rest = [] := by
        apply induction
        · omega
        · intro place lower upper
          exact elsewhere place (by omega) (by omega)
      simp [walk, elsewhere index (by omega) (by omega), taken, later]

theorem finish_append (splices : List Splice) (index : Nat) (left right : Text) :
    finish splices index (left ++ right) =
      walk splices index left ++ finish splices (index + left.length) right := by
  simp only [finish, walk_append, List.length_append, List.append_assoc, Nat.add_assoc]

theorem finish_cons (splices : List Splice) (index : Nat) (c : Char) (rest : Text) :
    finish splices index (c :: rest) =
      putAt splices index ++ (if splices.any (·.covers index) then [] else [c]) ++
        finish splices (index + 1) rest := by
  simp only [finish, walk, List.length_cons, List.append_assoc, Nat.add_assoc, Nat.add_comm 1]

/-! ### One replacement more -/

section Adding

variable {splices : List Splice} {splice : Splice}

theorem put_at_add_elsewhere {place : Nat} (elsewhere : place ≠ splice.start) :
    putAt (splices ++ [splice]) place = putAt splices place := by
  have nothing : putAt [splice] place = [] := by
    apply put_at_eq_nil
    simpa using Ne.symm elsewhere
  rw [put_at_append, nothing, List.append_nil]

theorem put_at_add_start (elsewhere : ∀ other ∈ splices, other.start ≠ splice.start) :
    putAt (splices ++ [splice]) splice.start = splice.text := by
  rw [put_at_append, put_at_eq_nil elsewhere]
  simp [putAt]

theorem any_covers_add {place : Nat} (outside : ¬(splice.start ≤ place ∧ place < splice.stop)) :
    (splices ++ [splice]).any (·.covers place) = splices.any (·.covers place) := by
  have kept : splice.covers place = false := by
    simpa [covers] using outside
  simp [kept]

theorem walk_add_outside {index : Nat} {text : Text}
    (outside : index + text.length ≤ splice.start ∨
      splice.start < index ∧ splice.stop ≤ index) :
    walk (splices ++ [splice]) index text = walk splices index text := by
  apply walk_congr
  · intro place lower upper
    exact put_at_add_elsewhere (by omega)
  · intro place lower upper
    exact any_covers_add (by omega)

theorem finish_add_beyond {index : Nat} (text : Text) (started : splice.start < index)
    (stopped : splice.stop ≤ index) :
    finish (splices ++ [splice]) index text = finish splices index text := by
  rw [finish, finish, walk_add_outside (Or.inr ⟨started, stopped⟩),
    put_at_add_elsewhere (by omega)]

variable (ordered : ∀ other ∈ splices, other.start ≤ other.stop)
    (apart : ∀ other ∈ splices, other.Apart splice)

include ordered apart

/-- Every other replacement lies on one side of the further one. -/
theorem apart_sides {other : Splice} (member : other ∈ splices) :
    other.stop ≤ splice.start ∧ other.start < splice.start ∨
      splice.stop ≤ other.start ∧ other.start ≠ splice.start := by
  have inOrder := ordered other member
  obtain ⟨sides, different⟩ := apart other member
  omega

/-- What stands in the stretch of the further replacement, and behind it, makes way for its text and
what follows. -/
theorem finish_add_here {replaced : Text} (after : Text)
    (stop_eq : splice.stop = splice.start + replaced.length) :
    finish (splices ++ [splice]) splice.start (replaced ++ after) =
      splice.text ++ finish splices splice.stop after := by
  have nothingHere : ∀ other ∈ splices, other.start ≠ splice.start :=
    fun other member => (apart other member).2
  have put : putAt (splices ++ [splice]) splice.start = splice.text :=
    put_at_add_start nothingHere
  -- an insertion is put down with the character behind it, any other text with the first it takes
  cases replaced with
  | nil =>
      simp only [List.length_nil, Nat.add_zero] at stop_eq
      rw [stop_eq, List.nil_append]
      cases after with
      | nil => simp [finish, walk, put, put_at_eq_nil nothingHere]
      | cons c rest =>
          rw [finish_cons, finish_cons, put, put_at_eq_nil nothingHere, List.nil_append,
            any_covers_add (by omega), finish_add_beyond rest (by omega) (by omega),
            List.append_assoc]
  | cons c rest =>
      simp only [List.length_cons] at stop_eq
      have taken : (splices ++ [splice]).any (·.covers splice.start) = true := by
        rw [List.any_eq_true]
        refine ⟨splice, by simp, ?_⟩
        simp only [covers, Bool.and_eq_true, decide_eq_true_eq]
        omega
      have gone : walk (splices ++ [splice]) (splice.start + 1) rest = [] := by
        apply walk_covered splice (by simp)
        · omega
        · intro place lower upper
          rw [put_at_add_elsewhere (by omega)]
          apply put_at_eq_nil
          intro other member
          have sides := apart_sides ordered apart member
          omega
      have next : splice.start + 1 + rest.length = splice.stop := by omega
      rw [List.cons_append, finish_cons, finish_append, put, taken, gone, next,
        finish_add_beyond after (by omega) (Nat.le_refl _)]
      simp

variable {before replaced : Text} (after : Text)
    (start_eq : splice.start = before.length)
    (stop_eq : splice.stop = (before ++ replaced).length)

include start_eq stop_eq

/-- Without the further replacement its stretch stays as it is. -/
theorem walk_through :
    walk splices 0 (before ++ replaced) = walk splices 0 before ++ replaced := by
  have stays : walk splices (0 + before.length) replaced = replaced := by
    apply walk_untouched
    intro other member
    have sides := apart_sides ordered apart member
    simp only [List.length_append] at stop_eq
    omega
  rw [walk_append, stays]

/-- With the further replacement, only its stretch changes. -/
theorem at_once_add :
    atOnce (splices ++ [splice]) (before ++ replaced ++ after) =
      walk splices 0 before ++ splice.text ++ finish splices splice.stop after := by
  have extent : splice.stop = splice.start + replaced.length := by
    rw [stop_eq, start_eq, List.length_append]
  rw [atOnce, List.append_assoc, finish_append, Nat.zero_add, ← start_eq,
    finish_add_here ordered apart after extent,
    walk_add_outside (Or.inl (by omega)), List.append_assoc]

end Adding

/-! ### The order of the list -/

theorem put_at_perm {left right : List Splice} (perm : left.Perm right)
    (distinct : left.Pairwise fun a b => a.start ≠ b.start) (index : Nat) :
    putAt left index = putAt right index := by
  have filtered := perm.filter (·.start == index)
  have pairwise := distinct.filter (·.start == index)
  have here : ∀ splice ∈ left.filter (·.start == index), splice.start = index := by
    intro splice member
    simpa using (List.mem_filter.mp member).2
  rw [putAt, putAt]
  generalize left.filter (·.start == index) = found at filtered pairwise here ⊢
  match found with
  | [] => rw [List.nil_perm.mp filtered]
  | [only] => rw [List.singleton_perm.mp filtered]
  | first :: second :: rest =>
      have sameStart : first.start = second.start := by
        rw [here first (by simp), here second (by simp)]
      exact absurd sameStart ((List.pairwise_cons.mp pairwise).1 second (by simp))

/-- When no two replacements start at the same place, their order does not matter. -/
theorem at_once_perm {left right : List Splice} (perm : left.Perm right)
    (distinct : left.Pairwise fun a b => a.start ≠ b.start) (text : Text) :
    atOnce left text = atOnce right text := by
  have sameWalk : walk left 0 text = walk right 0 text := by
    apply walk_congr
    · intro place _ _
      exact put_at_perm perm distinct place
    · intro place _ _
      exact perm.any_eq
  rw [atOnce, atOnce, finish, finish, sameWalk, put_at_perm perm distinct]

end Splice
end PhpNames
