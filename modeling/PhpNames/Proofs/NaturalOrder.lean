import Mathlib.Algebra.Group.Nat.Defs
import Mathlib.Data.List.Lex
import Mathlib.Data.List.SplitBy
import Mathlib.Data.Sum.Order
import Mathlib.Order.Compare
import PhpNames.Proofs.PolicyOrder

/-!
Natural order is the order of numbers.

A text falls into runs of digits and runs of other characters in one way only. With a digit run read
as the number that it writes, and any other run as its code points, the natural order of two texts
is the lexicographic order of their runs, numbers first. Two texts are level exactly if they differ
in leading zeros at most.
-/

namespace PhpNames

open Std

section Lexicographic

variable {α β : Type} [LT β] {order : α → α → Ordering} {key : α → β}

/-- What compares things by a key compares lists of them by their lists of keys. -/
theorem compares_compare_lex {left right : List α}
    (byKey : ∀ upper ∈ left, ∀ lower ∈ right,
      (order upper lower).Compares (key upper) (key lower)) :
    (List.compareLex order left right).Compares (left.map key) (right.map key) := by
  induction left generalizing right with
  | nil =>
      cases right with
      | nil => exact rfl
      | cons lower right => exact List.nil_lt_cons _ _
  | cons upper left induction =>
      cases right with
      | nil => exact List.nil_lt_cons _ _
      | cons lower right =>
          have first := byKey upper List.mem_cons_self lower List.mem_cons_self
          have rest := induction fun upper inLeft lower inRight =>
            byKey upper (List.mem_cons_of_mem _ inLeft) lower (List.mem_cons_of_mem _ inRight)
          rw [List.compareLex_cons_cons, List.map_cons, List.map_cons]
          cases outcome : order upper lower with
          | lt =>
              rw [outcome] at first
              exact List.cons_lt_cons_iff.mpr (Or.inl first)
          | gt =>
              rw [outcome] at first
              exact List.cons_lt_cons_iff.mpr (Or.inl first)
          | eq =>
              rw [outcome] at first
              change key upper = key lower at first
              rw [Ordering.eq_then, first]
              cases others : List.compareLex order left right with
              | lt =>
                  rw [others] at rest
                  exact List.cons_lt_cons_iff.mpr (Or.inr ⟨rfl, rest⟩)
              | gt =>
                  rw [others] at rest
                  exact List.cons_lt_cons_iff.mpr (Or.inr ⟨rfl, rest⟩)
              | eq =>
                  rw [others] at rest
                  exact congrArg (key lower :: ·) rest

theorem compare_lex_eq_eq_iff {γ : Type} {view : α → γ} {left right : List α}
    (level : ∀ upper ∈ left, ∀ lower ∈ right, order upper lower = .eq ↔ view upper = view lower) :
    List.compareLex order left right = .eq ↔ left.map view = right.map view := by
  induction left generalizing right with
  | nil => cases right <;> simp [List.compareLex_nil_nil, List.compareLex_nil_cons]
  | cons upper left induction =>
      cases right with
      | nil => simp [List.compareLex_cons_nil]
      | cons lower right =>
          have first := level upper List.mem_cons_self lower List.mem_cons_self
          have rest := induction fun upper inLeft lower inRight =>
            level upper (List.mem_cons_of_mem _ inLeft) lower (List.mem_cons_of_mem _ inRight)
          rw [List.compareLex_cons_cons, Ordering.then_eq_eq, first, rest, List.map_cons,
            List.map_cons, List.cons.injEq]

end Lexicographic

theorem compares_compare (left right : Nat) : (compare left right).Compares left right := by
  cases outcome : compare left right with
  | lt => exact Nat.compare_eq_lt.mp outcome
  | eq => exact Nat.compare_eq_eq.mp outcome
  | gt => exact Nat.compare_eq_gt.mp outcome

namespace Text

/-- Texts are in order as the lists of their code points are. -/
theorem compares_order (left right : Text) :
    (order left right).Compares (left.map Char.toNat) (right.map Char.toNat) :=
  compares_compare_lex fun upper _ lower _ => compares_compare upper.toNat lower.toNat

theorem order_eq_eq_iff {left right : Text} : order left right = .eq ↔ left = right := by
  have level : ∀ upper ∈ left, ∀ lower ∈ right,
      compare upper.toNat lower.toNat = .eq ↔ id upper = id lower :=
    fun upper _ lower _ => Nat.compare_eq_eq.trans Char.toNat_inj
  have texts := compare_lex_eq_eq_iff level
  rwa [List.map_id, List.map_id] at texts

end Text

namespace SortPolicy

/-! ### The runs of a text -/

/-- The runs of a text: together they are the text, each holds digits only or no digit, and
neighbours are of different kinds, so that none can be made longer. -/
structure InRuns (text : Text) (pieces : List Text) : Prop where
  joined : pieces.flatten = text
  nonempty : [] ∉ pieces
  alike : ∀ piece ∈ pieces, ∀ a ∈ piece, ∀ b ∈ piece, a.isDigit = b.isDigit
  maximal : pieces.IsChain fun left right => ∀ a ∈ left, ∀ b ∈ right, a.isDigit ≠ b.isDigit

theorem is_chain_same_kind_iff {piece : Text} :
    (piece.IsChain fun a b => (a.isDigit == b.isDigit) = true) ↔
      ∀ a ∈ piece, ∀ b ∈ piece, a.isDigit = b.isDigit := by
  have trans : Trans (fun a b : Char => (a.isDigit == b.isDigit) = true)
      (fun a b : Char => (a.isDigit == b.isDigit) = true)
      (fun a b : Char => (a.isDigit == b.isDigit) = true) := ⟨by grind⟩
  rw [List.isChain_iff_pairwise]
  constructor
  · intro pairwise a inLeft b inRight
    have same : piece.Pairwise fun a b => a.isDigit = b.isDigit := pairwise.imp (by simp)
    have symm : Std.Symm fun a b : Char => a.isDigit = b.isDigit := ⟨fun _ _ same => same.symm⟩
    exact List.Pairwise.forall_of_forall (R := fun a b : Char => a.isDigit = b.isDigit)
      (fun _ _ => rfl) same inLeft inRight
  · intro alike
    apply List.pairwise_of_forall_mem_list
    intro a inLeft b inRight
    exact beq_iff_eq.mpr (alike a inLeft b inRight)

theorem in_runs_iff {text : Text} {pieces : List Text} :
    InRuns text pieces ↔ runs text = pieces := by
  have kinds (nonempty : [] ∉ pieces)
      (alike : ∀ piece ∈ pieces, ∀ a ∈ piece, ∀ b ∈ piece, a.isDigit = b.isDigit) :
      (pieces.IsChain fun left right => ∃ inLeft inRight,
        ((left.getLast inLeft).isDigit == (right.head inRight).isDigit) = false) ↔
          pieces.IsChain fun left right => ∀ a ∈ left, ∀ b ∈ right, a.isDigit ≠ b.isDigit := by
    apply List.IsChain.iff_of_mem_imp
    intro left right leftMember rightMember
    have inLeft : left ≠ [] := ne_of_mem_of_not_mem leftMember nonempty
    have inRight : right ≠ [] := ne_of_mem_of_not_mem rightMember nonempty
    constructor
    · rintro ⟨_, _, differ⟩ a aMember b bMember
      rw [alike left leftMember a aMember _ (List.getLast_mem inLeft),
        alike right rightMember b bMember _ (List.head_mem inRight)]
      exact beq_eq_false_iff_ne.mp differ
    · intro differ
      exact ⟨inLeft, inRight, beq_eq_false_iff_ne.mpr
        (differ _ (List.getLast_mem inLeft) _ (List.head_mem inRight))⟩
  rw [runs, List.splitBy_eq_iff]
  simp only [is_chain_same_kind_iff]
  constructor
  · rintro ⟨joined, nonempty, alike, maximal⟩
    exact ⟨joined.symm, nonempty, alike, (kinds nonempty alike).mpr maximal⟩
  · rintro ⟨joined, nonempty, alike, maximal⟩
    exact ⟨joined.symm, nonempty, alike, (kinds nonempty alike).mp maximal⟩

instance {text : Text} {pieces : List Text} : Decidable (InRuns text pieces) :=
  decidable_of_iff _ in_runs_iff.symm

/-! ### Numbers -/

def number (run : Text) : Nat :=
  Nat.ofDigitChars 10 run 0

def digit (c : Char) : Nat :=
  c.toNat - '0'.toNat

theorem number_cons (c : Char) (run : Text) :
    number (c :: run) = 10 ^ run.length * digit c + number run := by
  rw [number, Nat.ofDigitChars_cons, Nat.ofDigitChars_eq_ofDigitChars_zero, Nat.mul_zero,
    Nat.zero_add]
  rfl

theorem is_number_cons {c : Char} {run : Text} :
    isNumber (c :: run) = true ↔ c.isDigit = true ∧ isNumber run = true := by
  rw [isNumber, List.all_cons, Bool.and_eq_true, isNumber]

theorem to_nat_eq_of_is_digit {c : Char} (isDigit : c.isDigit = true) :
    c.toNat = '0'.toNat + digit c ∧ digit c < 10 := by
  have range := Char.isDigit_iff_toNat.mp isDigit
  have nine : '9'.toNat = '0'.toNat + 9 := rfl
  rw [digit]
  omega

theorem digit_pos {c : Char} (isDigit : c.isDigit = true) (nonzero : c ≠ '0') : 0 < digit c := by
  have value := (to_nat_eq_of_is_digit isDigit).1
  by_contra zero
  apply nonzero
  rw [← Char.toNat_inj]
  omega

theorem number_lt {run : Text} (digits : isNumber run = true) : number run < 10 ^ run.length := by
  induction run with
  | nil => decide
  | cons c run induction =>
      obtain ⟨isDigit, digits⟩ := is_number_cons.mp digits
      have rest := induction digits
      have bound : 10 ^ run.length * digit c ≤ 10 ^ run.length * 9 :=
        Nat.mul_le_mul_left _ (Nat.le_of_lt_succ (to_nat_eq_of_is_digit isDigit).2)
      rw [number_cons, List.length_cons, Nat.pow_succ]
      omega

/-- Numbers that are written with a higher and a lower part compare by the higher part first. -/
theorem compare_place {base upper lower left right : Nat} (leftBound : left < base)
    (rightBound : right < base) :
    compare (base * upper + left) (base * lower + right) =
      (compare upper lower).then (compare left right) := by
  cases outcome : compare upper lower with
  | lt =>
      have next : base * (upper + 1) ≤ base * lower :=
        Nat.mul_le_mul_left base (Nat.compare_eq_lt.mp outcome)
      rw [Nat.mul_succ] at next
      exact Nat.compare_eq_lt.mpr (by omega)
  | gt =>
      have next : base * (lower + 1) ≤ base * upper :=
        Nat.mul_le_mul_left base (Nat.compare_eq_gt.mp outcome)
      rw [Nat.mul_succ] at next
      exact Nat.compare_eq_gt.mpr (by omega)
  | eq =>
      rw [Nat.compare_eq_eq.mp outcome, Ordering.eq_then]
      simp only [Nat.compare_eq_ite_lt, Nat.add_lt_add_iff_left]

/-- Digit runs of one length are in order as their numbers are. -/
theorem order_eq_compare_number {left right : Text} (leftDigits : isNumber left = true)
    (rightDigits : isNumber right = true) (length_eq : left.length = right.length) :
    Text.order left right = compare (number left) (number right) := by
  induction left generalizing right with
  | nil =>
      rw [List.eq_nil_of_length_eq_zero length_eq.symm]
      rfl
  | cons c left induction =>
      cases right with
      | nil => cases length_eq
      | cons d right =>
          obtain ⟨isDigit, leftDigits⟩ := is_number_cons.mp leftDigits
          obtain ⟨isDigit', rightDigits⟩ := is_number_cons.mp rightDigits
          have length_eq : left.length = right.length := Nat.succ.inj length_eq
          have rest := induction leftDigits rightDigits length_eq
          have first : compare c.toNat d.toNat = compare (digit c) (digit d) := by
            rw [(to_nat_eq_of_is_digit isDigit).1, (to_nat_eq_of_is_digit isDigit').1]
            simp only [Nat.compare_eq_ite_lt, Nat.add_lt_add_iff_left]
          have bound := number_lt leftDigits
          rw [length_eq] at bound
          rw [number_cons, number_cons, length_eq, compare_place bound (number_lt rightDigits),
            ← first, ← rest]
          exact List.compareLex_cons_cons

theorem number_drop_leading (run : Text) : number (Text.dropLeading '0' run) = number run := by
  induction run with
  | nil => rfl
  | cons c run induction =>
      rw [Text.dropLeading, List.dropWhile_cons]
      split
      · rename_i zero
        rw [beq_iff_eq.mp zero, number_cons]
        change number (Text.dropLeading '0' run) = 10 ^ run.length * 0 + number run
        rw [induction, Nat.mul_zero, Nat.zero_add]
      · rfl

theorem is_number_drop_leading {run : Text} (digits : isNumber run = true) :
    isNumber (Text.dropLeading '0' run) = true := by
  rw [isNumber, List.all_eq_true] at digits ⊢
  intro c member
  exact digits c ((List.dropWhile_suffix _).mem member)

/-- Without leading zeros the longer run writes the larger number. -/
theorem number_lt_of_shorter {left right : Text} (leftDigits : isNumber left = true)
    (rightDigits : isNumber right = true) (noZero : right.head? ≠ some '0')
    (shorter : left.length < right.length) : number left < number right := by
  cases right with
  | nil => cases shorter
  | cons c right =>
      have nonzero : c ≠ '0' := fun same => noZero (congrArg some same)
      have positive := digit_pos (is_number_cons.mp rightDigits).1 nonzero
      calc number left < 10 ^ left.length := number_lt leftDigits
        _ ≤ 10 ^ right.length := Nat.pow_le_pow_right (by decide) (Nat.le_of_lt_succ shorter)
        _ ≤ 10 ^ right.length * digit c := Nat.le_mul_of_pos_right _ positive
        _ ≤ number (c :: right) := by
            rw [number_cons]
            exact Nat.le_add_right _ _

/-- Digit runs are ordered by value, whatever their length. -/
theorem number_order_eq_compare {left right : Text} (leftDigits : isNumber left = true)
    (rightDigits : isNumber right = true) :
    numberOrder left right = compare (number left) (number right) := by
  have leftDigits := is_number_drop_leading leftDigits
  have rightDigits := is_number_drop_leading rightDigits
  rw [← number_drop_leading left, ← number_drop_leading right, numberOrder]
  generalize noZeroLeft : Text.dropLeading '0' left = leftRest at *
  generalize noZeroRight : Text.dropLeading '0' right = rightRest at *
  cases outcome : compare leftRest.length rightRest.length with
  | lt =>
      apply Eq.symm
      apply Nat.compare_eq_lt.mpr
      apply number_lt_of_shorter leftDigits rightDigits _ (Nat.compare_eq_lt.mp outcome)
      rw [← noZeroRight]
      exact Text.head?_drop_leading '0' right
  | gt =>
      apply Eq.symm
      apply Nat.compare_eq_gt.mpr
      apply number_lt_of_shorter rightDigits leftDigits _ (Nat.compare_eq_gt.mp outcome)
      rw [← noZeroLeft]
      exact Text.head?_drop_leading '0' left
  | eq => exact order_eq_compare_number leftDigits rightDigits (Nat.compare_eq_eq.mp outcome)

/-! ### Runs by what they write -/

/-- What a run counts for: the number it writes, or its code points. Numbers come first. -/
def runKey (run : Text) : Lex (Nat ⊕ List Nat) :=
  toLex (if isNumber run then .inl (number run) else .inr (run.map Char.toNat))

theorem compares_run_order (left right : Text) :
    (runOrder left right).Compares (runKey left) (runKey right) := by
  rw [runOrder, runKey, runKey]
  cases leftDigits : isNumber left <;> cases rightDigits : isNumber right
  · have byCode := Text.compares_order left right
    change (Text.order left right).Compares (toLex (Sum.inr (left.map Char.toNat)))
      (toLex (Sum.inr (right.map Char.toNat)))
    cases outcome : Text.order left right <;> rw [outcome] at byCode
    · exact Sum.Lex.inr_lt_inr_iff.mpr byCode
    · exact congrArg (toLex ∘ Sum.inr) byCode
    · exact Sum.Lex.inr_lt_inr_iff.mpr byCode
  · exact Sum.Lex.inl_lt_inr _ _
  · exact Sum.Lex.inl_lt_inr _ _
  · have byValue := compares_compare (number left) (number right)
    rw [← number_order_eq_compare leftDigits rightDigits] at byValue
    change (numberOrder left right).Compares (toLex (Sum.inl (number left)))
      (toLex (Sum.inl (number right)))
    cases outcome : numberOrder left right <;> rw [outcome] at byValue
    · exact Sum.Lex.inl_lt_inl_iff.mpr byValue
    · exact congrArg (toLex ∘ Sum.inl) byValue
    · exact Sum.Lex.inl_lt_inl_iff.mpr byValue

/-- A digit run without its leading zeros, or one zero if there is nothing else. Other runs stay as
they are. -/
def withoutZeros (run : Text) : Text :=
  if isNumber run then
    if Text.dropLeading '0' run = [] then ['0'] else Text.dropLeading '0' run
  else run

theorem without_zeros_ne_nil {run : Text} (nonempty : run ≠ []) : withoutZeros run ≠ [] := by
  unfold withoutZeros
  split
  · split
    · exact List.cons_ne_nil _ _
    · assumption
  · exact nonempty

theorem kind_without_zeros {run : Text} (nonempty : run ≠ []) {c : Char}
    (member : c ∈ withoutZeros run) : ∃ d ∈ run, c.isDigit = d.isDigit := by
  unfold withoutZeros at member
  split at member
  · rename_i digits
    split at member
    · obtain ⟨d, inRun⟩ := List.exists_mem_of_ne_nil run nonempty
      rw [isNumber, List.all_eq_true] at digits
      rw [List.mem_singleton.mp member]
      exact ⟨d, inRun, (digits d inRun).symm⟩
    · exact ⟨c, (List.dropWhile_suffix _).mem member, rfl⟩
  · exact ⟨c, member, rfl⟩

theorem is_number_without_zeros (run : Text) : isNumber (withoutZeros run) = isNumber run := by
  unfold withoutZeros
  split
  · rename_i digits
    split
    · rw [digits]
      rfl
    · rw [digits, is_number_drop_leading digits]
  · rfl

theorem number_order_eq_eq_iff {left right : Text} :
    numberOrder left right = .eq ↔ Text.dropLeading '0' left = Text.dropLeading '0' right := by
  rw [numberOrder, Ordering.then_eq_eq, Text.order_eq_eq_iff, Nat.compare_eq_eq]
  exact ⟨fun both => both.2, fun same => ⟨congrArg List.length same, same⟩⟩

theorem run_order_eq_eq_iff (left right : Text) :
    runOrder left right = .eq ↔ withoutZeros left = withoutZeros right := by
  have kindLeft := is_number_without_zeros left
  have kindRight := is_number_without_zeros right
  cases leftDigits : isNumber left <;> cases rightDigits : isNumber right <;>
    simp only [runOrder, leftDigits, rightDigits]
  · rw [Text.order_eq_eq_iff, withoutZeros, withoutZeros, leftDigits, rightDigits]
    rfl
  · refine ⟨nofun, fun same => ?_⟩
    rw [same, kindRight, leftDigits, rightDigits] at kindLeft
    cases kindLeft
  · refine ⟨nofun, fun same => ?_⟩
    rw [same, kindRight, leftDigits, rightDigits] at kindLeft
    cases kindLeft
  · rw [number_order_eq_eq_iff, withoutZeros, withoutZeros, if_pos leftDigits, if_pos rightDigits]
    have frontLeft := Text.head?_drop_leading '0' left
    have frontRight := Text.head?_drop_leading '0' right
    -- a lone zero stands for no digit at all, which is no other run without leading zeros
    by_cases noneLeft : Text.dropLeading '0' left = [] <;>
      by_cases noneRight : Text.dropLeading '0' right = [] <;>
        grind

/-- Taking out the zeros keeps the runs apart. -/
theorem InRuns.without_zeros {text : Text} {pieces : List Text} (inRuns : InRuns text pieces) :
    InRuns (pieces.map withoutZeros).flatten (pieces.map withoutZeros) where
  joined := rfl
  nonempty := by
    intro member
    obtain ⟨piece, inPieces, empty⟩ := List.mem_map.mp member
    exact without_zeros_ne_nil (ne_of_mem_of_not_mem inPieces inRuns.nonempty) empty
  alike := by
    intro piece member a aMember b bMember
    obtain ⟨old, inPieces, rfl⟩ := List.mem_map.mp member
    have nonempty : old ≠ [] := ne_of_mem_of_not_mem inPieces inRuns.nonempty
    obtain ⟨a', aInOld, aKind⟩ := kind_without_zeros nonempty aMember
    obtain ⟨b', bInOld, bKind⟩ := kind_without_zeros nonempty bMember
    rw [aKind, bKind, inRuns.alike old inPieces a' aInOld b' bInOld]
  maximal := by
    rw [List.isChain_map]
    apply inRuns.maximal.imp_of_mem_imp
    intro left right leftMember rightMember differ a aMember b bMember
    obtain ⟨a', aInOld, aKind⟩ :=
      kind_without_zeros (ne_of_mem_of_not_mem leftMember inRuns.nonempty) aMember
    obtain ⟨b', bInOld, bKind⟩ :=
      kind_without_zeros (ne_of_mem_of_not_mem rightMember inRuns.nonempty) bMember
    rw [aKind, bKind]
    exact differ a' aInOld b' bInOld

section Pieces

variable {left right : Text} {leftRuns rightRuns : List Text}
  (leftInRuns : InRuns left leftRuns) (rightInRuns : InRuns right rightRuns)

include leftInRuns rightInRuns

theorem natural_order_eq_compare_lex :
    naturalOrder left right = List.compareLex runOrder leftRuns rightRuns := by
  rw [naturalOrder, in_runs_iff.mp leftInRuns, in_runs_iff.mp rightInRuns]

theorem natural_order_eq_eq_iff :
    naturalOrder left right = .eq ↔
      (leftRuns.map withoutZeros).flatten = (rightRuns.map withoutZeros).flatten := by
  rw [natural_order_eq_compare_lex leftInRuns rightInRuns,
    compare_lex_eq_eq_iff fun upper _ lower _ => run_order_eq_eq_iff upper lower]
  constructor
  · exact congrArg List.flatten
  · intro same
    have leftPieces := in_runs_iff.mp leftInRuns.without_zeros
    rw [same, in_runs_iff.mp rightInRuns.without_zeros] at leftPieces
    exact leftPieces.symm

end Pieces

/-- Every policy preorders the texts totally, and natural order is the order by value of the runs
into which a text falls. -/
theorem order_total_and_natural_by_value :
    (∀ (policy : SortPolicy) (first second third : Text),
      policy.order first first = .eq ∧
        policy.order second first = (policy.order first second).swap ∧
        (policy.order first second ≠ .gt → policy.order second third ≠ .gt →
          policy.order first third ≠ .gt)) ∧
      (∀ text, ∃! pieces, InRuns text pieces) ∧
      ∀ (left right : Text) (leftRuns rightRuns : List Text),
        InRuns left leftRuns → InRuns right rightRuns →
          (naturalOrder left right).Compares (leftRuns.map runKey) (rightRuns.map runKey) ∧
            (naturalOrder left right = .eq ↔
              (leftRuns.map withoutZeros).flatten = (rightRuns.map withoutZeros).flatten) := by
  refine ⟨fun policy first second third => ⟨?_, ?_, ?_⟩, fun text => ?_, ?_⟩
  · exact ReflCmp.compare_self
  · exact OrientedCmp.eq_swap
  · intro upper lower
    rw [Ne, ← Ordering.isLE_iff_ne_gt] at *
    exact TransCmp.isLE_trans upper lower
  · refine ⟨runs text, in_runs_iff.mpr rfl, fun pieces inRuns => ?_⟩
    exact (in_runs_iff.mp inRuns).symm
  · intro left right leftRuns rightRuns leftInRuns rightInRuns
    refine ⟨?_, natural_order_eq_eq_iff leftInRuns rightInRuns⟩
    rw [natural_order_eq_compare_lex leftInRuns rightInRuns]
    exact compares_compare_lex fun upper _ lower _ => compares_run_order upper lower

theorem order_total_and_natural_by_value_padded :
    (order (.natural .descending) "B10".toList "B007".toList ≠ .gt ∧
      order (.natural .descending) "B007".toList "B7".toList ≠ .gt ∧
      order (.natural .descending) "B10".toList "B7".toList ≠ .gt) ∧
    (InRuns "B007c".toList ["B".toList, "007".toList, "c".toList] ∧
      InRuns "B10".toList ["B".toList, "10".toList] ∧
      InRuns "B7c".toList ["B".toList, "7".toList, "c".toList]) ∧
    (naturalOrder "B007c".toList "B10".toList).Compares
      (["B".toList, "007".toList, "c".toList].map runKey) (["B".toList, "10".toList].map runKey) ∧
    (naturalOrder "B007c".toList "B7c".toList = .eq ↔
      (["B".toList, "007".toList, "c".toList].map withoutZeros).flatten =
        (["B".toList, "7".toList, "c".toList].map withoutZeros).flatten) := by
  obtain ⟨preorder, -, byRuns⟩ := order_total_and_natural_by_value
  have long : InRuns "B007c".toList ["B".toList, "007".toList, "c".toList] := by decide
  have ten : InRuns "B10".toList ["B".toList, "10".toList] := by decide
  have short : InRuns "B7c".toList ["B".toList, "7".toList, "c".toList] := by decide
  have upper : order (.natural .descending) "B10".toList "B007".toList ≠ .gt := by decide
  have lower : order (.natural .descending) "B007".toList "B7".toList ≠ .gt := by decide
  exact ⟨⟨upper, lower, (preorder _ _ _ _).2.2 upper lower⟩, ⟨long, ten, short⟩,
    (byRuns _ _ _ _ long ten).1, (byRuns _ _ _ _ long short).2⟩

end SortPolicy
end PhpNames
