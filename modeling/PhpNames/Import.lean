import PhpNames.Declarations
import PhpNames.Edit

/-!
Planning of an import: what has to happen, where the `use` line goes and what it looks like.
-/

namespace PhpNames

inductive ImportPlan where
  /-- Its `use` line is added. -/
  | insert
  /-- The selected name is shortened to `base`, and the `use` line is added. -/
  | shortenThenInsert (base : Text)
  /-- The short name is taken: another name is needed, or the other import has to go. -/
  | aliasOrReplace
  deriving DecidableEq, Repr

def ImportPlan.of (name : Text) (replaceSelection : Bool) (uses : List UseStatement) : ImportPlan :=
  if UseStatement.takes uses (baseName name) then .aliasOrReplace
  else if replaceSelection then .shortenThenInsert (baseName name)
  else .insert

/-- The line that a new `use` statement goes to, and what surrounds it. -/
structure InsertionPoint where
  line : Nat
  before : Text
  after : Text
  deriving DecidableEq, Repr

namespace InsertionPoint

/-- Whether the first type declaration stands directly below one of the constructs above it, or
above it. A construct that is absent counts as standing on line zero. -/
def isCrowded (found : Declarations) : Bool :=
  found.firstType.any fun typeLine =>
    [found.lastUse, found.namespaceLine, found.openingTag].any fun above =>
      decide (typeLine ≤ above.getD 0 + 1)

/-- Below the last `use` statement, else below the namespace, else below the opening tag; in the
latter two cases after an empty line. A type declaration that would follow directly is kept apart by
an empty line. -/
def of (found : Declarations) : InsertionPoint :=
  let after := if isCrowded found then ['\n', '\n'] else ['\n']
  match found.lastUse, found.namespaceLine, found.openingTag with
  | some line, _, _ => ⟨line, [], after⟩
  | none, some line, _ => ⟨line, ['\n'], after⟩
  | none, none, some line => ⟨line, ['\n'], after⟩
  | none, none, none => ⟨0, [], after⟩

end InsertionPoint

namespace UseStatement

def lineFor (name : Text) (otherName : Option Text) : Text :=
  match otherName with
  | some otherName => importingAs name otherName
  | none => importing name

def insertEdit (name : Text) (otherName : Option Text) (found : Declarations) : Edit :=
  let point := InsertionPoint.of found
  Edit.insert ⟨point.line, 0⟩ (point.before ++ lineFor name otherName ++ point.after)

/-- The edit that makes the first statement with the short name of a class import that class. -/
def replaceEdit? (name : Text) (uses : List UseStatement) : Option Edit := do
  let taken ← uses.find? (·.shortName? == some (baseName name))
  return Edit.replaceLine taken.line taken.text (importing name)

end UseStatement

inductive AliasDecision where
  | cancel
  | conflict (name : Text)
  | replaceExisting
  | useAlias (name : Text)
  deriving DecidableEq, Repr

def AliasDecision.of (answer : Option Text) (uses : List UseStatement) : AliasDecision :=
  match answer with
  | none => .cancel
  | some name =>
      if name.isEmpty then .replaceExisting
      else if UseStatement.takes uses name then .conflict name
      else .useAlias name

theorem AliasDecision.free_of_use_alias {answer : Option Text} {uses : List UseStatement}
    {name : Text} (decided : AliasDecision.of answer uses = .useAlias name) :
    answer = some name ∧ name ≠ [] ∧ UseStatement.takes uses name = false := by
  unfold AliasDecision.of at decided
  split at decided
  · cases decided
  · split at decided
    · cases decided
    · rename_i named
      split at decided
      · cases decided
      · rename_i free
        cases decided
        rw [List.isEmpty_iff] at named
        exact ⟨rfl, named, Bool.eq_false_iff.mpr free⟩

end PhpNames
