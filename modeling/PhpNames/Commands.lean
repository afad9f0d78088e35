import PhpNames.Candidates
import PhpNames.Derivation
import PhpNames.Editor
import PhpNames.Import
import PhpNames.Manifest
import PhpNames.References
import PhpNames.Sorting
import PhpNames.Uri.FilePath
import PhpNames.Word

/-!
The commands: import, import all, expand, sort, and write the namespace.

Every command reads the document anew, plans its edits and hands them to the editor. What goes wrong
is shown to the user where the command was started.
-/

namespace PhpNames

inductive Outcome where
  | done
  | cancelled
  deriving DecidableEq, Repr

namespace Commands

open MonadEditor

variable {m : Type → Type} [Monad m] [MonadEditor m]

/-! ### Messages -/

/-- What comes after an icon marker, given what follows its opening: at least one character on the
line, the closing parenthesis, and two blanks. -/
def afterIcon? : Text → Option Text
  | [] => none
  | c :: rest =>
      if c = '\n' then none
      else
        match rest with
        | ')' :: a :: b :: after =>
            if Text.isBlank a && Text.isBlank b then some after else afterIcon? rest
        | _ => afterIcon? rest

def withoutIcon : Text → Text
  | [] => []
  | c :: rest =>
      match ("$(".toList.isPrefixOf? (c :: rest)).bind afterIcon? with
      | some after => after
      | none => c :: withoutIcon rest

def messageHeading : Text := "PHP Namespace Resolver: ".toList

/-- Shows a message in the status bar, or as a notification without its icon. -/
def showMessage (message : Text) (isError : Bool) : m Unit := do
  if (← settings).showMessageOnStatusBar then showStatus message
  else notify (messageHeading ++ withoutIcon message) isError

def reportError (error : ResolveError) : m Unit :=
  showMessage error.message true

def importedMessage : Text := "$(check)  The class is imported.".toList

def sortedMessage : Text := "$(check)  Imports are sorted.".toList

def aliasPlaceholder : Text := "Enter an alias or leave it empty to replace".toList

/-! ### Steps of commands -/

def linesOf (uri : Text) : ExceptT ResolveError m (List Text) := do
  match ← (documentLines uri : m _) with
  | some lines => return lines
  | none => throw .noSelection

def wordAt (uri : Text) (position : Position) : ExceptT ResolveError m Word := do
  match Word.at? (← linesOf uri) position with
  | some word => return word
  | none => throw .noSelection

def submit (uri : Text) (edits : List Edit) : ExceptT ResolveError m Unit := do
  if !(← (applyEdits uri edits : m _)) then throw .editRejected

def openAll : List Path → m (List (List Text))
  | [] => return []
  | path :: rest => do
      match ← openFile path with
      | some lines => return lines :: (← openAll rest)
      | none => openAll rest

def findCandidates (name : Text) : ExceptT ResolveError m Candidates := do
  let files ← (candidateFiles name : m _)
  let documents ← (openAll (files.filter (Candidates.isNamedAfter · name)) : m _)
  match Candidates.resolve name documents with
  | .ok candidates => return candidates
  | .error error => throw error

def pickName (candidates : Candidates) : m (Option Text) :=
  match candidates.single? with
  | some only => return some only
  | none => chooseName candidates.names

/-! ### Sorting -/

def sortImports (uri : Text) : ExceptT ResolveError m Unit := do
  let block ← Block.scan (← linesOf uri) none
  let sorted ← UseStatement.sort (← (settings : m _)).sortPolicy block.uses
  if sorted ≠ block.uses then submit uri (UseStatement.sortEdits block.uses sorted)

/-- Sorts after an import, if the settings ask for it. Having nothing to sort is no error then. -/
def autoSort (uri : Text) : ExceptT ResolveError m Unit := do
  if (← (settings : m _)).autoSort then
    tryCatch (sortImports uri) fun error =>
      if error = .nothingToSort then return () else throw error

def sortCommand (uri : Text) : m Unit := do
  match ← (sortImports uri : ExceptT ResolveError m Unit).run with
  | .ok () => showMessage sortedMessage false
  | .error error => reportError error

/-! ### Importing -/

def finishImport (uri : Text) : ExceptT ResolveError m Unit := do
  autoSort uri
  (showMessage importedMessage false : m Unit)

def selectionEdit (selection : Option Range) (text : Text) : List Edit :=
  selection.toList.map fun range => ⟨range, text⟩

/-- Asks for another name until the answer decides. `attempts` bounds the questions. -/
def importWithAlias (uri : Text) (selection : Option Range) (name : Text) (block : Block) :
    Nat → ExceptT ResolveError m Outcome
  | 0 => return .cancelled
  | attempts + 1 => do
      match AliasDecision.of (← (askText aliasPlaceholder : m _)) block.uses with
      | .cancel => return .cancelled
      | .conflict otherName =>
          (reportError (.aliasConflict otherName) : m Unit)
          importWithAlias uri selection name block attempts
      | .replaceExisting =>
          match UseStatement.replaceEdit? name block.uses with
          | some edit => submit uri [edit]
          | none => pure ()
          autoSort uri
          return .done
      | .useAlias otherName =>
          submit uri
            (selectionEdit selection otherName ++
              [UseStatement.insertEdit name (some otherName) block.declarations])
          finishImport uri
          return .done

/-- Imports a class. A selection that names it in full is shortened if `replaceSelection` says so.
-/
def importClass (uri : Text) (selection : Option Range) (name : Text) (replaceSelection : Bool) :
    ExceptT ResolveError m Outcome := do
  let block ← Block.scan (← linesOf uri) (some name)
  match ImportPlan.of name replaceSelection block.uses with
  | .insert =>
      submit uri [UseStatement.insertEdit name none block.declarations]
      finishImport uri
      return .done
  | .shortenThenInsert base =>
      submit uri
        (selectionEdit selection base ++ [UseStatement.insertEdit name none block.declarations])
      finishImport uri
      return .done
  | .aliasOrReplace => importWithAlias uri selection name block (← (patience : m Nat))

/-- Imports what a name stands for: a name with a separator is already full, any other is looked
up. -/
def importName (uri : Text) (selection : Option Range) (name : Text) :
    ExceptT ResolveError m Outcome := do
  if name.contains '\\' then
    importClass uri selection (if name.head? = some '\\' then name.tail else name) true
  else
    match ← (pickName (← findCandidates name) : m _) with
    | none => return .cancelled
    | some full => importClass uri selection full false

def importAt (uri : Text) (position : Position) : ExceptT ResolveError m Outcome := do
  let word ← wordAt uri position
  importName uri (some (word.range position.line)) word.text

/-! ### Expanding -/

def expandAt (uri : Text) (position : Position) : ExceptT ResolveError m Outcome := do
  let word ← wordAt uri position
  match ← (pickName (← findCandidates word.text) : m _) with
  | none => return .cancelled
  | some full =>
      let separator := if (← (settings : m _)).leadingSeparator then ['\\'] else []
      submit uri [⟨word.range position.line, separator ++ full⟩]
      return .done

/-! ### Several cursors, several classes -/

/-- Runs a command at each cursor. A cursor that waits is moved through the batches `noted` that
were accepted before its turn, so that it keeps pointing at the same word. -/
def atEach (command : Position → ExceptT ResolveError (Noting m) Outcome)
    (noted : List (List Edit)) : List Position → m Unit
  | [] => return ()
  | position :: rest => do
      let (outcome, more) ← ((command (position.shiftAll noted)).run).run []
      match outcome with
      | .ok .done => atEach command (noted ++ more) rest
      | .ok .cancelled => return ()
      | .error error =>
          reportError error
          atEach command (noted ++ more) rest

/-- Runs a command at each cursor; without a cursor nothing is selected. -/
def atCursors (command : Position → ExceptT ResolveError (Noting m) Outcome)
    (positions : List Position) : m Unit :=
  if positions.isEmpty then reportError .noSelection else atEach command [] positions

def importSelections (uri : Text) (positions : List Position) : m Unit :=
  atCursors (importAt uri) positions

def expandSelections (uri : Text) (positions : List Position) : m Unit :=
  atCursors (expandAt uri) positions

def importEach (uri : Text) : List Text → m Unit
  | [] => return ()
  | name :: rest => do
      match ← (importName uri none name : ExceptT ResolveError m Outcome).run with
      | .ok .done => importEach uri rest
      | .ok .cancelled => return ()
      | .error error =>
          reportError error
          importEach uri rest

/-- Imports every class that the document refers to and does not import yet. -/
def importAll (uri : Text) : m Unit := do
  match ← documentLines uri with
  | none => reportError .noSelection
  | some lines =>
      let imported := References.imported lines
      importEach uri ((References.all (Text.joinLines lines)).filter (!imported.contains ·))

/-! ### The namespace -/

def findManifest : List Path → m (Option (Path × Text))
  | [] => return none
  | directory :: rest => do
      match ← openFile (directory.child (Text.utf8 Manifest.fileName)) with
      | some lines => return some (directory, Text.joinLines lines)
      | none => findManifest rest

/-- Makes the document declare the namespace that its place in the project asks for. -/
def generateNamespace (uri : Text) : ExceptT ResolveError m Unit := do
  let some root ← (workspaceRoot : m _) | throw .noWorkspaceFolder
  let some file := Uri.toPath? uri | throw .manifestNotFound
  let directories ← Derivation.manifestDirectories file root
  let some (project, text) ← (findManifest directories : m _) | throw .manifestNotFound
  let map ← Manifest.autoloadMap text
  let name ← Derivation.derive file project map
  let lines ← linesOf uri
  let block ← Block.scan lines none
  submit uri [NamespaceStatement.edit name lines block.declarations]

def generateNamespaceCommand (uri : Text) : m Unit := do
  match ← (generateNamespace uri : ExceptT ResolveError m Unit).run with
  | .ok () => return ()
  | .error error => reportError error

end Commands
end PhpNames
