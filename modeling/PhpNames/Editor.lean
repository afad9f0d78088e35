import PhpNames.Document
import PhpNames.Path
import PhpNames.Settings

/-!
The editor as commands see it.
-/

namespace PhpNames

/-- What a command can ask of an editor. -/
class MonadEditor (m : Type → Type) where
  settings : m Settings
  workspaceRoot : m (Option Path)
  /-- The lines of a document that is being edited. -/
  documentLines (uri : Text) : m (Option (List Text))
  /-- The files in the workspace that may declare a class. -/
  candidateFiles (name : Text) : m (List Path)
  /-- The lines of any file. -/
  openFile (path : Path) : m (Option (List Text))
  /-- Lets the user pick a name. The answer is absent when the user declines. -/
  chooseName (options : List Text) : m (Option Text)
  /-- Lets the user type a text. The answer is absent when the user declines. -/
  askText (placeholder : Text) : m (Option Text)
  /-- A bound on the number of texts that the user is still ready to type. -/
  patience : m Nat
  /-- Carries out a batch of edits, unless it is refused. -/
  applyEdits (uri : Text) (edits : List Edit) : m Bool
  notify (message : Text) (isError : Bool) : m Unit
  showStatus (message : Text) : m Unit

/-- An editor whose accepted batches are noted, in order. -/
abbrev Noting (m : Type → Type) := StateT (List (List Edit)) m

instance {m : Type → Type} [Monad m] [MonadEditor m] : MonadEditor (Noting m) where
  settings := StateT.lift MonadEditor.settings
  workspaceRoot := StateT.lift MonadEditor.workspaceRoot
  documentLines uri := StateT.lift (MonadEditor.documentLines uri)
  candidateFiles name := StateT.lift (MonadEditor.candidateFiles name)
  openFile path := StateT.lift (MonadEditor.openFile path)
  chooseName options := StateT.lift (MonadEditor.chooseName options)
  askText placeholder := StateT.lift (MonadEditor.askText placeholder)
  patience := StateT.lift MonadEditor.patience
  applyEdits uri edits := do
    let accepted ← StateT.lift (MonadEditor.applyEdits uri edits)
    if accepted then modify (· ++ [edits])
    return accepted
  notify message isError := StateT.lift (MonadEditor.notify message isError)
  showStatus message := StateT.lift (MonadEditor.showStatus message)

end PhpNames
