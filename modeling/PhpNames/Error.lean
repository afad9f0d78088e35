import PhpNames.Text.Quoted

/-!
What can go wrong, and the message shown for it. A leading `$(icon)` with two spaces is a marker
that status bars draw; notifications go without it.
-/

namespace PhpNames

inductive ManifestFault where
  /-- The text is not a manifest at all. -/
  | unreadable
  /-- The directories of a namespace are neither a string nor a list of strings. -/
  | directories (namespaceName : Text)
  deriving DecidableEq, Repr

inductive ResolveError where
  | noSelection
  | classNotFound (name : Text)
  | alreadyImported (name : Text)
  | nothingToSort
  | aliasConflict (name : Text)
  | noWorkspaceFolder
  | manifestNotFound
  | noAutoloadConfig
  | noAutoloadEntry
  | noMatchingEntry (directory : Text)
  | invalidManifest (fault : ManifestFault)
  | editRejected
  deriving DecidableEq, Repr

def ManifestFault.message : ManifestFault → Text
  | .unreadable => "the text is not a manifest".toList
  | .directories namespaceName =>
      "psr-4 entry ".toList ++ Text.quoted namespaceName ++
        ": data did not match any variant of untagged enum Psr4Value".toList

def ResolveError.message : ResolveError → Text
  | .noSelection => "No class is selected.".toList
  | .classNotFound _ => "$(circle-slash)  The class is not found.".toList
  | .alreadyImported _ => "The class is already imported.".toList
  | .nothingToSort => "Nothing to sort.".toList
  | .aliasConflict _ => "This alias is already in use.".toList
  | .noWorkspaceFolder => "No folder opened in workspace, cannot find composer.json".toList
  | .manifestNotFound =>
      "No composer.json file found, automatic namespace generation failed".toList
  | .noAutoloadConfig =>
      "No autoload object in composer.json, automatic namespace generation failed".toList
  | .noAutoloadEntry =>
      "No psr-4 key in composer.json autoload object, automatic namespace generation failed".toList
  | .noMatchingEntry directory =>
      "No psr-4 entry of composer.json matches ".toList ++ directory ++
        ", automatic namespace generation failed".toList
  | .invalidManifest fault => "Invalid composer.json: ".toList ++ fault.message
  | .editRejected => "The editor rejected the change.".toList

end PhpNames
