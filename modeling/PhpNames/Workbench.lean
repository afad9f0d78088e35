import PhpNames.Commands

/-!
An editor held in memory: documents by URI, a user whose answers are scripted, and a record of what
the commands asked for.
-/

namespace PhpNames

inductive Event where
  | find (name : Text)
  | openFile (path : Path)
  | choose (options : List Text)
  | ask (placeholder : Text)
  | edits (uri : Text) (edits : List Edit) (accepted : Bool)
  | notify (message : Text) (isError : Bool)
  | status (message : Text)
  deriving DecidableEq, Repr

structure Workbench where
  settings : Settings := {}
  root : Option Path := none
  documents : List (Text × Document) := []
  /-- The files that a search for a class finds, where that is not left to the documents. -/
  search : List (Text × List Path) := []
  /-- The names that the user will pick, and the texts that the user will type; a user without
  further answers declines. -/
  choices : List (Option Text) := []
  answers : List (Option Text) := []
  /-- Which batches will be accepted; further ones are. -/
  accept : List Bool := []
  /-- What was asked so far. -/
  events : List Event := []
  deriving Repr

namespace Workbench

def document? (bench : Workbench) (uri : Text) : Option Document :=
  bench.documents.lookup uri

def put (bench : Workbench) (uri : Text) (document : Document) : Workbench :=
  { bench with documents := Entries.set uri document bench.documents }

def close (bench : Workbench) (uri : Text) : Workbench :=
  { bench with documents := bench.documents.filter (·.1 != uri) }

def note (bench : Workbench) (event : Event) : Workbench :=
  { bench with events := bench.events ++ [event] }

def documentFiles (bench : Workbench) (fileName : Text) : List Path :=
  Path.sort
    ((bench.documents.filterMap fun (uri, _) => Uri.toPath? uri).filter
      (·.fileNameText? == some fileName))

def searchFiles (bench : Workbench) (name : Text) : List Path :=
  (bench.search.lookup name).getD (bench.documentFiles (name ++ ".php".toList))

def openFile? (bench : Workbench) (path : Path) : Option (List Text) := do
  return (← bench.document? (← Uri.ofPath? path)).lines

def edit (bench : Workbench) (uri : Text) (edits : List Edit) : Workbench :=
  match bench.document? uri with
  | some document => bench.put uri (document.replaceAll edits)
  | none => bench

def decided (bench : Workbench) (uri : Text) (edits : List Edit) (accepted : Bool) : Workbench :=
  { bench.note (.edits uri edits accepted) with accept := bench.accept.tail }

/-- Submits a batch to the user and carries it out if it is accepted. -/
def submit (bench : Workbench) (uri : Text) (edits : List Edit) : Bool × Workbench :=
  match bench.accept.head? with
  | some false => (false, bench.decided uri edits false)
  | _ => (true, (bench.decided uri edits true).edit uri edits)

instance : MonadEditor (StateM Workbench) where
  settings := do return (← get).settings
  workspaceRoot := do return (← get).root
  documentLines uri := do return ((← get).document? uri).map (·.lines)
  candidateFiles name := modifyGet fun bench => (bench.searchFiles name, bench.note (.find name))
  openFile path := modifyGet fun bench => (bench.openFile? path, bench.note (.openFile path))
  chooseName options := modifyGet fun bench =>
    (bench.choices.head?.join, { bench.note (.choose options) with choices := bench.choices.tail })
  askText placeholder := modifyGet fun bench =>
    (bench.answers.head?.join, { bench.note (.ask placeholder) with answers := bench.answers.tail })
  patience := do return (← get).answers.length + 1
  applyEdits uri edits := modifyGet (·.submit uri edits)
  notify message isError := modify (·.note (.notify message isError))
  showStatus message := modify (·.note (.status message))

end Workbench
end PhpNames
