import PatchStack.CommandLine.Arguments
import PatchStack.Git.Command
import PatchStack.Json.Reader
import PatchStack.Settings

set_option autoImplicit false

/-!
# What surrounds a run

Repositories and configurations are found by their place in a tree of directories. A path is
the list of names below the top of the tree; links are not known here, so that `..` simply
takes the last name away. Besides its arguments, a run depends on this tree, on the configuration
files in it and on git.

All this can be given as a JSON record: the directories that hold a repository, the configuration
files with their contents, and a table of git's replies. A reply gives its status and its output
as text or as hexadecimal octets; whatever is left out is empty.

## Main definitions

* `PatchStack.Path` — a place in the tree.
* `PatchStack.Tree` — which directories hold a repository.
* `PatchStack.Tree.discover`, `PatchStack.Tree.openAt` — the repository around a directory, and the
  one at a directory.
* `PatchStack.Surroundings` — what a run depends on besides its arguments.
* `PatchStack.Surroundings.settings` — the settings that it finds.
* `PatchStack.Surroundings.ofJson` — all that surrounds a run, from its document.
-/

namespace PatchStack

/-! ## Directories -/

/-- A place in a tree of directories: the names below its top. -/
abbrev Path := List Text

namespace Path

/-- One name of a path taken from `start`. -/
def enter (start : Path) (name : Text) : Path :=
  if name = [] ∨ name = ['.'] then start
  else if name = ['.', '.'] then start.dropLast
  else start ++ [name]

/-- The place that `t` spells, seen from `start`. -/
def resolve (start : Path) (t : Text) : Path :=
  (t.splitOn '/').foldl enter (if t.head? = some '/' then [] else start)

/-- The spelling of a path below its top, a dot for the top itself. -/
def relative (p : Path) : Text := if p = [] then ['.'] else Text.join ['/'] p

/-- The spelling of a path below a top with a spelling of its own. -/
def text (top : Text) (p : Path) : Text := top ++ p.flatMap fun name => '/' :: name

end Path

/-- A tree of directories of which some hold a repository. -/
structure Tree where
  /-- The spelling of the top. -/
  top : Text
  /-- The directories that hold a repository. -/
  repositories : List Path

namespace Tree

/-- The directory in which a repository is kept. -/
def gitDirectory : Text := ".git".toList

variable (t : Tree)

/-- Is there something at the path? There is on every way to where a repository is kept. -/
def holds (p : Path) : Bool := t.repositories.any fun r => p.isPrefixOf (r ++ [gitDirectory])

/-- Does the directory hold a repository? -/
def isRepository (p : Path) : Bool := t.holds (p ++ [gitDirectory])

/-- The repository at a directory. -/
def openAt (p : Path) : Except Error Path :=
  if t.isRepository p then .ok p else .error (.git (.notRepository (p.text t.top)))

/-- The nearest directory that holds a repository: `p` itself or one above it. -/
def nearest? (p : Path) : Option Path :=
  (List.range (p.length + 1)).findSome? fun up =>
    let q := p.take (p.length - up)
    if t.isRepository q then some q else none

/-- The repository around a directory. -/
def discover (p : Path) : Except Error Path :=
  match t.nearest? p with
  | some q => t.openAt q
  | none => .error (.git (.noRepository (p.text t.top)))

end Tree


/-! ## Surroundings -/

/-- What a run depends on besides its arguments. -/
structure Surroundings where
  /-- The tree of directories. -/
  tree : Tree
  /-- The directory that paths are seen from. -/
  directory : Path
  /-- The name of a repository's own configuration file. -/
  configName : Text
  /-- The configuration files, by their paths. -/
  documents : List (Path × ConfigDocument)
  /-- What git replies. -/
  git : Git

namespace Surroundings

variable (w : Surroundings)

/-- The file at a path. -/
def document? (p : Path) : Option ConfigDocument :=
  (w.documents.find? fun d => d.1 == p).map (·.2)

/-- The directory that a run starts from. -/
def start (g : GlobalOptions) : Path := w.directory.resolve (g.repo.getD ['.'])

/-- The directory with the configuration: the repository around `p`, or `p` itself. -/
def configDirectory (p : Path) : Path :=
  match w.tree.discover p with
  | .ok root => root
  | .error _ => p

/-- The settings of a run: those of the given file, or those of the repository. -/
def settings (g : GlobalOptions) : Except SettingsFault Settings :=
  match g.config with
  | some file =>
    match w.document? (w.directory.resolve file) with
    | some d => Settings.ofDocument d
    | none => .error .absent
  | none =>
    match w.document? (w.configDirectory (w.start g) ++ [w.configName]) with
    | some d => Settings.ofDocument d
    | none => .ok Settings.defaults

end Surroundings

/-! ## Surroundings in documents -/

namespace Json

/-- The text that a value is, else the empty one. -/
def textOr : Json → Text
  | .text t => t
  | _ => []

/-- The items of a list; other values have none. -/
def items : Json → List Json
  | .list items => items
  | _ => []

/-- The fields of a record; other values have none. -/
def fields : Json → List (Text × Json)
  | .record fields => fields
  | _ => []

/-- The value of a key of a record, null without one. -/
def get (j : Json) (key : String) : Json := (j.field? key.toList).getD .null

end Json

/-- The octets that pairs of hexadecimal digits spell; other characters count as zero. -/
def hexOctets : Text → List UInt8
  | high :: low :: rest =>
    UInt8.ofNat ((Json.hexValue? high).getD 0 * 16 + (Json.hexValue? low).getD 0) ::
      hexOctets rest
  | _ => []

/-- The octets that a value gives: a text, or a record of hexadecimal digits. -/
def octetsOf : Json → List UInt8
  | .text t => Utf8.encode t
  | .record fields => hexOctets ((Json.lookup fields "hex".toList).getD .null).textOr
  | _ => []

/-- A reply from its document. -/
def Reply.ofJson (j : Json) : Reply :=
  ⟨match j.get "rc" with
    | .int n => n
    | _ => 0, octetsOf (j.get "out"), octetsOf (j.get "err")⟩

/-- A table of replies from its document: for each command one reply, or a list of them. -/
def ReplyTable.ofJson (j : Json) : ReplyTable :=
  j.fields.map fun entry => match entry.2 with
    | .list replies => (entry.1, replies.map Reply.ofJson)
    | reply => (entry.1, [Reply.ofJson reply])

/-- A configuration file from its document: a record with its value, or with nothing if it
spells none. -/
def ConfigDocument.ofJson (j : Json) : ConfigDocument :=
  match j.field? "data".toList with
  | some value => .data value
  | none => .malformed

/-- What surrounds a run, from its document. -/
def Surroundings.ofJson (j : Json) : Surroundings where
  tree := ⟨(j.get "top").textOr,
    (j.get "repositories").items.map fun r => Path.resolve [] r.textOr⟩
  directory := Path.resolve [] (j.get "directory").textOr
  configName := (j.get "config_name").textOr
  documents := (j.get "documents").fields.map fun d =>
    (Path.resolve [] d.1, ConfigDocument.ofJson d.2)
  git := (ReplyTable.ofJson (j.get "git")).git


end PatchStack
