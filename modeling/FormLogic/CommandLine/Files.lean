import FormLogic.CommandLine.Arguments

/-!
# Files by path

What a command finds under the paths that it is given, when it runs in a folder whose files are
known. A path is a list of names with slashes between them and starts in the folder, or at the root
if it starts with a slash. An empty name and a single dot stay where they are, two dots lead back up
as far as the root, and any name but the last has to be that of a folder. The text on the input has
a path too; it can be read once.
-/

namespace FormLogic

/-- What a command reads: the texts under its paths, `none` for a path without one, and what is left
    on the input after that. -/
structure Sources where
  spec? : Option String
  answers? : Option String
  input : String

namespace Command

/-- The path of the form definition. -/
def specPath? : Command → Option String
  | refresh spec _ _ | watch spec _ _ | check spec | submit spec _ => some spec
  | operators _ => none

/-- The path of the answers. -/
def answersPath? : Command → Option String
  | refresh _ state? _ => state?
  | submit _ answers => some answers
  | watch _ _ _ | check _ | operators _ => none

end Command

/-- The names on the way from the root to a file or folder. -/
abbrev Place := List String

namespace Place

/-- The place of the text on the input. -/
def input : Place :=
  ["proc", "self", "fd", "0"]

/-- Other names of places. -/
def links : List (Place × Place) :=
  [(["dev", "stdin"], input), (["dev", "fd"], ["proc", "self", "fd"])]

/-- The place that a name leads to from another one. -/
def enter (place : Place) (name : String) : Place :=
  (links.lookup (place ++ [name])).getD (place ++ [name])

end Place

/-- A folder in which a command runs. -/
structure Folder where
  /-- The place of the folder. An empty name stands for one that no path can give. -/
  home : Place
  files : List (Place × String)
  /-- The text on the input. -/
  input : String

namespace Folder

/-- The places that are known to exist. -/
def places (f : Folder) : List Place :=
  Place.input :: f.home :: Place.links.map (·.1) ++ f.files.map (·.1)

/-- Whether a place is that of a folder: something lies below it. -/
def hasFolder (f : Folder) (place : Place) : Bool :=
  f.places.any fun other => place.isPrefixOf other && place.length < other.length

/-- The place to which steps lead from a folder. -/
def follow? (f : Folder) (place : Place) : List String → Option Place
  | [] => some place
  | step :: rest =>
    if step = "" ∨ step = "." then follow? f place rest
    else if step = ".." then follow? f place.dropLast rest
    else if rest = [] ∨ f.hasFolder (Place.enter place step) then
      follow? f (Place.enter place step) rest
    else none

/-- The place to which a path leads. -/
def locate? (f : Folder) (path : String) : Option Place :=
  match path.splitOn "/" with
  | "" :: steps => f.follow? [] steps
  | steps => f.follow? f.home steps

/-- The text under a path, and the folder after it has been read. -/
def read (f : Folder) (path : String) : Option String × Folder :=
  match f.locate? path with
  | none => (none, f)
  | some place =>
    if place = Place.input then (some f.input, { f with input := "" })
    else (f.files.lookup place, f)

/-- The text under a path, if there is a path. -/
def read? (f : Folder) : Option String → Option String × Folder
  | none => (none, f)
  | some path => f.read path

/-- What a command reads, the form definition first. -/
def sources (f : Folder) (c : Command) : Sources :=
  let (spec?, f) := f.read? c.specPath?
  let (answers?, f) := f.read? c.answersPath?
  { spec?, answers?, input := f.input }

/-- A folder with files of the given names. -/
def ofFiles (home : Place) (files : List (String × String)) (input : String) : Folder where
  home := home
  files := files.map fun (name, text) =>
    (home ++ (name.splitOn "/").filter (fun step => step != "" && step != "."), text)
  input := input

end Folder

end FormLogic
