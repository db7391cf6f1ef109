/-!
Files: reading them by name, why that fails, and a file system that is held in memory.

A name is a path of components between slashes. It is followed from the working directory, one
component at a time, and every component but the last has to be a directory.
-/

namespace ReversePolish.CommandLine

/-- What keeps a file from being read. -/
inductive FileProblem where
  | notFound
  | notDirectory
  | isDirectory
  /-- No file can have such a name. -/
  | badName
  | nameTooLong
  deriving DecidableEq, Repr

/-- A file that cannot be read. -/
structure FileError where
  name : String
  problem : FileProblem
  deriving DecidableEq, Repr

/-- The words for a file that cannot be read. -/
def FileError.message (e : FileError) : String :=
  match e.problem with
  | .notFound => "open " ++ e.name ++ ": no such file or directory"
  | .notDirectory => "open " ++ e.name ++ ": not a directory"
  | .isDirectory => "read " ++ e.name ++ ": is a directory"
  | .badName => "open " ++ e.name ++ ": invalid argument"
  | .nameTooLong => "open " ++ e.name ++ ": file name too long"

/-- The components of a name, empty ones included. -/
def components (name : String) : List String :=
  (name.toList.splitOnP (· == '/')).map String.ofList

/-- The first length in bytes at which a name is too long. -/
def nameLimit : Nat := 4096

/-- The most bytes of a component. -/
def componentLimit : Nat := 255

/-- What is wrong with a name as a whole. -/
def nameProblem? (name : String) : Option FileProblem :=
  if name.toList.contains '\x00' then some .badName
  else if nameLimit ≤ name.utf8ByteSize then some .nameTooLong
  else none

/-- Whether a component stays where it is. -/
def staysPut (component : String) : Bool :=
  component == "" || component == "."

/-- Add a component to a path that is read from its end. A step upwards takes a component away; one
that finds none is dropped if the path is rooted, and kept if not. -/
def addComponent (rooted : Bool) (path : List String) (component : String) : List String :=
  if staysPut component then path
  else if component = ".." then
    match path with
    | [] => if rooted then [] else [".."]
    | last :: rest => if last = ".." then ".." :: path else rest
  else component :: path

/-- The shortest name of the file `name` in the directory `directory`. -/
def joinName (directory name : String) : String :=
  let path := directory ++ "/" ++ name
  let rooted := directory.toList.head? = some '/'
  let kept := ((components path).foldl (addComponent rooted) []).reverse
  (if rooted then "/" else "") ++ String.intercalate "/" kept

/-! ## In memory -/

/-- The files of a working directory and of the directories below it; each path is a list of
components. -/
structure Files where
  entries : List (List String × String)
  deriving DecidableEq, Repr

namespace Files

/-- A file system with the named files. -/
def ofList (files : List (String × String)) : Files :=
  ⟨files.map (fun file => ((components file.1).filter (!staysPut ·), file.2))⟩

/-- The contents of a file. -/
def contents? (fs : Files) (path : List String) : Option String :=
  (fs.entries.find? (·.1 = path)).map (·.2)

/-- A path is a directory if it is the working directory or a file is below it. -/
def isDirectory (fs : Files) (path : List String) : Bool :=
  path.isEmpty || fs.entries.any (fun entry => path.isPrefixOf entry.1 && path != entry.1)

/-- A place that names lead to. -/
inductive Place where
  /-- A path below the working directory. -/
  | inside (path : List String)
  /-- A directory that is not below the working directory. -/
  | outside
  deriving DecidableEq, Repr

/-- Follow a component. -/
def follow (fs : Files) (component : String) : Place → Except FileProblem Place
  | .outside =>
    if staysPut component || component == ".." then .ok .outside
    else if componentLimit < component.utf8ByteSize then .error .nameTooLong
    else .error .notFound
  | .inside path =>
    if !fs.isDirectory path then .error .notDirectory
    else if staysPut component then .ok (.inside path)
    else if component = ".." then
      .ok (if path.isEmpty then .outside else .inside path.dropLast)
    else if componentLimit < component.utf8ByteSize then .error .nameTooLong
    else
      let next := path ++ [component]
      if fs.isDirectory next || (fs.contents? next).isSome then .ok (.inside next)
      else .error .notFound

/-- Follow components, one after the other. -/
def followAll (fs : Files) : List String → Place → Except FileProblem Place
  | [], place => .ok place
  | component :: rest, place =>
    match fs.follow component place with
    | .ok next => fs.followAll rest next
    | .error problem => .error problem

/-- The place of a name. The empty name has none. -/
def locate (fs : Files) (name : String) : Except FileProblem Place :=
  match nameProblem? name, name.toList with
  | some problem, _ => .error problem
  | none, [] => .error .notFound
  | none, '/' :: _ => fs.followAll (components name) .outside
  | none, _ => fs.followAll (components name) (.inside [])

/-- The contents of the file with a name. -/
def read (fs : Files) (name : String) : Except FileError String :=
  match fs.locate name with
  | .error problem => .error ⟨name, problem⟩
  | .ok .outside => .error ⟨name, .isDirectory⟩
  | .ok (.inside path) =>
    if fs.isDirectory path then .error ⟨name, .isDirectory⟩
    else
      match fs.contents? path with
      | some text => .ok text
      | none => .error ⟨name, .notFound⟩

/-- Give a file of the working directory new contents. A directory stays what it is. -/
def write (fs : Files) (name text : String) : Files :=
  let path := (components name).filter (!staysPut ·)
  if fs.isDirectory path then fs
  else ⟨fs.entries.filter (·.1 != path) ++ [(path, text)]⟩

end Files

end ReversePolish.CommandLine
