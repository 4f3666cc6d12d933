namespace StackCode

inductive FileError where
  | system (text : String) (number : Nat)
  | notText
deriving DecidableEq, Repr

namespace FileError

def noEntry : FileError := .system "No such file or directory" 2

def notDirectory : FileError := .system "Not a directory" 20

def isDirectory : FileError := .system "Is a directory" 21

def nameTooLong : FileError := .system "File name too long" 36

def message : FileError → String
  | .system text number => s!"{text} (os error {number})"
  | .notText => "stream did not contain valid UTF-8"

end FileError

structure Files (m : Type → Type) where
  read : (path : String) → m (Except FileError String)
  write : (path text : String) → m (Except FileError Unit)

structure Directory where
  files : List (List String × String) := []

inductive Place where
  | file (path : List String) (text : String)
  | directory
  | free (path : List String)
  | away

namespace Directory

def pathText (path : List String) : String := "/".intercalate path.reverse

def ofFiles (files : List (String × String)) : Directory :=
  ⟨files.map fun (path, text) => ((path.splitOn "/").reverse, text)⟩

def toFiles (d : Directory) : List (String × String) :=
  d.files.map fun (path, text) => (pathText path, text)

def holds (d : Directory) (path : List String) : Bool :=
  d.files.any fun (file, _) => file.length > path.length && path.isSuffixOf file

def nameLimit : Nat := 255

def pathLimit : Nat := 4095

/-- Follows names from a place in the tree, or from the directories around it, among which nothing
but the way up is known. -/
def walk (d : Directory) :
    (here : Option (List String)) → (names : List String) → Except FileError Place
  | _, [] => .ok .directory
  | here, name :: rest =>
    if name = "" ∨ name = "." then d.walk here rest
    else if name = ".." then d.walk (here.bind List.tail?) rest
    else if nameLimit < name.utf8ByteSize then .error .nameTooLong
    else match here with
      | none => if rest.isEmpty then .ok .away else .error .noEntry
      | some here =>
        if d.holds (name :: here) then d.walk (some (name :: here)) rest
        else
          match d.files.lookup (name :: here), rest with
          | some text, [] => .ok (.file (name :: here) text)
          | some _, _ :: _ => .error .notDirectory
          | none, [] => .ok (.free (name :: here))
          | none, _ :: _ => .error .noEntry

/-- What a path leads to, the names on it being given. A path that starts with a slash starts
outside of the tree, any other at its top. -/
def find (d : Directory) (path : String) (names : List String) : Except FileError Place :=
  if path = "" then .error .noEntry
  else if pathLimit < path.utf8ByteSize then .error .nameTooLong
  else d.walk (if path.startsWith "/" then none else some []) names

def read (d : Directory) (path : String) : Except FileError String :=
  match d.find path (path.splitOn "/") with
  | .ok (.file _ text) => .ok text
  | .ok .directory => .error .isDirectory
  | .ok (.free _) | .ok .away => .error .noEntry
  | .error e => .error e

def put (d : Directory) (path : List String) (text : String) : Directory :=
  if d.files.any (·.1 == path) then
    ⟨d.files.map fun file => if file.1 == path then (path, text) else file⟩
  else ⟨d.files ++ [(path, text)]⟩

/-- The names on a path to be written. One that ends in a slash stands for a directory, whatever
its last name. -/
def writtenNames (path : String) : List String :=
  let names := path.splitOn "/"
  if path.endsWith "/" then
    ("." :: (names.reverse.dropWhile (· == "")).tail).reverse
  else names

/-- Writes a file. What is written outside of the tree does not change it. -/
def write (d : Directory) (path text : String) : Except FileError Directory :=
  match d.find path (writtenNames path) with
  | .ok (.file place _) | .ok (.free place) => .ok (d.put place text)
  | .ok .away => .ok d
  | .ok .directory => .error .isDirectory
  | .error e => .error e

def access : Files (StateM Directory) where
  read path := return (← get).read path
  write path text := do
    match (← get).write path text with
    | .ok d =>
      set d
      return .ok ()
    | .error e => return .error e

end Directory

end StackCode
