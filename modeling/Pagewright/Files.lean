import Pagewright.Text.Split
import Pagewright.Text.Utf8

/-!
A tree of files below the working directory, and what reading a path of it gives. Paths are resolved
one component after the other. The tree is all there is: an absolute path, or one that leaves the tree
upwards, ends in nothing but directories, links are left out, and so are permissions, so that whatever is
there can be read.
-/
namespace Pagewright

/-- Names from the working directory down. -/
abbrev Location := List String

inductive Entry where
  | directory
  | file (data : Bytes)
deriving DecidableEq, Repr

inductive FileFault where
  | notFound
  /-- A file stands where a directory is needed. -/
  | notDirectory
  | isDirectory
  | nameTooLong
  /-- The path holds a NUL. -/
  | invalidPath
  /-- The content is not UTF-8. -/
  | notText
deriving DecidableEq, Repr

structure Files where
  entries : List (Location × Entry)
deriving DecidableEq, Repr, Inhabited

namespace Path

/-- The components of a path; empty ones count. -/
def split (path : String) : List String :=
  Text.split '/' path

def isAbsolute (path : String) : Bool := path.toList.head? == some '/'

def endsInSlash (path : String) : Bool := path.toList.getLast? == some '/'

/-- A path below another one, as a child. An absolute one stands for itself. -/
def join (base child : String) : String :=
  if isAbsolute child || base.isEmpty then child
  else if endsInSlash base then base ++ child
  else base ++ "/" ++ child

end Path

namespace Files

def entry? (fs : Files) (place : Location) : Option Entry :=
  if place = [] then some .directory else fs.entries.lookup place

def longestName : Nat := 255

def longestPath : Nat := 4095

/-- Goes down from a location, `none` being outside the tree. A name is looked up in a directory
only. -/
def walk (fs : Files) : Option Location → List String → Except FileFault (Option Location × Entry)
  | here, [] =>
    match here with
    | none => .ok (none, .directory)
    | some l =>
      match fs.entry? l with
      | some e => .ok (some l, e)
      | none => .error .notFound
  | here, name :: rest =>
    let inside : Except FileFault Unit := match here with
      | none => .ok ()
      | some l =>
        match fs.entry? l with
        | none => .error .notFound
        | some (.file _) => .error .notDirectory
        | some .directory => .ok ()
    match inside with
    | .error e => .error e
    | .ok () =>
      if name = "" || name = "." then walk fs here rest
      else if name = ".." then
        walk fs (match here with
          | none | some [] => none
          | some l => some l.dropLast) rest
      else if longestName < name.utf8ByteSize then .error .nameTooLong
      else
        match here with
        | none => .error .notFound
        | some l => walk fs (some (l ++ [name])) rest

def resolve (fs : Files) (path : String) : Except FileFault (Option Location × Entry) :=
  if path.toList.contains '\x00' then .error .invalidPath
  else if path.isEmpty then .error .notFound
  else if longestPath < path.utf8ByteSize then .error .nameTooLong
  else fs.walk (if Path.isAbsolute path then none else some []) (Path.split path)

def read (fs : Files) (path : String) : Except FileFault Bytes :=
  match fs.resolve path with
  | .ok (_, .file data) => .ok data
  | .ok (_, .directory) => .error .isDirectory
  | .error e => .error e

def readText (fs : Files) (path : String) : Except FileFault String :=
  match fs.read path with
  | .ok data =>
    match Bytes.toText? data with
    | some s => .ok s
    | none => .error .notText
  | .error e => .error e

def isFile (fs : Files) (path : String) : Bool :=
  match fs.resolve path with
  | .ok (_, .file _) => true
  | _ => false

def isDirectory (fs : Files) (path : String) : Bool :=
  match fs.resolve path with
  | .ok (_, .directory) => true
  | _ => false

def put (fs : Files) (place : Location) (e : Entry) : Files :=
  ⟨(place, e) :: fs.entries.filter fun (l, _) => l ≠ place⟩

/-- The location a relative path names, whether there is something or not. -/
def location (path : String) : Location :=
  (Path.split path).foldl (fun l name =>
    if name = "" || name = "." then l
    else if name = ".." then l.dropLast
    else l ++ [name]) []

def makeParents (fs : Files) (place : Location) : Files :=
  (List.range place.length).foldl (fun fs n =>
    let parent := place.take n
    if (fs.entry? parent).isSome then fs else fs.put parent .directory) fs

def makeDirectory (fs : Files) (path : String) : Files :=
  let l := location path
  if l = [] then fs else (fs.makeParents l).put l .directory

def write (fs : Files) (path : String) (data : Bytes) : Files :=
  let l := location path
  (fs.makeParents l).put l (.file data)

def remove (fs : Files) (path : String) : Files :=
  let l := location path
  ⟨fs.entries.filter fun (l', _) => !l.isPrefixOf l'⟩

def ofList (contents : List (String × Bytes)) : Files :=
  contents.foldl (fun fs (path, data) =>
    if Path.endsInSlash path then fs.makeDirectory path else fs.write path data) ⟨[]⟩

end Files

end Pagewright
