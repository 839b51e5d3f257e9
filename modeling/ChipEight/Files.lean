import ChipEight.Failure
import ChipEight.Picture.Basic
/-!
A tree of files as the program sees it.  Paths are texts with parts divided by slashes; each
operation fails as the path and the tree demand and names the path as it was given.
-/

namespace ChipEight

inductive Entry where
  | file (content : ByteArray)
  | image (picture : Picture)
  | directory

structure Files where
  /-- Each entry under its path, the newest first.  The working directory itself has none. -/
  entries : List (List String × Entry) := []

namespace Files

instance : Inhabited Files := ⟨{}⟩

/-! ### Paths -/

/-- The parts of a path; a part `.` means nothing, a part `..` the directory above. -/
def parts (path : String) : List String :=
  (((path.toList.splitOn '/').map String.ofList).foldl (fun done part =>
    if part == "" || part == "." then done
    else if part == ".." then done.drop 1
    else part :: done) []).reverse

/-- Everything up to the last slash, and the rest. -/
def splitLast (path : String) : String × String :=
  let cs := path.toList.reverse
  let tail := cs.takeWhile (· != '/')
  (String.ofList (cs.drop tail.length).reverse, String.ofList tail.reverse)

/-- Slashes at the end of a directory's name are dropped unless nothing else is there. -/
def trimSlashes (s : String) : String :=
  let kept := s.toList.reverse.dropWhile (· == '/')
  if kept.isEmpty then s else String.ofList kept.reverse

def directoryOf (path : String) : String := trimSlashes (splitLast path).1

def baseName (path : String) : String := (splitLast path).2

/-- The last dot of the name and what follows; dots at the name's start begin no extension. -/
def extension (path : String) : String :=
  let name := (baseName path).toList.dropWhile (· == '.')
  let ext := name.reverse.takeWhile (· != '.')
  if ext.length == name.length then "" else String.ofList ('.' :: ext.reverse)

/-! ### The tree -/

def find (fs : Files) (parts : List String) : Option Entry :=
  if parts.isEmpty then some .directory else fs.entries.lookup parts

/-- The entry at a path, or why there is none: a part on the way is missing or no directory. -/
def walk (fs : Files) (path : String) : List String → List String → Except FileError Entry
  | done, [] =>
    match fs.find done with
    | some e => .ok e
    | none => .error (.missing path)
  | done, part :: rest =>
    match fs.find done with
    | some .directory => walk fs path (done ++ [part]) rest
    | some _ => .error (.notDirectory path)
    | none => .error (.missing path)

def entry (fs : Files) (path : String) : Except FileError Entry :=
  if path.isEmpty then .error (.missing path)
  else
    match fs.walk path [] (parts path) with
    | .ok .directory => .ok .directory
    | .ok e => if path.endsWith "/" then .error (.notDirectory path) else .ok e
    | .error e => .error e

def «exists» (fs : Files) (path : String) : Bool := (fs.entry path).toBool

def isDirectory (fs : Files) (path : String) : Bool :=
  match fs.entry path with
  | .ok .directory => true
  | _ => false

def set (fs : Files) (parts : List String) (e : Entry) : Files :=
  ⟨(parts, e) :: fs.entries.filter (·.1 != parts)⟩

def read (fs : Files) (path : String) : Except FileError ByteArray :=
  match fs.entry path with
  | .ok (.file content) => .ok content
  | .ok (.image _) => .ok ByteArray.empty
  | .ok .directory => .error (.isDirectory path)
  | .error e => .error e

/-- Whether a file can be put at a path. -/
def checkWrite (fs : Files) (path : String) : Except FileError Unit :=
  match fs.entry path with
  | .ok .directory => .error (.isDirectory path)
  | .ok _ => .ok ()
  | .error (.missing _) =>
    if path.isEmpty then .error (.missing path)
    else
      match fs.walk path [] (parts path).dropLast with
      | .ok .directory => if path.endsWith "/" then .error (.isDirectory path) else .ok ()
      | .ok _ => .error (.notDirectory path)
      | .error e => .error e
  | .error e => .error e

/-- Puts an entry at a path, in place of a file that is there. -/
def put (fs : Files) (path : String) (e : Entry) : Except FileError Files := do
  fs.checkWrite path
  return fs.set (parts path) e

def write (fs : Files) (path : String) (content : ByteArray) : Except FileError Files :=
  fs.put path (.file content)

def writeText (fs : Files) (path : String) (text : String) : Except FileError Files :=
  fs.write path text.toUTF8

/-- Makes the directory at a path and those on the way to it, except what is there already. -/
def makeDirectories (fs : Files) (path : String) : Except FileError Files :=
  let rec make (fs : Files) (done : List String) : List String → Except FileError Files
    | [] => .ok fs
    | part :: rest =>
      let here := done ++ [part]
      match fs.find here with
      | some .directory => make fs here rest
      | some _ =>
        match rest with
        | [] => .error (.exists ("/".intercalate here))
        | next :: _ => .error (.notDirectory ("/".intercalate (here ++ [next])))
      | none => make (fs.set here .directory) here rest
  make fs [] (parts path)

/-- Makes the directory that a file at the path needs. -/
def makeParent (fs : Files) (path : String) : Except FileError Files :=
  let directory := directoryOf path
  if directory.isEmpty then .ok fs else fs.makeDirectories directory

/-- As `makeParent`, but whatever has the directory's name is left alone. -/
def makeMissingParent (fs : Files) (path : String) : Except FileError Files :=
  let directory := directoryOf path
  if directory.isEmpty || fs.exists directory then .ok fs else fs.makeDirectories directory

/-- What is there for an append: the content of the file, or none yet. -/
def openAppend (fs : Files) (path : String) : Except FileError Files := do
  fs.checkWrite path
  match fs.entry path with
  | .ok _ => return fs
  | .error _ => fs.write path ByteArray.empty

/-- All entries but directories, under their paths. -/
def listing (fs : Files) : List (String × Entry) :=
  fs.entries.filterMap fun (parts, e) =>
    match e with
    | .directory => none
    | e => some ("/".intercalate parts, e)

/-- Line ends of all kinds become line feeds. -/
def unifyLines : List Char → List Char
  | '\r' :: '\n' :: rest => '\n' :: unifyLines rest
  | '\r' :: rest => '\n' :: unifyLines rest
  | c :: rest => c :: unifyLines rest
  | [] => []

/-- The text of a file. -/
def readText (fs : Files) (path : String) : Except Failure String :=
  match fs.read path with
  | .error e => .error (.file e)
  | .ok content =>
    match String.fromUTF8? content with
    | some s => .ok (String.ofList (unifyLines s.toList))
    | none => .error .undecodable

end Files
end ChipEight
