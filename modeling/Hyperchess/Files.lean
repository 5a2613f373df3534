import Hyperchess.Error
import Hyperchess.Source
import Hyperchess.Text.Name

/-!
# Files

The files that a program sees: contents by place, and the directories that exist. A path (`FilePath`) is what a text
says, with its single and double points; a place is where it leads (`Files.place`): the names on the way from the
working directory. Every directory on the way has to exist, also one that is left again.
-/

namespace Hyperchess

/-- A path, as its parts between slashes. A path from the root begins with an empty part, one that ends with a slash
ends with an empty part. -/
abbrev FilePath := List Text

/-- Where a path leads: the names on the way from the working directory. Outside of it a place begins with double points
or, below the root, with a slash. -/
abbrev Place := List Text

namespace Place

/-- The root. -/
def root : Place := ["/"]

/-- The place above. -/
def up (at_ : Place) : Place :=
  if at_ = root then at_ else if at_.all (· == "..") then ".." :: at_ else at_.dropLast

/-- The places of the directories that lead to a place. -/
def above (p : Place) : List Place := (List.range p.length).tail.map p.take

/-- The place is below the working directory. -/
def isInside (p : Place) : Bool := p.head? != some ".." && p.head? != some "/"

/-- The text of a place. -/
def text (p : Place) : Text :=
  match p with
  | [] => "."
  | name :: rest => if name = "/" then "/" ++ Text.intercalate "/" rest else Text.intercalate "/" p

end Place

namespace FilePath

/-- The path that a text stands for. -/
def ofText (t : Text) : FilePath := t.asName.splitOn '/'

/-- The path begins at the root. -/
def isAbsolute (p : FilePath) : Bool := 1 < p.length && p.head? == some ""

/-- The parts that are names or double points. -/
def names (p : FilePath) : List Text := p.filter fun part => part != "" && part != "."

/-- The path without empty parts and single points; a single point if nothing else is left. -/
def normal (p : FilePath) : FilePath :=
  if p.isAbsolute then "" :: (if p.names.isEmpty then [""] else p.names)
  else if p.names.isEmpty then ["."] else p.names

/-- A path below another one, unless it begins at the root itself. -/
def join (p q : FilePath) : FilePath := if q.isAbsolute then q.normal else normal (p.normal ++ q)

/-- The text of a path. -/
def text (p : FilePath) : Text := Text.intercalate "/" p

/-- The path that leads to what a normal path is a member of. -/
def parent (p : FilePath) : FilePath := normal p.dropLast

/-- The suffix of a file name: its last point and what follows, unless the point is the first or the last character. -/
def suffix (p : FilePath) : Text :=
  let name := (p.names.getLast?.getD Text.empty).points
  let behind := name.reverse.takeWhile (· ≠ .char '.')
  if behind.isEmpty || name.length ≤ behind.length + 1 then Text.empty else ⟨.char '.' :: behind.reverse⟩

/-- The place that a path leads to if all directories on its way exist. -/
def collapsed (p : FilePath) : Place :=
  let start : Place := if p.isAbsolute then .root else []
  p.names.foldl (fun (at_ : Place) (name : Text) => if name = ".." then at_.up else at_ ++ [name]) start

/-- Refuses a path with a part that is no name, and one with a null character. -/
def usable (p : FilePath) : Except Fault Unit :=
  if !p.text.points.all Text.isInName then .error (.notEncodable (p.text.complaintBy Text.isInName))
  else if p.any fun part => part.points.contains (.char '\x00') then .error (.badValue "embedded null byte")
  else .ok ()

/-- The path to a place. -/
def ofPlace (p : Place) : FilePath :=
  match p with
  | [] => ["."]
  | name :: rest => if name = "/" then Text.empty :: rest else p

end FilePath

/-- Files and directories. The working directory always exists. -/
structure Files where
  contents : List (Place × ByteArray) := []
  directories : List Place := []
  deriving Inhabited

namespace Files

/-! ## Places -/

/-- The bytes of the file at a place. -/
def get? (fs : Files) (p : Place) : Option ByteArray :=
  (fs.contents.find? fun e => e.1 == p).map (·.2)

/-- There is a file at the place. -/
def isFile (fs : Files) (p : Place) : Bool := (fs.get? p).isSome

/-- There is a directory at the place. -/
def isDirectory (fs : Files) (p : Place) : Bool :=
  p.all (· == "..") || p == .root || fs.directories.contains p

/-- The largest number of bytes of a name. -/
def nameLimit : Nat := 255

/-- The largest number of bytes of a path. -/
def pathLimit : Nat := 4095

/-- The directory that a path leads to from another one. -/
def enter (fs : Files) (at_ : Place) : FilePath → Except Fault Place
  | [] => .ok at_
  | part :: rest =>
    if part = "" ∨ part = "." then fs.enter at_ rest
    else if part = ".." then fs.enter at_.up rest
    else if nameLimit < part.nameBytes.size then .error .refused
    else if fs.isDirectory (at_ ++ [part]) then fs.enter (at_ ++ [part]) rest
    else .error (if fs.isFile (at_ ++ [part]) then .notDirectory else .missingFile)

/-- The last part is not a name, so that the path leads to a directory. -/
def endsInDirectory (p : FilePath) : Bool :=
  match p.getLast? with
  | some part => part = "" || part = "." || part = ".."
  | none => true

/-- Where a path leads, if all directories on its way exist. -/
def place (fs : Files) (p : FilePath) : Except Fault Place :=
  let start : Place := if p.isAbsolute then .root else []
  if p.text.isEmpty then .error .missingFile
  else if pathLimit < p.text.nameBytes.size then .error .refused
  else if endsInDirectory p then fs.enter start p
  else do
    let at_ ← fs.enter start p.dropLast
    let name := p.getLast?.getD ""
    if nameLimit < name.nameBytes.size then .error .refused else return at_ ++ [name]

/-- A path without slashes at its end, and whether it had any. -/
def trimmed (p : FilePath) : FilePath × Bool :=
  let q := (p.reverse.dropWhile Text.isEmpty).reverse
  if q.isEmpty then (p, false) else (q, q.length < p.length)

/-- Where a path leads, and whether it asks for a directory by a slash at its end. -/
def target (fs : Files) (p : FilePath) : Except Fault (Place × Bool) := do
  p.usable
  let (q, slash) := trimmed p
  return (← fs.place q, slash)

/-- Something is at a path. -/
def contains (fs : Files) (p : FilePath) : Bool :=
  match fs.target p with
  | .ok (at_, slash) => fs.isDirectory at_ || (fs.isFile at_ && !slash)
  | .error _ => false

/-- There is a file at a path. -/
def leadsToFile (fs : Files) (p : FilePath) : Except Fault Bool := do
  p.usable
  match fs.target p with
  | .ok (at_, slash) => return fs.isFile at_ && !slash
  | .error _ => return false

/-! ## Reading and writing -/

/-- The bytes of the file at a path. -/
def bytes (fs : Files) (p : FilePath) : Except Fault ByteArray := do
  let (at_, slash) ← fs.target p
  if fs.isDirectory at_ then .error .isDirectory
  else
    match fs.get? at_ with
    | some bytes => if slash then .error .notDirectory else .ok bytes
    | none => .error .missingFile

/-- Contents with other bytes for a place; a new place comes last. -/
def assign (contents : List (Place × ByteArray)) (p : Place) (bytes : ByteArray) : List (Place × ByteArray) :=
  match contents with
  | [] => [(p, bytes)]
  | e :: rest => if e.1 = p then (p, bytes) :: rest else e :: assign rest p bytes

/-- The place of the file that is made or replaced at a path. A slash at the end asks for a directory, whatever the name
in front of it. -/
def writable (fs : Files) (p : FilePath) : Except Fault Place := do
  let (q, slash) := trimmed p
  if slash then
    p.usable
    let _ ← fs.place (q.dropLast ++ [("." : Text)])
    throw .isDirectory
  let (at_, _) ← fs.target p
  if fs.isDirectory at_ then throw .isDirectory else return at_

/-- The files with these bytes at a path. Its directory has to exist. -/
def write (fs : Files) (p : FilePath) (bytes : ByteArray) : Except Fault Files := do
  return { fs with contents := assign fs.contents (← fs.writable p) bytes }

/-- Writes a text at a path. A text that cannot be encoded leaves an empty file. -/
def writeText (fs : Files) (p : FilePath) (t : Text) : Except Fault Unit × Files :=
  let bytes := (t.string?.getD "").toUTF8
  match fs.write p bytes with
  | .error e => (.error e, fs)
  | .ok fs => (if t.isEncodable then .ok () else .error (.notEncodable t.encodingComplaint), fs)

/-- The files without the one at a path. -/
def remove (fs : Files) (p : FilePath) : Except Fault Files := do
  p.usable
  let _ ← fs.bytes p
  let at_ ← fs.place p
  return { fs with contents := fs.contents.filter fun e => e.1 != at_ }

/-- The places of all files below the working directory. -/
def places (fs : Files) : List Place := (fs.contents.map (·.1)).filter Place.isInside

/-! ## Directories -/

/-- There is a directory at a path; a path that leads nowhere is none, but not every path can be followed. -/
def leadsToDirectory (fs : Files) (p : FilePath) : Except Fault Bool :=
  match fs.place p with
  | .ok at_ => .ok (fs.isDirectory at_)
  | .error .refused => .error .refused
  | .error _ => .ok false

/-- The files with one more directory. -/
def addDirectory (fs : Files) (p : FilePath) : Except Fault Files := do
  p.usable
  let at_ ← fs.place p
  if endsInDirectory p || fs.isDirectory at_ || fs.isFile at_ then throw .existingFile
  return { fs with directories := fs.directories ++ [at_] }

/-- The files with a directory at a normal path, which may exist already. If the directory above it is missing, `above`
makes it. -/
def makeBy (fs : Files) (p : FilePath) (above : Except Fault Files) : Except Fault Files :=
  let accept (fs : Files) (e : Fault) : Except Fault Files := do
    if ← fs.leadsToDirectory p then return fs else throw e
  match fs.addDirectory p with
  | .ok fs => .ok fs
  | .error .missingFile =>
    match above with
    | .error e => .error e
    | .ok fs =>
      match fs.addDirectory p with
      | .ok fs => .ok fs
      | .error .missingFile => .error .missingFile
      | .error e => accept fs e
  | .error (.badValue text) => .error (.badValue text)
  | .error (.notEncodable complaint) => .error (.notEncodable complaint)
  | .error e => accept fs e

/-- The directory at a path made of the first `count` parts, and everything above it. -/
def makeFirst (fs : Files) (p : FilePath) : (count : Nat) → Except Fault Files
  | 0 => .error .missingFile
  | count + 1 => fs.makeBy (FilePath.normal (p.take (count + 1))) (makeFirst fs p count)

/-- The files with a directory at a path and everything above it. What exists already is left as it is. -/
def makeDirectory (fs : Files) (p : FilePath) : Except Fault Files := fs.makeFirst p.normal p.normal.length

/-! ## Texts -/

/-- What is read of the file at a path. -/
def source (fs : Files) (p : FilePath) : Except Fault Source := Source.ofBytes <$> fs.bytes p

/-- The text of the file at a path. -/
def text (fs : Files) (p : FilePath) : Except Fault String := do
  let s ← fs.source p
  if s.isWhole then return String.ofList s.chars else throw .notText

end Files

end Hyperchess
