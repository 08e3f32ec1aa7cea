import ExprFront.Text.Lines
import ExprFront.Text.Quoted
import ExprFront.Text.Utf8

/-!
Files. A folder is the working directory of a command with all that is in it. A path names a file,
or there is a reason why it does not. The source text of a file is its bytes read as UTF-8, with
line ends of all kinds made line feeds.
-/

namespace ExprFront

/-- Why a path names no file. -/
inductive FileError where
  | missing
  | isDirectory
  | notDirectory
  | nameTooLong
  | denied
  deriving DecidableEq, Repr

namespace FileError

/-- The number of a reason. -/
def number : FileError → Nat
  | .missing => 2
  | .denied => 13
  | .notDirectory => 20
  | .isDirectory => 21
  | .nameTooLong => 36

/-- The words for a reason. -/
def reason : FileError → String
  | .missing => "No such file or directory"
  | .denied => "Permission denied"
  | .notDirectory => "Not a directory"
  | .isDirectory => "Is a directory"
  | .nameTooLong => "File name too long"

/-- The words for a path that names no file. -/
def message (path : String) (e : FileError) : String :=
  "[Errno " ++ toString e.number ++ "] " ++ e.reason ++ ": " ++ Text.quoted path

end FileError

/-- A working directory: its files with their bytes, and its directories. A name is given by its
parts. -/
structure Folder where
  files : List (List String × List UInt8)
  directories : List (List String)

namespace Folder

/-- The parts of a path. -/
def parts (path : String) : List String := path.splitOn "/"

/-- Whether a part of a path stays where it is. -/
def stays (part : String) : Bool := part = "" || part = "."

/-- Adds an entry: a directory if its name ends in a slash, and else a file. -/
def add (folder : Folder) (name : String) (bytes : List UInt8) : Folder :=
  let names := (parts name).filter (!stays ·)
  if name.endsWith "/" then { folder with directories := names :: folder.directories }
  else { folder with files := (names, bytes) :: folder.files }

/-- Whether a name is a directory, itself or because something is inside. -/
def isDirectory (folder : Folder) (name : List String) : Bool :=
  folder.directories.any (name.isPrefixOf ·)
    || folder.files.any fun (file, _) => file ≠ name && name.isPrefixOf file

/-- The most bytes of a part of a path. -/
def maxPart : Nat := 255

/-- The most bytes of a path. -/
def maxPath : Nat := 4095

/-- Why a path that starts outside the folder, in a directory above it, names no file. Of what is
outside only the directories above are known, and the topmost one is above itself. -/
def outside : List String → FileError
  | [] => .isDirectory
  | part :: rest =>
    if stays part || part = ".." then outside rest
    else if maxPart < part.utf8ByteSize then .nameTooLong
    else .missing

/-- The file at the end of a path that starts in a directory of the folder. -/
def find (folder : Folder) (directory : List String) : List String → Except FileError (List UInt8)
  | [] => .error .isDirectory
  | part :: rest =>
    if stays part then find folder directory rest
    else if part = ".." then
      if directory.isEmpty then .error (outside rest)
      else find folder directory.dropLast rest
    else if maxPart < part.utf8ByteSize then .error .nameTooLong
    else
      let name := directory ++ [part]
      match folder.files.lookup name with
      | some bytes => if rest.isEmpty then .ok bytes else .error .notDirectory
      | none => if folder.isDirectory name then find folder name rest else .error .missing

/-- The bytes of the file that a path names. A path that starts with a slash starts at the topmost
directory, and the empty path names nothing. -/
def read (folder : Folder) (path : String) : Except FileError (List UInt8) :=
  if maxPath < path.utf8ByteSize then .error .nameTooLong
  else
    match parts path with
    | [""] => .error .missing
    | "" :: rest => .error (outside rest)
    | names => folder.find [] names

end Folder

/-- Why a path names no source text. -/
inductive SourceError where
  /-- The path holds a null character, which no path can. -/
  | nullByte
  | file (e : FileError)
  | undecodable (e : Text.Utf8Error)
  deriving DecidableEq, Repr

/-- The words for a path that names no source text. -/
def SourceError.message (path : String) : SourceError → String
  | .nullByte => "embedded null byte"
  | .file e => e.message path
  | .undecodable e => e.message

/-- The source text in the bytes of a file. -/
def decodeSource (bytes : List UInt8) : Except SourceError (List Char) :=
  match Text.decodeUtf8 bytes with
  | .ok cs => .ok (Text.unifyLineEnds cs)
  | .error e => .error (.undecodable e)

/-- The source text of the file that a path names. -/
def readSource (read : String → Except FileError (List UInt8)) (path : String) :
    Except SourceError (List Char) :=
  if path.contains '\x00' then .error .nullByte
  else
    match read path with
    | .ok bytes => decodeSource bytes
    | .error e => .error (.file e)

end ExprFront
