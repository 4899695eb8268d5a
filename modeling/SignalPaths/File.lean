import SignalPaths.Text

/-!
Files as a library without a file system sees them: what is at a path, why it cannot be read as
text, which extension a path has, and how it is shown. A path is made of bytes, which need not be
those of a text.
-/

namespace SignalPaths

structure FilePath where
  bytes : List UInt8
  deriving DecidableEq, Repr

namespace FilePath

def separator : UInt8 := '/'.toUInt8

def dot : UInt8 := '.'.toUInt8

def ofBytes (bytes : ByteArray) : FilePath := ⟨bytes.data.toList⟩

def ofText (text : String) : FilePath := ofBytes text.toUTF8

/-- A name below a directory. The empty directory is the present one. -/
def join (directory : FilePath) (name : String) : FilePath :=
  if directory.bytes.isEmpty || directory.bytes.getLast? == some separator then
    ⟨directory.bytes ++ (ofText name).bytes⟩
  else
    ⟨directory.bytes ++ separator :: (ofText name).bytes⟩

/-- The last component of a path. Doubled and trailing separators and single dots do not count. -/
def lastComponent? (path : FilePath) : Option (List UInt8) :=
  ((path.bytes.splitOn separator).filter fun part => part ≠ [] ∧ part ≠ [dot]).getLast?

/-- The part of a file name after its last dot. A dot at its start does not count. -/
def extension? (path : FilePath) : Option (List UInt8) :=
  match path.lastComponent? with
  | none => none
  | some name =>
    let extension := (name.reverse.takeWhile (· != dot)).reverse
    if name = [dot, dot] ∨ name.length ≤ extension.length + 1 then none else some extension

def display (path : FilePath) : String := String.ofList (Text.shown 0 path.bytes)

end FilePath

inductive File where
  | absent
  | directory
  | bytes (content : ByteArray)

inductive ReadFailure where
  | notFound | isDirectory | notUtf8
  deriving DecidableEq, Repr

def ReadFailure.message : ReadFailure → String
  | notFound => "No such file or directory (os error 2)"
  | isDirectory => "Is a directory (os error 21)"
  | notUtf8 => "stream did not contain valid UTF-8"

namespace File

def ofText (text : String) : File := bytes text.toUTF8

def isPresent : File → Bool
  | absent => false
  | _ => true

def readText : File → Except ReadFailure String
  | absent => .error .notFound
  | directory => .error .isDirectory
  | bytes content =>
    match String.fromUTF8? content with
    | some text => .ok text
    | none => .error .notUtf8

end File

end SignalPaths
