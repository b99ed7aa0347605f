import DisplayFilter.Document.Path
import DisplayFilter.Document.Reader
import DisplayFilter.Text.Literal
import DisplayFilter.Text.Utf8
/-!
# Files

At a place there is nothing, a directory or a file. A file holds octets, or is locked and can be neither read
nor written. A written path leads to a place only if there are directories all along its way. The octets of a
file are decoded, and a reader of documents makes a document of the text; or it is told why there is none.
Writing at the end of a file makes it if need be.
-/

namespace DisplayFilter

/-- What stands at a place. -/
inductive File where
  | missing
  | directory
  | locked
  | octets (octets : List Nat)
  deriving Inhabited

abbrev Files := Path → File

/-- Why a file gives no document: the file system does not let it be read, its octets are not UTF-8, or the
reader of documents finds a fault. -/
inductive ReadFault where
  | directory
  | locked
  | undecodable (fault : Text.Utf8.Fault)
  | malformed
  | valueless (message : String)
  deriving DecidableEq, Repr

/-- What comes of reading a file. -/
inductive FileState where
  | missing
  | unreadable (fault : ReadFault)
  | document (value : Value)
  deriving Inhabited

namespace ReadFault

/-- What is wrong with the octets. -/
def reasonText : Text.Utf8.Reason → String
  | .start => "invalid start byte"
  | .continuation => "invalid continuation byte"
  | .truncated => "unexpected end of data"

/-- Which octets are at fault. -/
def octetText (fault : Text.Utf8.Fault) : String :=
  if fault.length = 1 then
    "byte 0x" ++ String.ofList (Text.hexDigits 2 fault.octet) ++ " in position " ++
      toString fault.position
  else
    "bytes in position " ++ toString fault.position ++ "-" ++
      toString (fault.position + fault.length - 1)

def message (path : String) : ReadFault → String
  | .directory => "[Errno 21] Is a directory: " ++ Text.literal path
  | .locked => "[Errno 13] Permission denied: " ++ Text.literal path
  | .undecodable fault =>
    "'utf-8' codec can't decode " ++ octetText fault ++ ": " ++ reasonText fault.reason
  | .malformed => "malformed document"
  | .valueless message => message

end ReadFault

namespace FileState

def ofText (reader : DocumentReader) (text : List Char) : FileState :=
  match reader text with
  | .ok value => .document value
  | .error .malformed => .unreadable .malformed
  | .error (.valueless message) => .unreadable (.valueless message)

def ofOctets (reader : DocumentReader) (octets : List Nat) : FileState :=
  match Text.Utf8.decode octets with
  | .ok text => ofText reader text
  | .error fault => .unreadable (.undecodable fault)

end FileState

namespace File

def ofText (text : String) : File :=
  .octets (Text.Utf8.encode text.toList)

/-- What comes of reading the file. -/
def state (reader : DocumentReader) : File → FileState
  | .missing => .missing
  | .directory => .unreadable .directory
  | .locked => .unreadable .locked
  | .octets held => .ofOctets reader held

def append (added : List Nat) : File → File
  | .missing => .octets added
  | .directory => .directory
  | .locked => .locked
  | .octets held => .octets (held ++ added)

end File

/-- Why a path leads nowhere: there is no directory on its way, or there is a file instead. -/
inductive Obstacle where
  | missing
  | notDirectory
  deriving DecidableEq, Repr

namespace Files

/-- Follows steps from a place, each of them out of a directory. -/
def walk (files : Files) (place : Path) : List String → Except Obstacle Path
  | [] => .ok place
  | name :: rest =>
    match files place with
    | .directory => walk files (place.step name) rest
    | .missing => .error .missing
    | _ => .error .notDirectory

/-- What a written path leads to; the empty one leads to nothing. -/
def find (files : Files) (text : String) : File :=
  if text = "" then .missing
  else match walk files (Path.startOf text) (Path.stepsOf text) with
    | .ok place => files place
    | .error _ => .missing

/-- What comes of reading what a written path leads to. -/
def read (files : Files) (reader : DocumentReader) (text : String) : FileState :=
  (files.find text).state reader

/-- The files after octets are written at the end of one of them. -/
def append (files : Files) (place : Path) (added : List Nat) : Files :=
  fun other => if other = place then (files place).append added else files other

end Files

end DisplayFilter
