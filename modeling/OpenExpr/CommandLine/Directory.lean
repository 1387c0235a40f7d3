import OpenExpr.Text.Cut

namespace OpenExpr

/-- Why a file cannot be read. -/
inductive FileError where
  | notFound
  | notDirectory
  | isDirectory
  | nameTooLong
  | other (message : String)
deriving DecidableEq, Repr

def FileError.message : FileError → String
  | notFound => "No such file or directory (os error 2)"
  | notDirectory => "Not a directory (os error 20)"
  | isDirectory => "Is a directory (os error 21)"
  | nameTooLong => "File name too long (os error 36)"
  | other message => message

namespace Path

/-- The pieces of a path between its slashes, of which some may be empty. -/
def pieces (path : String) : List String :=
  let (pieces, rest) := Text.cutAfter (· == '/') path.toList
  pieces.map (fun piece => String.ofList piece.dropLast) ++ [String.ofList rest]

/-- The names in a path. Pieces that stay where they are do not count. -/
def names (path : String) : List String :=
  (pieces path).filter fun piece => !piece.isEmpty && piece != "."

/-- The name of the file to which a path leads. A path that ends by going up, or
has no names, is its own name. -/
def fileName (path : String) : String :=
  match (names path).getLast? with
  | none | some ".." => path
  | some name => name

end Path

/-- The files below a directory, each with the names that lead to it. -/
structure Directory where
  files : List (List String × ByteArray) := []

namespace Directory

/-- How long a name may be, in bytes. -/
def maxName : Nat := 255

/-- How long a path may be, in bytes. -/
def maxPath : Nat := 4095

def ofFiles (files : List (String × ByteArray)) : Directory :=
  { files := files.map fun (path, bytes) => (Path.names path, bytes) }

def file? (d : Directory) (place : List String) : Option ByteArray :=
  (d.files.find? fun f => f.1 == place).map Prod.snd

/-- Whether files lie below a place. -/
def isDirectory (d : Directory) (place : List String) : Bool :=
  d.files.any fun f => f.1.length > place.length && place.isPrefixOf f.1

/-- Follows the pieces of a path from a directory. Nothing is known of what lies
outside, which has no place and counts as directories without files. -/
def follow (d : Directory) (place? : Option (List String)) : List String → Except FileError ByteArray
  | [] => .error .isDirectory
  | piece :: rest =>
    if piece.isEmpty || piece == "." then follow d place? rest
    else if piece == ".." then
      follow d (place?.bind fun place => if place.isEmpty then none else some place.dropLast) rest
    else if piece.utf8ByteSize > maxName then .error .nameTooLong
    else
      match place? with
      | none => .error .notFound
      | some place =>
        let place := place ++ [piece]
        match d.file? place with
        | some bytes => if rest.isEmpty then .ok bytes else .error .notDirectory
        | none => if d.isDirectory place then follow d (some place) rest else .error .notFound

/-- The content of a file. -/
def read (d : Directory) (path : String) : Except FileError ByteArray :=
  if path.isEmpty then .error .notFound
  else if path.utf8ByteSize > maxPath then .error .nameTooLong
  else d.follow (if path.toList.head? == some '/' then none else some []) (Path.pieces path)

end Directory

end OpenExpr
