namespace Sandbox

inductive OsError
  | notFound
  | denied
  | notDirectory
  | isDirectory
  | nameTooLong
deriving DecidableEq

def OsError.message : OsError → String
  | .notFound => "No such file or directory (os error 2)"
  | .denied => "Permission denied (os error 13)"
  | .notDirectory => "Not a directory (os error 20)"
  | .isDirectory => "Is a directory (os error 21)"
  | .nameTooLong => "File name too long (os error 36)"

/-- What a path leads to: an image is an executable file of which is known what it does. -/
inductive Node (π : Type)
  | directory
  | file (content : ByteArray)
  | image (what : π)

structure FileTree (π : Type) where
  nodes : List (List String × Node π)

namespace FileTree

variable {π : Type}

def node? (tree : FileTree π) (names : List String) : Option (Node π) :=
  match tree.nodes.lookup names with
  | some node => some node
  | none =>
    if names = [] ∨ tree.nodes.any fun (path, _) => names.isPrefixOf path then some .directory
    else none

def walk (tree : FileTree π) (place : List String) : List String → Except OsError (List String)
  | [] => if (tree.node? place).isSome then .ok place else .error .notFound
  | name :: rest =>
    match tree.node? place with
    | none => .error .notFound
    | some .directory =>
      if name = "" ∨ name = "." then tree.walk place rest
      else if name = ".." then tree.walk place.dropLast rest
      else if 255 < name.utf8ByteSize then .error .nameTooLong
      else tree.walk (place ++ [name]) rest
    | some _ => .error .notDirectory

def resolve (tree : FileTree π) (directory : List String) (path : String) :
    Except OsError (List String) :=
  if path = "" then .error .notFound
  else if 4096 ≤ path.utf8ByteSize then .error .nameTooLong
  else tree.walk (if path.startsWith "/" then [] else directory) (path.splitOn "/")

def lookup (tree : FileTree π) (directory : List String) (path : String) :
    Except OsError (Node π) := do
  match tree.node? (← tree.resolve directory path) with
  | some node => .ok node
  | none => .error .notFound

def exists? (tree : FileTree π) (directory : List String) (path : String) : Bool :=
  (tree.resolve directory path).toBool

def read (tree : FileTree π) (directory : List String) (path : String) :
    Except OsError ByteArray := do
  match ← tree.lookup directory path with
  | .file content => .ok content
  | .directory => .error .isDirectory
  | .image _ => .ok ByteArray.empty

end FileTree

namespace Path

def join (directory name : String) : String :=
  if name.startsWith "/" ∨ directory = "" then name
  else if directory.endsWith "/" then directory ++ name
  else directory ++ "/" ++ name

def absolute (names : List String) : String := String.join (names.map ("/" ++ ·))

def parent (path : String) : String :=
  String.ofList ((path.toList.reverse.dropWhile (· ≠ '/')).drop 1).reverse

end Path

end Sandbox
