/-! Files as a command sees them: names that lead to bytes, and the ways in which reading can
fail. -/
namespace TapeLang.CommandLine
set_option autoImplicit false

/-- Why a file gave no text. -/
inductive FileError where
  /-- The name leads nowhere. -/
  | missing
  /-- The name leads through something that is no directory. -/
  | notDirectory
  /-- The name leads to a directory. -/
  | isDirectory
  /-- The bytes are not UTF-8. -/
  | notText
  /-- The system gave another reason. -/
  | other (reason : String)
  deriving DecidableEq

/-- The cause of a failed read, as messages show it. -/
def FileError.message : FileError → String
  | missing => "No such file or directory (os error 2)"
  | notDirectory => "Not a directory (os error 20)"
  | isDirectory => "Is a directory (os error 21)"
  | notText => "stream did not contain valid UTF-8"
  | other reason => reason

/-! ## Names -/

/-- The parts of a path between its slashes. -/
def pathParts (path : String) : List String :=
  path.splitOn "/"

/-- Whether a part of a path stays where it is. -/
def isIdle (part : String) : Bool :=
  part = "" || part = "."

/-- The name of the file that a path leads to, if it ends in a name. -/
def fileName? (path : String) : Option String :=
  match ((pathParts path).filter (!isIdle ·)).getLast? with
  | some ".." => none
  | last => last

/-- The extension of a file name: what follows the last point, if anything stands before it. -/
def extension? (name : String) : Option String :=
  let reversed := name.toList.reverse
  match reversed.dropWhile (· ≠ '.') with
  | [] => none
  | [_] => none
  | _ :: _ :: _ => some (String.ofList (reversed.takeWhile (· ≠ '.')).reverse)

/-! ## A directory tree -/

/-- Files below a working directory, each with the names that lead to it. -/
structure FileTree where
  /-- The files and their contents. -/
  files : List (List String × ByteArray) := []

namespace FileTree

/-- The tree of files with the given paths. -/
def ofPaths (files : List (String × ByteArray)) : FileTree :=
  ⟨files.map fun file => ((pathParts file.1).filter (!isIdle ·), file.2)⟩

/-- The contents of the file at a place, if there is one. -/
def contents? (t : FileTree) (place : List String) : Option ByteArray :=
  (t.files.find? (·.1 = place)).map (·.2)

/-- Whether some file lies below a place. -/
def isDirectory (t : FileTree) (place : List String) : Bool :=
  t.files.any fun file => place.length < file.1.length && file.1.take place.length = place

/-- Where a path leads that has left the tree. Nothing is known there but the directories above. -/
def outside (parts : List String) : Except FileError ByteArray :=
  if parts.all fun part => isIdle part || part = ".." then .error .isDirectory
  else .error .missing

/-- Follows the parts of a path from a directory of the tree. -/
def follow (t : FileTree) (place : List String) : List String → Except FileError ByteArray
  | [] => .error .isDirectory
  | part :: rest =>
    if isIdle part then t.follow place rest
    else if part = ".." then
      if place.isEmpty then outside rest else t.follow place.dropLast rest
    else
      match t.contents? (place ++ [part]) with
      | some bytes => if rest.isEmpty then .ok bytes else .error .notDirectory
      | none =>
        if t.isDirectory (place ++ [part]) then t.follow (place ++ [part]) rest
        else .error .missing

/-- The bytes of the file that a path leads to. A path that starts with a slash starts outside the
tree. -/
def read (t : FileTree) (path : String) : Except FileError ByteArray :=
  match pathParts path with
  | "" :: parts => outside parts
  | parts => t.follow [] parts

end FileTree

end TapeLang.CommandLine
