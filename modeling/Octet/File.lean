import Octet.Stream

/-!
# Files

What a path can lead to, and how it answers to opening, reading and writing.

## Main definitions

* `File`.
* `File.Trail`, `File.find`: the ways to files, and what a path leads to where only some are known.
* `File.open?`: a file as a stream.
* `File.write?`: a file with new contents.
-/

namespace Octet

/-- What a path leads to. -/
inductive File
  /-- Nothing yet; a file can be made. -/
  | absent
  | directory
  | holding (content : Bytes)
  /-- Nothing that can be opened or made, for a reason. -/
  | unreachable (reason : String)

namespace File

/-- The reason why nothing is found. -/
def notFound : String := "No such file or directory (os error 2)"

/-- The reason why a directory is neither read nor written. -/
def isDirectory : String := "Is a directory (os error 21)"

/-! ## Paths -/

/-- The reason why a name is not even looked up. -/
def nameTooLong : String := "File name too long (os error 36)"

/-- The reason why nothing is looked up below a file. -/
def notDirectory : String := "Not a directory (os error 20)"

/-- The most bytes that one name of a path may have. -/
def nameLimit : Nat := 255

/-- The most bytes that a path may have. -/
def pathLimit : Nat := 4095

/-- The names on the way to a file or a directory, the last one first. The way starts from the
name `/` or, without it, from the directory at work. -/
abbrev Trail := List String

namespace Trail

/-- The way to the directory above. The root is above itself. -/
def parent : Trail → Trail
  | ["/"] => ["/"]
  | [] => [".."]
  | name :: rest => if name = ".." then name :: name :: rest else rest

/-- The way along a path without dots. -/
def ofPath (path : String) : Trail :=
  match path.splitOn "/" with
  | "" :: names => names.reverse ++ ["/"]
  | names => names.reverse

end Trail

/-- What further names lead to from a directory, where only the `known` ways lead anywhere. -/
def walk (known : List (Trail × File)) (here : Trail) : List String → File
  | [] => directory
  | name :: rest =>
    if name = "" ∨ name = "." then walk known here rest
    else if name = ".." then walk known here.parent rest
    else if nameLimit < name.utf8ByteSize then unreachable nameTooLong
    else
      match known.lookup (name :: here) with
      | none => absent
      | some directory => walk known (name :: here) rest
      | some file => if rest = [] then file else unreachable notDirectory

/-- What a path leads to where only the `known` paths lead anywhere. -/
def find (known : List (String × File)) (path : String) : File :=
  let known := known.map fun (path, file) => (Trail.ofPath path, file)
  if path = "" then absent
  else if pathLimit < path.utf8ByteSize then unreachable nameTooLong
  else
    match path.splitOn "/" with
    | "" :: names => walk known ["/"] names
    | names => walk known [] names

/-! ## Contents -/

/-- Opens a file as a stream. A directory can be opened, but every transfer fails. -/
def open? : File → Except String Stream
  | absent => .error notFound
  | directory =>
    .ok { content := [], faults := { transfer := fun _ => .fails isDirectory } }
  | holding content => .ok { content }
  | unreachable reason => .error reason

/-- Replaces the contents of a file. -/
def write? (data : Bytes) : File → Except String File
  | absent | holding _ => .ok (holding data)
  | directory => .error isDirectory
  | unreachable reason => .error reason

end File

end Octet
