import Octet.File
import Octet.Source.Stream
import Octet.Text.Size
import Octet.Texture.Load

/-!
# Inspecting texture files

The command line describes a texture file or says where one of its mip levels lies.

## Main definitions

* `Command`, `Command.ofArgs?`: what is asked.
* `Outcome`, `inspect`: what is printed, and the code with which the program ends.
-/

namespace Octet.CommandLine

/-- What the command line asks for. -/
inductive Command
  | help
  | info (path : String)
  | level (level : Nat) (path : String)
  deriving DecidableEq, Repr

def Command.ofArgs? : List String → Option Command
  | [flag] => if flag = "-h" ∨ flag = "--help" then some help else none
  | [flag, path] => if flag = "-i" ∨ flag = "--info" then some (info path) else none
  | [flag, number, path] =>
    if flag = "-m" ∨ flag = "--mip" then (Text.size? number).map (level · path) else none
  | _ => none

/-- The file that a command is about. -/
def Command.path? : Command → Option String
  | help => none
  | info path => some path
  | level _ path => some path

def usage : String :=
  "Texture Tool 0.3.0, available options\n" ++
    "  -h, --help                 produce help message\n" ++
    "  -i, --info <file>          describe the htex file\n" ++
    "  -m, --mip <level> <file>   report the size of one mip level payload\n"

/-- What a program prints and the code with which it ends. -/
structure Outcome where
  code : UInt8 := 0
  out : String := ""
  err : String := ""
  deriving DecidableEq, Repr

/-- Reads the header of a texture file. -/
def readHeader (file : File) : Except Error Texture.Header := do
  let stream ←
    match file.open? with
    | .ok stream => .ok stream
    | .error reason => .error (.stream (.device reason))
  let source ← StreamSource.ofStream stream
  match Texture.load (Reader.mk source false) with
  | .ok header _ => .ok header
  | .error e _ => .error e

/-- Where a mip level lies, in words. -/
def describeLevel (header : Texture.Header) (level : Nat) : Except Error String :=
  match header.level? level with
  | some extent => .ok s!"Mip #{level}: {extent.length} bytes at offset {extent.offset}\n"
  | none => .error (.header (.emptyLevel level))

def report : Except Error String → Outcome
  | .ok text => { out := text }
  | .error e => { code := 1, err := s!"Failed to read htex file: {e.message}\n" }

/-- Answers a command line. -/
def inspect (files : String → File) (args : List String) : Outcome :=
  match Command.ofArgs? args with
  | none => { code := 1, err := usage }
  | some .help => { err := usage }
  | some (.info path) => report do
    let header ← readHeader (files path)
    return header.describe
  | some (.level level path) => report do
    let header ← readHeader (files path)
    describeLevel header level

end Octet.CommandLine
