import Octet.Error

/-!
# Texture headers

A texture file starts with a signature and a version, the preamble. The layout of version 1.0
goes on with a header of fixed size: compression, a flag for mip maps, the size in pixels, and
sixteen slots that say where the payload of each mip level lies. The payloads follow.

## Main definitions

* `Preamble`, `Version`: the start of every texture file and the layouts it can announce.
* `Compression`, `Extent`, `Header`: the header of version 1.0.
* `Header.level?`, `Header.levelCount`: the populated slots.
* `chainLength`: how many mip levels a texture can have.
-/

namespace Octet.Texture

/-! ## Preamble -/

/-- The bytes `HTEX`, as a little-endian number. -/
def signature : UInt32 := 0x58455448

/-- The known layouts of a header. -/
inductive Version
  | v1_0
  deriving DecidableEq, Repr

namespace Version

/-- The number that stands for a layout in a file. -/
def raw : Version → UInt32
  | v1_0 => 0x0100

def ofRaw? (raw : UInt32) : Option Version :=
  if raw = v1_0.raw then some v1_0 else none

end Version

/-- The signature and the version of a texture file. -/
structure Preamble where
  signature : UInt32 := Texture.signature
  version : UInt32 := 0
  deriving DecidableEq, Repr

/-- The layout that a preamble announces. -/
def Preamble.layout (preamble : Preamble) : Except Error Version :=
  match Version.ofRaw? preamble.version with
  | some version => .ok version
  | none => .error (.version preamble.version)

/-! ## Header -/

/-- The ways in which pixels are compressed. -/
inductive Compression
  | uncompressed | dxt1 | dxt3 | dxt5
  deriving DecidableEq, Repr

namespace Compression

/-- The byte that stands for a compression in a file. -/
def code : Compression → UInt8
  | uncompressed => 0
  | dxt1 => 1
  | dxt3 => 2
  | dxt5 => 3

def ofCode? (code : UInt8) : Option Compression :=
  [uncompressed, dxt1, dxt3, dxt5].find? (·.code = code)

def name : Compression → String
  | uncompressed => "none"
  | dxt1 => "DXT1"
  | dxt3 => "DXT3"
  | dxt5 => "DXT5"

@[simp, grind =] theorem ofCode?_code (c : Compression) : ofCode? c.code = some c := by
  cases c <;> decide

end Compression

/-- The stretch of a file that holds the payload of a mip level. -/
structure Extent where
  offset : UInt32 := 0
  length : UInt32 := 0
  deriving DecidableEq, Repr

/-- The offset of the first byte after an extent. -/
def Extent.stop (extent : Extent) : Nat := extent.offset.toNat + extent.length.toNat

/-- The number of slots for mip levels. -/
def levelLimit : Nat := 16

/-- The header of version 1.0. Slots that are not in use have length zero. -/
structure Header where
  /-- The version as the preamble gives it. -/
  version : UInt32 := Version.v1_0.raw
  compression : Compression := .uncompressed
  hasMips : Bool := false
  width : UInt16 := 0
  height : UInt16 := 0
  levels : Vector Extent levelLimit := Vector.replicate levelLimit {}
  deriving DecidableEq, Repr

namespace Header

def offsets (header : Header) : Vector UInt32 levelLimit := header.levels.map Extent.offset

def lengths (header : Header) : Vector UInt32 levelLimit := header.levels.map Extent.length

/-- The number of slots in use before the first that is not. -/
def levelCount (header : Header) : Nat :=
  (header.lengths.toList.takeWhile (· ≠ 0)).length

/-- Where the payload of a mip level lies, if its slot exists and is in use. -/
def level? (header : Header) (level : Nat) : Option Extent :=
  header.levels[level]?.filter (·.length ≠ 0)

/-- One line for each field and one for each slot. -/
def describe (header : Header) : String :=
  s!"Size: {header.width}x{header.height}\n" ++
    s!"Has mip maps: {header.hasMips}\n" ++
    s!"Compression: {header.compression.name}\n" ++
    "Mip map infos:\n" ++
    String.join (header.levels.toList.zipIdx.map fun (extent, index) =>
      s!"\t#{index}:\tOffset {extent.offset};\tLength: {extent.length}\n")

end Header

/-! ## Mip chains -/

/-- Whether a number is a power of two. -/
def isPowerOfTwo (n : Nat) : Bool := 1 <<< n.log2 = n

/-- The number of mip levels of a texture both of whose sides are powers of two. The chain ends
when the smaller side is one pixel. -/
def chainLength (width height : UInt16) : Option Nat :=
  if isPowerOfTwo width.toNat && isPowerOfTwo height.toNat then
    some (min ((min width.toNat height.toNat).log2 + 1) levelLimit)
  else none

end Octet.Texture
