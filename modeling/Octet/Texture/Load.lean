import Octet.Texture.Header
import Octet.Reader

/-!
# Loading textures

## Main definitions

* `Preamble.read`, `Header.read`: the parts of a texture file, each read whole or not at all.
* `load`: the header of a texture file.
* `readLevel`: the payload of one mip level.
-/

namespace Octet.Texture

variable {σ : Type} [Source σ]

/-- Reads a preamble. The version is only looked at after a known signature. -/
def Preamble.read (current : Preamble) : Action (Reader σ) Preamble := do
  let found ← modifyGet (Reader.read .u32 0)
  Reader.finish
  unless found = Texture.signature do throw (.signature Texture.signature found)
  let version ← modifyGet (Reader.read .u32 current.version)
  Reader.finish
  return ⟨found, version⟩

/-- Reads the fields of a header that follow the preamble. -/
def Header.read (current : Header) : Action (Reader σ) Header := do
  let code ← modifyGet (Reader.read .u8 0)
  let hasMips ← modifyGet (Reader.read .bool false)
  let width ← modifyGet (Reader.read .u16 0)
  let height ← modifyGet (Reader.read .u16 0)
  let offsets ← modifyGet (Reader.readArray .u32 (Vector.replicate levelLimit 0))
  let lengths ← modifyGet (Reader.readArray .u32 (Vector.replicate levelLimit 0))
  Reader.finish
  match Compression.ofCode? code with
  | none => throw (.header (.unknownCompression code))
  | some compression =>
    return {
      version := current.version, compression, hasMips, width, height,
      levels := Vector.zipWith Extent.mk offsets lengths }

/-- Reads a preamble in place of another one. -/
def Preamble.load : Action (Preamble × Reader σ) Unit := Action.replace Preamble.read

/-- Reads a header in place of another one. -/
def Header.load : Action (Header × Reader σ) Unit := Action.replace Header.read

/-- Reads a preamble and the header that it announces. -/
def load : Action (Reader σ) Header := do
  let preamble ← Preamble.read {}
  match ← Action.conclude preamble.layout with
  | .v1_0 => Header.read { version := preamble.version }

/-- Reads the payload of a mip level from where the header says it lies. An extent that leaves
the source is refused before anything is read. -/
def readLevel (header : Header) (level : Nat) : Action (Reader σ) Bytes := do
  match header.level? level with
  | none => throw (.header (.emptyLevel level))
  | some extent =>
    if let some size ← Reader.onSource (modifyGet Source.size) then
      if size < extent.stop then
        throw (.header (.levelPastEnd level extent.offset.toNat extent.stop size))
    Reader.onSource (Source.seek extent.offset.toNat)
    let payload ← modifyGet (Reader.fill extent.length.toNat)
    Reader.finish
    return payload.bytes

end Octet.Texture
