import Octet.Texture.Header
import Octet.Writer

/-!
# Saving textures

A texture is written in one forward pass. The slots of the mip levels hold zeros until the
payloads are written; then every slot is committed, the offsets before the lengths.

## Main definitions

* `Draft`: a header whose slots are still open.
* `save`: a whole texture.
-/

namespace Octet.Texture

variable {σ : Type} [Sink σ]

/-- Writes a preamble. -/
def Preamble.write (preamble : Preamble) : Action (Writer σ) Unit := do
  modify (·.write .u32 preamble.signature)
  modify (·.write .u32 preamble.version)
  Writer.finish

/-- The open slots of a header that has been written. -/
structure Draft where
  offsets : SlotArray .u32 levelLimit
  lengths : SlotArray .u32 levelLimit
  deriving DecidableEq, Repr

namespace Draft

/-- Writes a preamble and a header with open slots. -/
def start (header : Header) : Action (Writer σ) Draft := do
  Preamble.write { version := header.version }
  modify (·.write .u8 header.compression.code)
  modify (·.write .bool header.hasMips)
  modify (·.write .u16 header.width)
  modify (·.write .u16 header.height)
  let offsets ← modifyGet (·.reserveArray .u32 levelLimit)
  let lengths ← modifyGet (·.reserveArray .u32 levelLimit)
  Writer.finish
  return ⟨offsets, lengths⟩

/-- Commits the slots. -/
def finish (draft : Draft) (header : Header) : Action (Writer σ) Unit := do
  Writer.commitArray draft.offsets header.offsets
  Writer.commitArray draft.lengths header.lengths
  Writer.finish

end Draft

/-- Writes the payload of a mip level and notes in the header where it lies. -/
def appendLevel (level : Nat) (payload : Bytes) : Action (Header × Writer σ) Unit := do
  let (header, w) ← get
  unless w.position < UInt32.size do throw (.header .offsetTooLarge)
  unless payload.length < UInt32.size do throw (.header .lengthTooLarge)
  let extent : Extent := ⟨UInt32.ofNat w.position, UInt32.ofNat payload.length⟩
  set ({ header with levels := header.levels.setIfInBounds level extent }, w.append payload)

/-- Writes the payloads of consecutive mip levels. -/
def appendLevels : Nat → List Bytes → Action (Header × Writer σ) Unit
  | _, [] => pure ()
  | level, payload :: rest => do
    appendLevel level payload
    appendLevels (level + 1) rest

/-- Writes a whole texture through a writer. -/
def saveThrough (payloads : List Bytes) : Action (Header × Writer σ) Unit := do
  if levelLimit < payloads.length then throw (.header (.tooManyLevels payloads.length))
  let draft ← Action.onSnd (Draft.start (← get).1)
  modify fun (header, w) => ({ header with levels := Vector.replicate levelLimit {} }, w)
  appendLevels 0 payloads
  Action.onSnd Writer.finish
  Action.onSnd (draft.finish (← get).1)
  Action.onSnd Writer.flush

/-- Writes a whole texture to a sink: preamble, header and payloads, back to back. The header
tells afterwards where the payloads lie. -/
def save (payloads : List Bytes) : Action (Header × σ) Unit :=
  Action.on (fun (header, sink) => (header, Writer.mk sink false))
    (fun (header, w) _ => (header, w.sink)) (saveThrough payloads)

end Octet.Texture
