/-!
# Errors

The reasons for which an operation on a stream, a sink, a source, a writer, a reader, a texture
or a connection is refused, and their wording.

## Main definitions

* `StreamFault`, `HeaderDefect`: what can be wrong with a stream and with a texture header.
* `Error`: every reason, `Error.message` its text.
-/

namespace Octet

/-- The hexadecimal digits of a number, padded with zeros to at least `width` digits. -/
def hexadecimal (width n : Nat) : String :=
  let digits := Nat.toDigits 16 n
  String.ofList (List.replicate (width - digits.length) '0' ++ digits)

/-- The reasons for which a stream refuses a call. -/
inductive StreamFault
  /-- A write accepted nothing although bytes were left. -/
  | stalled
  /-- The place sought lies before the start or beyond what an offset can say. -/
  | unreachable
  /-- The end of the stream is not known. -/
  | endless
  /-- The device below gives a reason of its own. -/
  | device (reason : String)
  deriving DecidableEq, Repr

def StreamFault.message : StreamFault → String
  | stalled => "failed to write whole buffer"
  | unreachable => "invalid seek to a negative or overflowing position"
  | endless => "no end"
  | device reason => reason

/-- The reasons for which a texture header cannot be written or used. -/
inductive HeaderDefect
  | tooManyLevels (count : Nat)
  | offsetTooLarge
  | lengthTooLarge
  | unknownCompression (code : UInt8)
  | emptyLevel (level : Nat)
  | levelPastEnd (level start stop size : Nat)
  /-- A client's own reason for giving a message up. -/
  | refused (reason : String)
  deriving DecidableEq, Repr

def HeaderDefect.message : HeaderDefect → String
  | tooManyLevels count => s!"{count} mip levels exceed the maximum of 16"
  | offsetTooLarge => "mip offset exceeds 4 GiB"
  | lengthTooLarge => "mip length exceeds 4 GiB"
  | unknownCompression code => s!"unknown compression {code.toNat}"
  | emptyLevel level => s!"mip level {level} is empty"
  | levelPastEnd level start stop size =>
    s!"mip level {level} spans {start}..{stop} past end of file at {size}"
  | refused reason => reason

/-- The reasons for which an operation is refused. -/
inductive Error
  | stream (fault : StreamFault)
  /-- A chain of writes failed somewhere, the sink being at `position` now. -/
  | writeChain (position : Nat)
  /-- A chain of reads failed somewhere, the source being at `position` now. -/
  | readChain (position : Nat)
  | writerFailed
  /-- A correction of `width` bytes at `offset` reaches past `stop`, where the written bytes end. -/
  | patchOutOfRange (offset width stop : Nat)
  | unseekable
  | seekOutOfRange (position size : Nat)
  | signature (expected found : UInt32)
  | version (found : UInt32)
  | header (defect : HeaderDefect)
  | sendOverflow (requested limit : Nat)
  | transport (reason : String)
  deriving DecidableEq, Repr

namespace Error

/-- The text of an error. Signatures are written with eight hexadecimal digits, versions with at
least four. -/
def message : Error → String
  | stream fault => s!"I/O error: {fault.message}"
  | writeChain position => s!"Write chain failed at position {position}"
  | readChain position => s!"Read chain failed at position {position}"
  | writerFailed => "Writer is in failed state"
  | patchOutOfRange offset width stop =>
    s!"Backpatch of {width} bytes at offset {offset} exceeds written length {stop}"
  | unseekable => "Source does not support random access"
  | seekOutOfRange position size =>
    s!"Seek to {position} is past the end of the source ({size} bytes)"
  | signature expected found =>
    "Invalid signature: expected 0x" ++ hexadecimal 8 expected.toNat ++
      ", found 0x" ++ hexadecimal 8 found.toNat
  | version found => "Unsupported format version: 0x" ++ hexadecimal 4 found.toNat
  | header defect => s!"Invalid header: {defect.message}"
  | sendOverflow requested limit =>
    s!"Send buffer overflow: {requested} bytes requested, limit is {limit}"
  | transport reason => s!"Transport error: {reason}"

/-- Whether an error only says that a correction lies outside the written bytes. -/
def isPatchOutOfRange : Error → Bool
  | patchOutOfRange .. => true
  | _ => false

end Error

end Octet
