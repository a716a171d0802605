/-!
# Settings

The sizes of the buffers of a connection and what is logged.

## Main definitions

* `Level`, `BufferSettings`, `LogSettings`, `Settings`, each with its defaults.
* `Problem`: what can be wrong with settings that can be read.
* `Settings.problems`: all that is wrong.
-/

namespace Octet

/-! ## Levels -/

/-- How much is logged, from everything to errors alone. -/
inductive Level
  | trace | debug | info | warn | error
  deriving DecidableEq, Repr

namespace Level

def name : Level → String
  | trace => "trace"
  | debug => "debug"
  | info => "info"
  | warn => "warn"
  | error => "error"

end Level

/-! ## Settings -/

/-- The sizes of the buffers of a connection, in bytes. -/
structure BufferSettings where
  sendCapacity : Nat := 4096
  receiveCapacity : Nat := 4096
  /-- The most bytes that one message may have. -/
  sendLimit : Nat := 16777216
  deriving DecidableEq, Repr

structure LogSettings where
  appName : String := "binary-io"
  level : Level := .info
  toConsole : Bool := true
  asJson : Bool := false
  deriving DecidableEq, Repr

structure Settings where
  buffers : BufferSettings := {}
  logging : LogSettings := {}
  deriving DecidableEq, Repr

/-! ## Problems -/

/-- What can be wrong with settings. -/
inductive Problem
  | noSendBuffer
  | sendBufferTooLarge (size : Nat)
  | sendCapacityAboveLimit
  | receiveCapacityTooLarge (size : Nat)
  | nameless
  | nameTooLong (size : Nat)
  deriving DecidableEq, Repr

def Problem.message : Problem → String
  | noSendBuffer => "Max send buffer cannot be 0"
  | sendBufferTooLarge size =>
    s!"Max send buffer too large: {size} bytes (maximum recommended: 256 MB)"
  | sendCapacityAboveLimit => "Initial send capacity cannot exceed max send buffer"
  | receiveCapacityTooLarge size =>
    s!"Initial receive capacity too large: {size} bytes (maximum: 64 MB)"
  | nameless => "Application name cannot be empty"
  | nameTooLong size => s!"Application name too long: {size} characters (maximum: 64)"

/-- A list of at most one problem. -/
def Problem.when (condition : Prop) [Decidable condition] (problem : Problem) : List Problem :=
  if condition then [problem] else []

def BufferSettings.problems (buffers : BufferSettings) : List Problem :=
  Problem.when (buffers.sendLimit = 0) .noSendBuffer ++
    Problem.when (256 * 1024 * 1024 < buffers.sendLimit) (.sendBufferTooLarge buffers.sendLimit) ++
    Problem.when (buffers.sendLimit < buffers.sendCapacity) .sendCapacityAboveLimit ++
    Problem.when (64 * 1024 * 1024 < buffers.receiveCapacity)
      (.receiveCapacityTooLarge buffers.receiveCapacity)

/-- The name is measured in bytes of UTF-8. -/
def LogSettings.problems (logging : LogSettings) : List Problem :=
  Problem.when (logging.appName = "") .nameless ++
    Problem.when (64 < logging.appName.utf8ByteSize) (.nameTooLong logging.appName.utf8ByteSize)

/-- All that is wrong with settings, the buffers first. -/
def Settings.problems (settings : Settings) : List Problem :=
  settings.buffers.problems ++ settings.logging.problems

end Octet
