import Octet.File
import Octet.Settings.Fault
import Octet.Text.Size
import Octet.Toml.Schema

/-!
# Settings in files and in the environment

Settings are written and read by means of a library. It decides what a settings file looks like,
how a record comes out of it, and in which ways a level can be spelled; which records there are,
with which fields, and what is wrong with a level that it does not know, is said here. A settings
file has a section for the buffers and one for logging, both with defaults. A section that is there
has all its fields.

## Main definitions

* `Library`: what settings need of a library.
* `Library.toText`, `Library.ofText`: settings as text.
* `Library.load`, `Library.save`: settings in a file.
* `Library.ofEnvironment`: the defaults with what the environment overrides.
-/

namespace Octet

open Toml

/-- What settings need of a library whose readers fail with an `ε`. -/
structure Library (ε : Type) where
  /-- A failure that is told in words of one's own. -/
  custom : String → ε
  message : ε → String
  size : Codec ε Atom Nat
  text : Codec ε Atom String
  truth : Codec ε Atom Bool
  /-- Makes the codec of a record from its declaration. -/
  record {δ α : Type} (schema : Schema ε δ α) : Codec ε (List (String × δ)) α
  print : Document → Except ε String
  parse : String → Except ε Value
  level? : String → Option Level

/-- The variables that are set to a text. -/
abbrev Settings.Environment := String → Option String

/-- The size that a variable holds, or else the default. -/
def Settings.Environment.size (env : Environment) (name : String) (default : Nat) : Nat :=
  ((env name).bind Text.size?).getD default

namespace Library

variable {ε : Type} (lib : Library ε)

/-! ## Records -/

/-- Levels are written by name, and read in any spelling that the library knows. -/
def level : Codec ε Atom Level where
  write level := lib.text.write level.name
  read value := do
    let text ← lib.text.read value
    match lib.level? text with
    | some level => .ok level
    | none => .error (lib.custom ("Invalid log level: " ++ text))

def bufferSchema : Schema ε Atom BufferSettings where
  name := "ConnectionConfig"
  base := {}
  fields := [
    lib.size.field "initial_send_capacity" (·.sendCapacity)
      fun sendCapacity buffers => { buffers with sendCapacity },
    lib.size.field "initial_receive_capacity" (·.receiveCapacity)
      fun receiveCapacity buffers => { buffers with receiveCapacity },
    lib.size.field "max_send_buffer" (·.sendLimit)
      fun sendLimit buffers => { buffers with sendLimit }]

def logSchema : Schema ε Atom LogSettings where
  name := "LoggingConfig"
  base := {}
  fields := [
    lib.text.field "app_name" (·.appName) fun appName logging => { logging with appName },
    lib.level.field "log_level" (·.level) fun level logging => { logging with level },
    lib.truth.field "log_to_console" (·.toConsole)
      fun toConsole logging => { logging with toConsole },
    lib.truth.field "json_format" (·.asJson) fun asJson logging => { logging with asJson }]

def buffers : Codec ε Section BufferSettings := lib.record lib.bufferSchema

def logging : Codec ε Section LogSettings := lib.record lib.logSchema

def schema : Schema ε Section Settings where
  name := "IoConfig"
  base := {}
  fields := [
    .orDefault (lib.buffers.field "connection" (·.buffers)
      fun buffers settings => { settings with buffers }),
    .orDefault (lib.logging.field "logging" (·.logging)
      fun logging settings => { settings with logging })]

def settings : Codec ε Document Settings := lib.record lib.schema

/-! ## Text -/

/-- Writes settings as the text of a file. -/
def toText (settings : Settings) : Except SettingsFault String :=
  match lib.print (lib.settings.write settings) with
  | .ok text => .ok text
  | .error fault => .error (.printing (lib.message fault))

/-- Reads settings from the text of a file. -/
def ofText (text : String) : Except SettingsFault Settings :=
  match lib.parse text >>= lib.settings.read with
  | .ok settings => .ok settings
  | .error fault => .error (.parsing (lib.message fault))

/-- A settings file with the defaults. -/
def exampleText : String :=
  match lib.toText {} with
  | .ok text => text
  | .error _ => "# Failed to generate example config"

/-! ## Files -/

/-- Reads settings from bytes in UTF-8. -/
def ofBytes (content : Bytes) : Except SettingsFault Settings :=
  match String.fromUTF8? ⟨content.toArray⟩ with
  | some text => lib.ofText text
  | none => .error (.reading "stream did not contain valid UTF-8")

/-- Reads settings from a file. -/
def load : File → Except SettingsFault Settings
  | .absent => .error (.opening File.notFound)
  | .unreachable reason => .error (.opening reason)
  | .directory => .error (.reading File.isDirectory)
  | .holding content => lib.ofBytes content

/-- Writes settings to a file. Settings that have no text leave the file alone. -/
def save (settings : Settings) : EStateM SettingsFault File Unit := fun file =>
  match lib.toText settings with
  | .error fault => .error fault file
  | .ok text =>
    match file.write? text.toUTF8.data.toList with
    | .ok file => .ok () file
    | .error reason => .error (.writing reason) file

/-! ## The environment -/

/-- The defaults, except for what variables override. A variable that does not fit is passed
over. -/
def ofEnvironment (env : Settings.Environment) : Settings :=
  let settings : Settings := {}
  { buffers := {
      sendCapacity := env.size "BINARY_IO_SEND_CAPACITY" settings.buffers.sendCapacity
      receiveCapacity := env.size "BINARY_IO_RECEIVE_CAPACITY" settings.buffers.receiveCapacity
      sendLimit := env.size "BINARY_IO_MAX_SEND_BUFFER" settings.buffers.sendLimit }
    logging := { settings.logging with
      level := ((env "BINARY_IO_LOG_LEVEL").bind lib.level?).getD settings.logging.level } }

end Library

end Octet
