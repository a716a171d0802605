import Octet.Settings.Toml

/-!
# Settings by the library at work

## Main definitions

* `Settings.ofText`, `Settings.load`, `Settings.save`, `Settings.ofEnvironment`: what a `Library` is
  for, with the one at work.
-/

namespace Octet.Settings

def ofText : String → Except SettingsFault Settings := Library.toml.ofText

def exampleText : String := Library.toml.exampleText

def load : File → Except SettingsFault Settings := Library.toml.load

def save : Settings → EStateM SettingsFault File Unit := Library.toml.save

def ofEnvironment : Environment → Settings := Library.toml.ofEnvironment

end Octet.Settings
