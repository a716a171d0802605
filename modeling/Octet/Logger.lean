import Octet.Settings.Fault

/-!
# The logger of a process

A process has at most one logger, which stays once it is installed.

## Main definitions

* `Logger.install`.
-/

namespace Octet

/-- The logger of a process, with its settings once it is installed. -/
structure Logger where
  installed : Option LogSettings := none
  deriving DecidableEq, Repr

/-- Installs a logger, if the console is to be logged to at all. -/
def Logger.install (settings : LogSettings) : EStateM SettingsFault Logger Unit := do
  if settings.toConsole then
    if (← get).installed.isSome then throw .loggerInstalled
    set (Logger.mk (some settings))

end Octet
