import Octet.Settings.Basic

/-!
# Faults of settings

The reasons for which settings are not read, not written or not accepted, and their wording.

## Main definitions

* `SettingsFault`: every reason.
* `Settings.check`: accepts settings with which nothing is wrong.
-/

namespace Octet

/-- The reasons for which settings are not read, written or accepted. -/
inductive SettingsFault
  | opening (reason : String)
  | reading (reason : String)
  | parsing (reason : String)
  | printing (reason : String)
  | writing (reason : String)
  | rejected (problems : List Problem)
  /-- A logger is at work already. -/
  | loggerInstalled
  /-- A client's own reason. -/
  | refused (reason : String)
  deriving DecidableEq, Repr

def SettingsFault.message (fault : SettingsFault) : String :=
  "Configuration error: " ++
    match fault with
    | opening reason => "Failed to open config file: " ++ reason
    | reading reason => "Failed to read config file: " ++ reason
    | parsing reason => "Failed to parse TOML: " ++ reason
    | printing reason => "Failed to serialize config: " ++ reason
    | writing reason => "Failed to write config file: " ++ reason
    | rejected problems =>
      "Configuration validation failed:" ++
        String.join (problems.map fun problem => "\n  - " ++ problem.message)
    | loggerInstalled =>
      "Failed to install logger: a global default trace dispatcher has already been set"
    | refused reason => reason

/-- Accepts settings with which nothing is wrong. -/
def Settings.check (settings : Settings) : Except SettingsFault Unit :=
  if settings.problems = [] then .ok () else .error (.rejected settings.problems)

end Octet
