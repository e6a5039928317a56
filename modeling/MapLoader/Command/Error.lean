import MapLoader.Command.Line
import MapLoader.Config.Layers
import MapLoader.Config.Settings
import MapLoader.Load.Extract
import MapLoader.Store.DatabaseFile

/-! Why a run of the program failed. -/

namespace MapLoader

inductive CommandError
  | line (source : LineError)
  | configuration (source : ConfigError)
  | settings (source : SettingsError)
  | prepareDatabase (path : String) (source : DatabaseFile.Error)
  | load (path : String) (source : LoadError)
  /-- The load came to its end, but not all was committed. -/
  | incompleteLoad (path : String) (failures : Nat)
  | createIndexes (path : String) (source : DatabaseFile.Error)
  deriving DecidableEq, Repr

namespace CommandError

def quoted (path : String) : String := Text.quote .word path

def message : CommandError → String
  | line .versionRequested => versionText
  | line .helpRequested | line .noCommand => s!"usage: {programName} load [options]"
  | line (.badValue field) => s!"invalid value for --{field.flag}"
  | line (.missingValue field) => s!"a value is required for --{field.flag}"
  | line .repeated => "an argument cannot be used more than once"
  | line .unexpectedValue => "an argument takes no value"
  | line .unknownArgument => "unexpected argument"
  | line .unknownCommand => "unrecognized subcommand"
  | configuration .file => "failed to load configuration: a file is not well-formed"
  | configuration .value => "failed to load configuration: a value does not fit its field"
  | settings source => source.message
  | prepareDatabase path source => s!"failed to prepare database at {quoted path}: {source.message}"
  | load path source => s!"failed to load {quoted path}: {source.message}"
  | incompleteLoad path failures =>
    s!"load of {quoted path} finished with {failures} failed flushes or commits"
  | createIndexes path source => s!"failed to create indexes in {quoted path}: {source.message}"

end CommandError

end MapLoader
