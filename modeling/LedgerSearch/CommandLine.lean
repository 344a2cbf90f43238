import LedgerSearch.Settings.Load

/-
  The words the program is started with.
-/

namespace LedgerSearch

/-- What the program is asked to do. -/
inductive Command where
  /-- Index the closed ledgers of a file, or of standard input. -/
  | replay (input : String)
  /-- Show the settings in effect. -/
  | settings
deriving DecidableEq

/-- A command and where its settings are read from. -/
structure Invocation where
  /-- The file that settings are read from. -/
  config : String := "indexer.toml"
  command : Command
deriving DecidableEq

namespace Invocation

/-- What stands for standard input in the place of a file. -/
def standardInput : String := "-"

/-- The line shown for arguments that ask for nothing known. -/
def usage : String := "usage: ledger-indexer [--config FILE] (ingest-stream INPUT | settings)"

/-- A command stands alone: more words than its own are refused. -/
def ofCommand? : List String → Option Command
  | ["ingest-stream", input] => some (.replay input)
  | ["settings"] => some .settings
  | _ => none

/-- A configuration file may be named before the command. -/
def ofArgs? : List String → Option Invocation
  | "--config" :: config :: rest => (ofCommand? rest).map fun command => { config, command }
  | "-c" :: config :: rest => (ofCommand? rest).map fun command => { config, command }
  | rest => (ofCommand? rest).map fun command => { command }

end Invocation

namespace Settings

/-- The name of the variable that sets a field. -/
def variableName (sectionName field : String) : String :=
  String.ofList ((variableMark ++ sectionName ++ "__" ++ field).toList.map Char.toUpper)

/-- The names of the variables that set a field each. -/
def variableNames : List String :=
  ((toJson {}).asObject?.getD []).flatMap fun (sectionName, fields) =>
    (fields.asObject?.getD []).map fun (field, _) => variableName sectionName field

end Settings

end LedgerSearch
