import LedgerSearch.CommandLine
import LedgerSearch.Replay

/-
  The program. It reads closed ledgers from a file or from standard input and writes the bulk bodies
  that index them to standard output. Everything else it has to say goes to standard error.
-/

namespace LedgerSearch

/-- What is left of a stream. -/
partial def readAll (s : IO.FS.Stream) (seen : ByteArray) : IO ByteArray := do
  let bs ← s.read 65536
  if bs.isEmpty then pure seen else readAll s (seen ++ bs)

/-- Runs a program whose bulk bodies are written out and count as taken; a source it has none. -/
def perform {α : Type} (out : IO.FS.Stream) : Program (Site BulkBody) α → IO (Outcome α)
  | .done a => pure (.ok a)
  | .stop f => pure (.error f)
  | .ask (.history _) next => perform out (next (.error (.other "no source of history")))
  | .ask (.index (.bulk body)) next => do
    out.putStr (BulkBody.text body)
    out.flush
    perform out (next (.ok { items := body.length }))
  | .ask (.index .bounds) next => perform out (next (.ok none))
  | .ask (.index (.seqsIn _ _)) next => perform out (next (.ok []))
  | .ask (.index (.count _)) next => perform out (next (.ok 0))
  | .ask (.index (.buckets _ _ _)) next => perform out (next (.ok []))
  | .ask (.index (.create _ _)) next => perform out (next (.ok ()))
  | .ask (.index (.delete _)) next => perform out (next (.ok ()))
  | .ask (.wait ms) next => do
    IO.sleep (UInt32.ofNat ms)
    perform out (next ())
  | .ask (.increment _ _) next => perform out (next ())

/-- The text of a file, if it can be read. -/
def fileText? (path : String) : IO (Option String) := do
  try
    let text ← IO.FS.readFile path
    pure (some text)
  catch _ => pure none

/-- The settings of a file, where there is one, and of the environment. -/
def readSettings (path : String) : IO (Outcome Settings) := do
  let file ← fileText? path
  let environment ← Settings.variableNames.filterMapM fun name => do
    let text ← IO.getEnv name
    pure (text.map fun text => (name, text))
  pure (Settings.load ((file.map Settings.Source.file).getD .none) environment)

/-- Indexes a whole stream: it is read to its end before the first frame is looked at. -/
def replay (settings : Settings) (input : String) : IO (Outcome ReplayReport) := do
  let bytes ← if input = Invocation.standardInput then readAll (← IO.getStdin) .empty
    else IO.FS.readBinFile input
  let writer : Writer :=
    ⟨UInt32.ofNat settings.indexer.bulkRetries, settings.indexer.retryBackoffMs⟩
  let r : Replay :=
    ⟨Network.ofPassphrase settings.indexer.networkPassphrase, ⟨settings.search.deployment, writer⟩⟩
  perform (← IO.getStdout) (r.run { input := [.data bytes.toList] })

/-- Runs a command and answers with the exit status. -/
def execute (invocation : Invocation) : IO UInt32 := do
  match ← readSettings invocation.config with
  | .error e =>
    IO.eprintln e.message
    pure 1
  | .ok settings =>
    match invocation.command with
    | .settings =>
      IO.println settings.toJson.text
      pure 0
    | .replay input =>
      match ← replay settings input with
      | .error f =>
        IO.eprintln f.message
        pure 1
      | .ok report =>
        IO.eprintln report.toJson.text
        pure 0

end LedgerSearch

/-- Arguments that ask for nothing known end with status 2. -/
def main (args : List String) : IO UInt32 := do
  match LedgerSearch.Invocation.ofArgs? args with
  | some invocation => LedgerSearch.execute invocation
  | none => do
    IO.eprintln LedgerSearch.Invocation.usage
    pure 2
