import Std.Time.DateTime
import ScriptFeatures.Run.CommandLine

/-! The program: files, the clock and the standard streams around a run. -/

namespace ScriptFeatures

def readBytes? (name : String) : IO (Option (List UInt8)) := do
  try
    let bytes ← IO.FS.readBinFile name
    return some bytes.toList
  catch _ => return none

def clock : IO Calendar.Moment := do
  let t := Std.Time.DateTime.ofTimestamp (← Std.Time.Timestamp.now) .UTC
  return ⟨t.year.toInt, t.month.toNat, t.day.toNat, t.hour.toNat, t.minute.toNat, t.second.toNat,
    t.nanosecond.toNat⟩

end ScriptFeatures

open ScriptFeatures

/-- Runs the program: the rows go to standard output, the summary or an error to standard error. A
bundle is saved before the first row is written. -/
def main (arguments : List String) : IO UInt32 := do
  let settings := (← IO.getEnv "JSFEAT_CONFIG_PATH").getD "config.json"
  let config := Config.PipelineConfig.ofFileOrDefault (← readBytes? settings)
  let files ← arguments.mapM fun name => return (name, ← readBytes? name)
  match Run.run config (fun name => (files.lookup name).join) (← clock) arguments with
  | .error e =>
    IO.eprintln ("Error: " ++ e.message)
    return 1
  | .ok outcome =>
    match outcome.bundle, outcome.summary.bundle with
    | some text, some name => IO.FS.writeFile name text
    | _, _ => pure ()
    for line in outcome.output do
      IO.print line
    IO.eprint (Run.emit outcome.summary.toJson)
    return 0
