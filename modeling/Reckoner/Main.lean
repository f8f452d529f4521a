import Reckoner.Console
import Reckoner.Json.Printer
import Std.Time.DateTime.Timestamp

/-!
# The program

Reads lines from standard input and writes the answer to each as a line of JSON. The environment
variables `RECKONER_PRECISION` and `RECKONER_MAX_DEPTH` override the settings of that name.
-/

namespace Reckoner

/-- The reading of the system clock. -/
def systemClock : IO Moment := do
  return ⟨(← Std.Time.Timestamp.now).toNanosecondsSinceUnixEpoch.val, none⟩

/-- The exit code after a line that no answer may be given to. -/
def abortCode : UInt32 := 101

/-- Answers lines until the input ends. -/
def answerLines (settings : Settings) (input output : IO.FS.Stream) : IO UInt32 := do
  repeat
    let line ← input.getLine
    if line.isEmpty then break
    if let some r := Reply.ofLine? standardLibrary ⟨settings, ← systemClock⟩ line then
      if r.isAbort then return abortCode
      output.putStrLn (Json.toText r.toJson)
      output.flush
  return 0

end Reckoner

def main : IO UInt32 := do
  let precision ← IO.getEnv "RECKONER_PRECISION"
  let maxDepth ← IO.getEnv "RECKONER_MAX_DEPTH"
  let settings := Reckoner.Settings.override {} precision maxDepth
  Reckoner.answerLines settings (← IO.getStdin) (← IO.getStdout)
