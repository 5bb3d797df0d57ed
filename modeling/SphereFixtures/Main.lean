import SphereFixtures.Demo.Run
import Std.Time.Zoned

/-!
# The command line

Runs the demo on the arguments of the program: the console lines go to the
standard output and the log file, if one is named, is written.
-/

open SphereFixtures

def secondsText (milliseconds : Nat) : String :=
  Decimal.pointText 3 milliseconds

def timeText (time : Std.Time.PlainTime) : String :=
  let twoDigits (n : Int) : String :=
    String.ofList (Decimal.padLeft 2 (Decimal.digitChars n.toNat))
  ":".intercalate
    [twoDigits time.hour.val, twoDigits time.minute.val,
      twoDigits time.second.val]

def usageText (error : CommandLine.UsageError) : String :=
  "spheretest: error: " ++ error.message

def helpText : String :=
  "usage: spheretest " ++ " ".intercalate
    (Demo.options.map fun option => "[" ++ "/".intercalate option.spellings ++ "]")

def main (arguments : List String) : IO UInt32 := do
  match Demo.Arguments.ofList arguments with
  | .error .helpWanted =>
      IO.println helpText
      return 0
  | .error error =>
      IO.eprintln (usageText error)
      return 2
  | .ok arguments =>
      let time := timeText (← Std.Time.PlainTime.now)
      let started ← IO.monoMsNow
      let report := Demo.run arguments (← IO.getEnv Environment.seedVariable)
      let elapsed := secondsText ((← IO.monoMsNow) - started)
      let journal := Demo.journal arguments report
        { wall := elapsed, processor := elapsed }
      IO.print (journal.consoleText time)
      for (file, text) in journal.files time do
        IO.FS.writeFile file text
      match report.shown with
      | .ok _ => return 0
      | .error error =>
          IO.eprintln error.message
          return 1
