import BuildMatrix.Build.Run
import BuildMatrix.CommandLine.Failure
import BuildMatrix.CommandLine.Style

/-!
# Reports

What commands tell the user: lines about apps, summaries of build runs, and messages after a mark.
-/

namespace BuildMatrix.CommandLine

/-- What a command leaves behind. -/
structure Report where
  disk : Disk
  output : String := ""
  errors : String := ""
  exitCode : Nat := exitCodes.success

/-! ## Messages -/

/-- A message after a mark, on a line. -/
def message (isColoured : Bool) (style : Style) (mark text : String) : String :=
  style.paint isColoured mark ++ " " ++ text ++ "\n"

/-- The message that something has been done. -/
def successMessage (isColoured : Bool) : String → String :=
  message isColoured { colour := some .green, isBold := true } "✓"

/-- The message that something has failed. -/
def errorMessage (isColoured : Bool) : String → String :=
  message isColoured { colour := some .red, isBold := true } "✗"

/-- The message that something may be wrong. -/
def warningMessage (isColoured : Bool) : String → String :=
  message isColoured { colour := some .yellow, isBold := true } "!"

/-- The message that something is so. -/
def infoMessage (isColoured : Bool) : String → String :=
  message isColoured { colour := some .blue } "→"

/-- The report of a failure. -/
def failed (isColoured : Bool) (d : Disk) (e : Failure) : Report where
  disk := d
  errors := errorMessage isColoured e.chain
  exitCode := e.exitCode

/-! ## Apps -/

/-- A path in a message. -/
def shownPath (isColoured : Bool) (text : String) : String :=
  ({ colour := some .cyan } : Style).paint isColoured text

/-- The folder of an app, seen from the current folder. -/
def shownFolder (isColoured : Bool) (d : Disk) (a : App) : String :=
  shownPath isColoured (a.folder.relativeTo d.cwdPath).text

/-- The style for a status. -/
def statusStyle : BuildStatus → Style
  | .success => { colour := some .green, isBold := true }
  | .failed => { colour := some .red, isBold := true }
  | .skipped | .disabled => { isDim := true }
  | .shouldBeBuilt | .unknown => { colour := some .yellow }

/-- The config name of an app, if it has one. -/
def shownConfig (a : App) : String :=
  if a.configName.isEmpty then "" else " config=" ++ a.configName

/-- The line of an app that was found. -/
def foundLine (isColoured : Bool) (d : Disk) (a : App) : String :=
  let comment := match a.buildComment with
    | some c => " (" ++ ({ isDim := true } : Style).paint isColoured c ++ ")"
    | none => ""
  shownFolder isColoured d a ++ " " ++ ({ isBold := true } : Style).paint isColoured a.target ++ " " ++
    (statusStyle a.status).paint isColoured a.status.label ++ shownConfig a ++ comment ++ "\n"

/-- The records of apps, one on a line. -/
def recordLines (apps : List App) : String :=
  String.join (apps.map fun a => a.record.compact ++ "\n")

/-- The records of apps as one list. -/
def recordList (apps : List App) : String :=
  (JsonValue.arr (apps.map App.record)).pretty

/-! ## Build runs -/

/-- The line of an app in a summary. -/
def summaryLine (isColoured : Bool) (d : Disk) (a : App) : String :=
  let comment := match a.buildComment with
    | some c => ": " ++ c
    | none => ""
  "  " ++ shownFolder isColoured d a ++ " " ++ (statusStyle a.status).paint isColoured a.target ++
    shownConfig a ++ comment ++ "\n"

/-- The apps with a status in a summary. -/
def summaryGroup (isColoured : Bool) (d : Disk) (label : String) (apps : List App) : String :=
  ({ isUnderlined := true } : Style).paint isColoured label ++ " (" ++ toString apps.length ++ ")\n" ++
    String.join (apps.map (summaryLine isColoured d))

/-- The summary of a build run: what is told, and what is told about a failure. -/
def summary (isColoured : Bool) (d : Disk) (apps : List App) : String × String :=
  let header := "\n" ++ ({ isBold := true } : Style).paint isColoured "Build summary" ++ "\n"
  let groups := (Build.groups apps).map fun (label, apps) => summaryGroup isColoured d label apps
  let text := header ++ String.join groups
  if Build.hasFailures apps then (text, errorMessage isColoured "Some apps failed to build")
  else if apps.isEmpty then (text ++ warningMessage isColoured "No apps were built", "")
  else (text ++ successMessage isColoured "All apps built", "")

/-- The result for an app of a build run. -/
def resultOf (a : App) : JsonValue :=
  .obj [
    ("app_dir", .str a.folder.text),
    ("comment", .ofOption a.buildComment),
    ("config_name", .str a.configName),
    ("status", .str a.status.key),
    ("target", .str a.target)]

/-- The results of a build run as one list. -/
def resultList (apps : List App) : String :=
  (JsonValue.arr (apps.map resultOf)).pretty ++ "\n"

end BuildMatrix.CommandLine
