import DeclarationWatch.Settings.Dotenv
import DeclarationWatch.Settings.Shown
import DeclarationWatch.Startup

open DeclarationWatch

-- What is set of the variables that have a meaning here.
def setVariables : IO Settings.Environment :=
  Settings.variableNames.filterMapM fun name => do
    return (← IO.getEnv name).map (name, ·)

-- Shows with which settings the program would start, or why it would not. Settings on standard
-- input lie below the variables of the process. There is no database to connect to.
def main : IO UInt32 := do
  let file ← (← IO.getStdin).readToEnd
  match start (fun _ => false) (Settings.Dotenv.addTo (← setVariables) file) with
  | .ok application =>
      IO.println application.settings.movement.debugText
      IO.println application.settings.features.debugText
      return 0
  | .error failure =>
      IO.eprintln failure.text
      return 1
