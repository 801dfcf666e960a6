import PublisherConsole.Console.EditorScreen
import PublisherConsole.Console.OverviewScreen
import PublisherConsole.Screen.Help

/-!
# Drawing the console

One drawing fills the whole screen: the view, and the help overlay over it when it is asked for.
-/

namespace PublisherConsole.App

open Screen

/-- Draw the console. -/
def draw? (a : App) (b : Buffer) (r : Rect) : Option Buffer := do
  let b ←
    match a.view with
    | .overview => a.drawOverview? b r
    | .editor => a.drawEditor? b r
  if a.helping then drawHelp? b r else return b

/-- The console on an empty screen. -/
def screen? (a : App) (r : Rect) : Option Buffer := a.draw? (Buffer.blank r) r

end PublisherConsole.App
