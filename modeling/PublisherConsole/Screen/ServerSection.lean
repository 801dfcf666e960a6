import PublisherConsole.Definition.Directory
import PublisherConsole.Screen.Paragraph
import PublisherConsole.Screen.Theme
import PublisherConsole.Text.Truncate

/-!
# The section of servers

The servers of an API, in the order of its definition: the name, and below it the protocol and the
location, which is cut to the width of the section.
-/

namespace PublisherConsole.Screen

/-- The heading above the servers. -/
def serversHeading : String := "Protocols & Endpoints"

/-- The lines of one server. -/
def serverLines (width : Nat) (name : String) (e : Definition.Endpoint) : List Line :=
  let chip := "[" ++ e.protocol ++ "]"
  [ Line.styled name Theme.subtitle
  , ⟨[ ⟨"  - ", Theme.dim⟩, ⟨chip, Theme.chip⟩, ⟨" ", Theme.text⟩
     , ⟨Text.truncate e.url (width - (4 + chip.length + 1)), Theme.text⟩ ]⟩ ]

/-- The lines of the section. -/
def serverSection (d : Definition.Directory) (width : Nat) : List Line :=
  Line.styled serversHeading Theme.heading ::
    d.toList.flatMap fun (name, e) => serverLines width name e

/-- Draw the section on its own. -/
def drawServerSection? (d : Definition.Directory) (b : Buffer) (r : Rect) : Option Buffer :=
  b.drawParagraph? r (serverSection d r.width) Theme.text 0

end PublisherConsole.Screen
