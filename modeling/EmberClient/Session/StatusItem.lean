import EmberClient.Session.Question

/-!
# The status bar

The client owns one item of the status bar, which tells how the server is, and a
second one while the server can be debugged.
-/

namespace EmberClient.Session.StatusItem

def main : String := "els.status"

def debug : String := "els.debug"

/-- The labels of the main item. -/
def loading : String := "Ember Loading..."
def ready : String := "Ember"
def reloading : String := "Reloading projects..."
def noServer : String := "no PID"

/-- The text of the main item with a label. -/
def text (label : String) : String := "$(telescope) " ++ label

/-- Shows a label. -/
def set (label : String) : Prog Unit := ask (.status main (text label))

/-- Shows the port that a debugger can connect to. -/
def setDebugPort (port : Nat) : Prog Unit := ask (.status debug ("debug:" ++ toString port))

end EmberClient.Session.StatusItem
