/-!
# The state of the language server

Where the server stands between two starts. `stopped` leads to `starting`, that
to `ready` or back; only a ready server can be `restarting`.
-/

namespace EmberClient

inductive ServerState where
  | stopped | starting | ready | restarting
  deriving DecidableEq, Inhabited

namespace ServerState

/-- The word that messages use. -/
def name : ServerState → String
  | .stopped => "stopped"
  | .starting => "starting"
  | .ready => "ready"
  | .restarting => "restarting"

def ofName? (name : String) : Option ServerState :=
  [stopped, starting, ready, restarting].find? fun s => s.name = name

end ServerState

end EmberClient
