import EmberClient.Text.Search

/-!
# Names of commands

The commands that the client and the server share. Names under `els.` belong to
the two of them: the editor is never asked to run one.
-/

namespace EmberClient.Command

open Text

def openRelatedFile : String := "els.openRelatedFile"
def restartServer : String := "els.restartServer"
def proxyCommand : String := "els.proxyCommand"
def reloadProject : String := "els.reloadProject"
def setStatusBarText : String := "els.setStatusBarText"
def runInCli : String := "els.runInEmberCLI"
def getUserInput : String := "els.getUserInput"
def executeInCli : String := "els.executeInEmberCLI"
def setConfig : String := "els.setConfig"
def getRelatedFiles : String := "els.getRelatedFiles"
def getKindUsages : String := "els.getKindUsages"
def readFile : String := "els.fs.readFile"
def stat : String := "els.fs.stat"
def readDirectory : String := "els.fs.readDirectory"

/-- A name that belongs to the client and the server. -/
def isServerOwned (name : String) : Bool := beginsWith name "els."

/-- Commands whose failures are shown to the user instead of returned. -/
def isInteractive (name : String) : Bool :=
  [runInCli, getUserInput, proxyCommand, openRelatedFile].contains name

/-- Commands that look at files; their failures are null. -/
def isFileSystem (name : String) : Bool :=
  [readFile, stat, readDirectory].contains name

end EmberClient.Command
