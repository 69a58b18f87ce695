import EmberClient.Main
import EmberClient.Script.Conversation
import EmberClient.Script.Session
import EmberClient.Proofs.Connection.Closing
import EmberClient.Proofs.Project.Detection
import EmberClient.Proofs.RelatedFile.Labels
import EmberClient.Proofs.Rpc.Truncation
import EmberClient.Proofs.Session.Answering
import EmberClient.Proofs.Session.Callbacks
import EmberClient.Proofs.Session.Containment
import EmberClient.Proofs.Session.Exits
import EmberClient.Proofs.Session.Fate
import EmberClient.Proofs.Session.Generations
import EmberClient.Proofs.Session.Handshake
import EmberClient.Proofs.Session.Lenses
import EmberClient.Proofs.Session.Outcomes
import EmberClient.Proofs.Session.StatusItem
import EmberClient.Proofs.Command.Opening
import EmberClient.Proofs.Connection.WriterEnd
import EmberClient.Proofs.Rpc.Canonical
import EmberClient.Proofs.Rpc.Headers
import EmberClient.Proofs.Project.Bounds
import EmberClient.Proofs.Connection.ReaderEnd
import EmberClient.Proofs.Terminal.Prompts
import EmberClient.Proofs.Settings.Layering
import EmberClient.Proofs.ViewNode
