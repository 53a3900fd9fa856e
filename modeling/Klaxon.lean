import Klaxon.Main
import Klaxon.Markup.Html
import Klaxon.Proofs.Channel.Backoff
import Klaxon.Proofs.Channel.Grants
import Klaxon.Proofs.Dispatch.Contents
import Klaxon.Proofs.Dispatch.DeliveryRates
import Klaxon.Proofs.Dispatch.FanOut
import Klaxon.Proofs.Dispatch.Health
import Klaxon.Proofs.Dispatch.Interleavings
import Klaxon.Proofs.Dispatch.KeptResponses
import Klaxon.Proofs.Dispatch.Prunings
import Klaxon.Proofs.Dispatch.QuietHours
import Klaxon.Proofs.Dispatch.Reservations
import Klaxon.Proofs.Dispatch.Routing
import Klaxon.Proofs.Json.Credentials
import Klaxon.Proofs.Json.Interpolation
import Klaxon.Proofs.Message.Documents
import Klaxon.Proofs.Rule.Comparisons
import Klaxon.Proofs.Rule.Documents
import Klaxon.Proofs.Rule.FieldPaths
import Klaxon.Proofs.Rule.Independence
import Klaxon.Proofs.Rule.Literals
import Klaxon.Proofs.Server.Assemblies
import Klaxon.Proofs.Server.Isolation
import Klaxon.Proofs.Server.Refusals
import Klaxon.Proofs.Server.Retention
import Klaxon.Proofs.Server.Service
import Klaxon.Proofs.Text.Boundaries
import Klaxon.Proofs.Transport.Inboxes
