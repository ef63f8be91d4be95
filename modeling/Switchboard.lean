import Switchboard.Proofs.Attachment.Actions
import Switchboard.Proofs.Attachment.Agreement
import Switchboard.Proofs.Broker.Attempts
import Switchboard.Proofs.Broker.Consistency
import Switchboard.Proofs.Broker.Controls
import Switchboard.Proofs.Broker.Datagrams
import Switchboard.Proofs.Broker.Departures
import Switchboard.Proofs.Broker.Fanout
import Switchboard.Proofs.Broker.Interleaving
import Switchboard.Proofs.Broker.Oblivious
import Switchboard.Proofs.Broker.Rejections
import Switchboard.Proofs.Cluster.Integrity
import Switchboard.Proofs.Pending.Endings
import Switchboard.Proofs.Roster.Rotation
import Switchboard.Settings.Load
import Switchboard.Settings.LogLevel
import Switchboard.Proofs.Broker.Draining
import Switchboard.Proofs.Broker.Pairing
import Switchboard.Proofs.Client.Requests
import Switchboard.Proofs.Client.Completion
import Switchboard.Proofs.Client.Severance
import Switchboard.Proofs.Roster.Representation
import Switchboard.Proofs.Pending.Sweeps
import Switchboard.Proofs.Producer.Futures
import Switchboard.Proofs.Broker.Forgetting
import Switchboard.Proofs.Consumer.Periods
import Switchboard.Proofs.Link.Memory
import Switchboard.Proofs.Link.Web
import Switchboard.Proofs.Command.Templates
import Switchboard.Proofs.Subscriptions.Pairs
