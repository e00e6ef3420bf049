import Polyfill.Session.Run
import Polyfill.Command.Run
import Polyfill.Main
import Polyfill.Proofs.Session.Change
import Polyfill.Proofs.Session.Move
import Polyfill.Proofs.Session.History
import Polyfill.Proofs.Session.Faithful
import Polyfill.Proofs.Session.Running
import Polyfill.Proofs.Session.Order
import Polyfill.Proofs.Session.Firing
import Polyfill.Proofs.Session.Coherence
import Polyfill.Proofs.Session.Delivery
import Polyfill.Proofs.Session.Terminated
import Polyfill.Proofs.Session.Lifecycle
import Polyfill.Proofs.Session.Conservation
import Polyfill.Proofs.Session.Delays
import Polyfill.Proofs.Text.WellFormed
import Polyfill.Proofs.Codec.Percent
import Polyfill.Proofs.Codec.Base64
import Polyfill.Proofs.Codec.Hex
import Polyfill.Proofs.Act
import Polyfill.Proofs.Builder
import Polyfill.Proofs.Session.Part
import Polyfill.Proofs.Session.Mirror
import Polyfill.Proofs.Answers
import Polyfill.Proofs.Session.Lockstep
import Polyfill.Proofs.Session.Abreast
import Polyfill.Proofs.Session.Independence
import Polyfill.Proofs.Entries
import Polyfill.Proofs.Facade
import Polyfill.Proofs.Command.Outcome
import Polyfill.Proofs.Codec.Written
import Polyfill.Proofs.Command.RoundTrip
import Polyfill.Proofs.Command.Line
import Polyfill.Proofs.Command.Routing
import Polyfill.Proofs.Codec.Escapes
import Polyfill.Proofs.Codec.Image
import Polyfill.Proofs.Filling
import Polyfill.Proofs.HostList
import Polyfill.Proofs.Session.Returning
import Polyfill.Proofs.Session.Abandoned
import Polyfill.Proofs.Session.Akin
import Polyfill.Proofs.Session.Intervals
import Polyfill.Proofs.Codec.Locality
import Polyfill.Proofs.Hash.Schedule
import Polyfill.Proofs.Hash.Width
import Polyfill.Proofs.Hash.Keyed
import Polyfill.Proofs.Session.Placings
import Polyfill.Proofs.Session.Places
