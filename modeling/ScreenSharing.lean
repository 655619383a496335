import ScreenSharing.Relay.Membership
import ScreenSharing.Relay.Ledger
import ScreenSharing.Relay.Attribution
import ScreenSharing.Sfu.Removal
import ScreenSharing.Sfu.Ownership
import ScreenSharing.Sfu.Demand
import ScreenSharing.Signaling.Closing
import ScreenSharing.Signaling.Ghosts
import ScreenSharing.Signaling.Silence
import ScreenSharing.Signaling.Admission
import ScreenSharing.Signaling.SharedKey
import ScreenSharing.Signaling.Liveness
import ScreenSharing.Handoff.Adoption
import ScreenSharing.Handoff.Isolation
import ScreenSharing.Net.Framing
import ScreenSharing.Crypto.Agreement
import ScreenSharing.Net.Finality
import ScreenSharing.Lib.Hex
import ScreenSharing.Handshake.Honest
import ScreenSharing.Handshake.Progress
import ScreenSharing.Handshake.Success
import ScreenSharing.Mirror.Client
import ScreenSharing.Mirror.Convergence
import ScreenSharing.Relay.Limits
import ScreenSharing.Relay.Codec
import ScreenSharing.Net.RelayWire
import ScreenSharing.App.Terminal
import ScreenSharing.App.Epochs
import ScreenSharing.App.Ipc
import ScreenSharing.App.Entry
import ScreenSharing.App.Leaving
import ScreenSharing.Net.Transparency
import ScreenSharing.Net.CloseContract
import ScreenSharing.Net.Dial
import ScreenSharing.Net.Delivery
import ScreenSharing.Signaling.Bounds
import ScreenSharing.Sfu.Bounds
import ScreenSharing.Sfu.Reports
import ScreenSharing.Sfu.ControlLaw
import ScreenSharing.Host.Bodies
import ScreenSharing.Renderer.Publication
import ScreenSharing.Signaling.Attempts
import ScreenSharing.Signaling.Sweeping
import ScreenSharing.Net.Stun
import ScreenSharing.Net.MappedAddress
import ScreenSharing.Net.BindingResponse
import ScreenSharing.Crypto.Encodings
import ScreenSharing.Relay.Representation
import ScreenSharing.Relay.Quiescence
import ScreenSharing.Relay.Isolation
import ScreenSharing.Net.Redial
import ScreenSharing.Renderer.Watching
import ScreenSharing.Sfu.Closing
import ScreenSharing.Mirror.Succession
import ScreenSharing.Handshake.Disagreement
import ScreenSharing.Signaling.Slots
import ScreenSharing.Net.Exclusive
