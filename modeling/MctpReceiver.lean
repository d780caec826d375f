import MctpReceiver.Delivery.HandlerTable
import MctpReceiver.Fragmentation
import MctpReceiver.Packet.Encode
import MctpReceiver.Proofs.Isolation
import MctpReceiver.Proofs.Steps
import MctpReceiver.Receiver
import MctpReceiver.Proofs.Provenance
import MctpReceiver.Proofs.Transmission
import MctpReceiver.Proofs.Lossless
import MctpReceiver.Proofs.Reception
import MctpReceiver.Proofs.EndToEnd
import MctpReceiver.Proofs.Stalled
import MctpReceiver.Proofs.Eviction
import MctpReceiver.Proofs.Loss
import MctpReceiver.Proofs.Retransmission
import MctpReceiver.Proofs.LostEnds
import MctpReceiver.Proofs.RoundTrip
import MctpReceiver.Proofs.Components
import MctpReceiver.Proofs.WellFormed
import MctpReceiver.Proofs.Conservation
import MctpReceiver.Proofs.Accounting
import MctpReceiver.Proofs.FragmentLaw
import MctpReceiver.Proofs.Listing
import MctpReceiver.Proofs.Registrations
import MctpReceiver.Proofs.Switch
import MctpReceiver.Proofs.TypeByte
import MctpReceiver.Proofs.History
import MctpReceiver.Proofs.Reading
import MctpReceiver.Proofs.Writing
import MctpReceiver.Proofs.Framing
import MctpReceiver.Proofs.Environment
