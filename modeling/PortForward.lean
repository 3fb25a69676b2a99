import PortForward.CommandLine.Program
import PortForward.Frame.Duplex
import PortForward.Frame.Sequence
import PortForward.Main
import PortForward.Proofs.Address.Grammar
import PortForward.Proofs.Address.Identity
import PortForward.Proofs.Agreement
import PortForward.Proofs.Datagram.Conservation
import PortForward.Proofs.Datagram.Containment
import PortForward.Proofs.Datagram.IdleTime
import PortForward.Proofs.Datagram.Noninterference
import PortForward.Proofs.Datagram.Removal
import PortForward.Proofs.Departure
import PortForward.Proofs.Frame.Chunking
import PortForward.Proofs.Frame.RoundTrip
import PortForward.Proofs.Framed.Disconnection
import PortForward.Proofs.Gate.Ownership
import PortForward.Proofs.Refusal.Recovery
import PortForward.Proofs.Silence
import PortForward.Proofs.Stream.Accounting
import PortForward.Proofs.Stream.Fidelity
import PortForward.Proofs.Truncation
import PortForward.Proofs.Verbosity.Run
import PortForward.Proofs.Wrapping
import PortForward.Session.Play
import PortForward.Trial
