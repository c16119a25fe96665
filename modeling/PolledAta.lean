import PolledAta.Text.Quoted
import PolledAta.Ide.Volume
import PolledAta.Emulator.Channel
import PolledAta.Bank.Playback
import PolledAta.Isa.Mapped
import PolledAta.Rom.Boot
import PolledAta.Rom.Monitor
import PolledAta.Proofs.Transfer
import PolledAta.Proofs.Controllers
import PolledAta.Proofs.Reached
import PolledAta.Proofs.Request
import PolledAta.Proofs.Protocol
import PolledAta.Proofs.Drive
import PolledAta.Proofs.Leads
import PolledAta.Proofs.Channel
import PolledAta.Proofs.Service
import PolledAta.Proofs.Served
import PolledAta.Proofs.Disks
import PolledAta.Proofs.Discovery
import PolledAta.Proofs.SectorStore
import PolledAta.Proofs.ErrorLatch
import PolledAta.Proofs.Volume
import PolledAta.Proofs.History
import PolledAta.Proofs.Parallel
import PolledAta.Proofs.TickOrigin
import PolledAta.Proofs.Moves
import PolledAta.Proofs.Registry
import PolledAta.Proofs.Course
import PolledAta.Proofs.Faulty
import PolledAta.Proofs.WholeChunks
import PolledAta.Proofs.Survey
import PolledAta.Proofs.ExactDiscovery
import PolledAta.Proofs.Readings
import PolledAta.Proofs.Endings
import PolledAta.Proofs.Commuting
import PolledAta.Proofs.Recovery
import PolledAta.Proofs.Ranges
import PolledAta.Proofs.Safety
import PolledAta.Proofs.Samples
import PolledAta.Proofs.Completion
import PolledAta.Proofs.Placement
import PolledAta.Proofs.FrameCounter
import PolledAta.Proofs.Lasting
import PolledAta.Proofs.Pages
import PolledAta.Proofs.Watching
import PolledAta.Proofs.Console
import PolledAta.Proofs.OnBoard
import PolledAta.Proofs.Boot
import PolledAta.Proofs.Floating
import PolledAta.Proofs.Readable
import PolledAta.Proofs.Decomposition
import PolledAta.Proofs.Fields
import PolledAta.Proofs.RoundTrip
import PolledAta.Proofs.Probing
import PolledAta.Proofs.Deadlines
import PolledAta.Proofs.Delays
import PolledAta.Proofs.RegisterFile
import PolledAta.Proofs.Mapped
import PolledAta.Proofs.Dump
import PolledAta.Proofs.Announcement
