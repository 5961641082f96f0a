import PacketLog.Abort
import PacketLog.Device.Desk
import PacketLog.FileStore.Shelf
import PacketLog.FileSystem.Machine
import PacketLog.Main
import PacketLog.Proofs.Abort.Settled
import PacketLog.Proofs.Abort.Wakeups
import PacketLog.Proofs.Assembler.Chunks
import PacketLog.Proofs.Assembler.Refusals
import PacketLog.Proofs.Counters
import PacketLog.Proofs.Device.Flat
import PacketLog.Proofs.Device.Retries
import PacketLog.Proofs.FileStore.Contest
import PacketLog.Proofs.FileStore.Removal
import PacketLog.Proofs.FileStore.WriteCalls
import PacketLog.Proofs.Registry.Roll
import PacketLog.Proofs.Stamper.Pace
import PacketLog.Proofs.Stamper.Records
import PacketLog.Proofs.Supervisor.Stamps
import PacketLog.Proofs.Timestamp.Reading
import PacketLog.Proofs.Worker.Buffers
import PacketLog.Proofs.Worker.Exits
import PacketLog.Proofs.Workshop.Snapshots
