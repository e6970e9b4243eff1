import MachinePool.Cli.Disk
import MachinePool.Main
import MachinePool.Proofs.Allocation.Availability
import MachinePool.Proofs.Allocation.Balance
import MachinePool.Proofs.Allocation.Capacity
import MachinePool.Proofs.Allocation.Isolation
import MachinePool.Proofs.Allocation.Retry
import MachinePool.Proofs.Config
import MachinePool.Proofs.Inventory
import MachinePool.Proofs.Journal.OutOfPool
import MachinePool.Proofs.Journal.Registered
import MachinePool.Proofs.Journal.Unwinding
import MachinePool.Proofs.Placement.Draw
import MachinePool.Proofs.Placement.Partition
import MachinePool.Proofs.Planning.Agreement
import MachinePool.Proofs.Planning.Faults
import MachinePool.Proofs.Planning.Order
import MachinePool.Proofs.Record.Lossless
import MachinePool.Proofs.Scheduling.Exclusion
import MachinePool.Proofs.SshKey
import MachinePool.Proofs.SshKey.Damage
import MachinePool.Proofs.Store.Leases
import MachinePool.Proofs.Store.Search
