import Rtu.Axis
import Rtu.Lemmas.MotPap
import Rtu.Theorems.AxisInvariant
import Rtu.Theorems.LastCommand
import Rtu.Lemmas.TaskTrigger
import Rtu.Dispatch
import Rtu.Lemmas.Dispatch
import Rtu.Theorems.Dispatch
import Rtu.Theorems.StopFrame
import Rtu.Theorems.SessionIsolation
import Rtu.NetValues
import Rtu.Lemmas.NetValues
import Rtu.Theorems.FrameGrammar
import Rtu.TcpThread
import Rtu.Theorems.FailStop
import Rtu.Lemmas.Panel
import Rtu.Theorems.SafeState
import Rtu.Theorems.UnderPower
import Rtu.Controller
import Rtu.Lemmas.Axis
import Rtu.Lemmas.Controller
import Rtu.Theorems.EmergencyStop
import Rtu.Theorems.StaysStopped
import Rtu.Theorems.CorrectedPosition
import Rtu.Temperature
import Rtu.Theorems.Temperature
import Rtu.Theorems.ClosedLoop
import Rtu.Theorems.StallDetection
import Rtu.Netbuf
import Rtu.Theorems.Segmentation
import Rtu.Drive
import Rtu.Theorems.DeadTime
import Rtu.Depot
import Rtu.Lemmas.Depot
import Rtu.Theorems.MessageConservation
import Rtu.Lemmas.Backlog
import Rtu.Theorems.FreeRun
import Rtu.Telemetry
import Rtu.Lemmas.Telemetry
import Rtu.Theorems.Announcement
import Rtu.Lemmas.Repeat
import Rtu.Theorems.Cadence
import Rtu.Theorems.ReplyText
import Rtu.Rdc
import Rtu.Lemmas.Rdc
import Rtu.Theorems.Configuration
import Rtu.Theorems.Residue
import Rtu.Theorems.Velocity
import Rtu.Links
import Rtu.Tiling
import Rtu.Heap4
import Rtu.Lemmas.Heap4
import Rtu.Lemmas.HeapUse
import Rtu.Theorems.Allocator
import Rtu.HeapDepot
import Rtu.Theorems.MessageHeap
import Rtu.Ring
import Rtu.XQueue
import Rtu.Lemmas.XQueue
import Rtu.QueueTasks
import Rtu.Lemmas.QueueTasks
import Rtu.Lemmas.QueueWakes
import Rtu.Theorems.QueueTasks
import Rtu.Sampling
import Rtu.Theorems.Sampling
import Rtu.KernelLists
import Rtu.Lemmas.KernelLists
import Rtu.Lemmas.ListMemory
import Rtu.Lemmas.Scheduler
import Rtu.Lemmas.SchedulerRun
import Rtu.Lemmas.SchedulerWaits
import Rtu.Theorems.KernelWaits
import Rtu.Theorems.Turns
