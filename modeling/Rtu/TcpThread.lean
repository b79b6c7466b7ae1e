import Rtu.NetValues

/-!
# `tcp_thread`

The thread as a machine whose labels are what the network and the scheduler give it: the outcome of each call of the netconn API,
and `run`, one step of its own. The calls of a producer are made one step each, so that other tasks can run between two of them;
`TcpState.effect` is the call that a step makes.

A fragment is what one call of `netbuf_data` returns: a memory and a length.
-/

namespace Rtu

/-- `err_t`. Only its being `ERR_OK` (zero) is tested; the rest is printed. -/
abbrev ErrT := Int

/-- `ERROR_NETCONN`. -/
def ERROR_NETCONN : UInt16 := 0x85

/-- Where the thread is: before a call of the netconn API, or within a producer with the calls that remain. -/
inductive TcpPc where
  /-- before `netconn_accept` -/
  | accept
  /-- before `netconn_recv` -/
  | recv
  /-- before `netbuf_data` -/
  | data
  /-- within `TaskTriggerMsg` -/
  | trigger (pending : List Effect)
  /-- before `netconn_write` -/
  | write
  /-- before `netbuf_next` -/
  | next
  /-- past the inner loop: before `netbuf_delete` and the test of the status -/
  | delete
  /-- past the receive loop, within `prvEmergencyStop` -/
  | stop (pending : List Effect)
  /-- before `netconn_close` -/
  | close
  deriving DecidableEq, Repr

/-- The thread, with the static variables of `TaskTriggerMsg`, which only it calls. -/
structure TcpState where
  pc : TcpPc
  statics : TriggerStatics
  hmiCmd : HMICmdVar
  iServerStatus : UInt16
  deriving DecidableEq, Repr

/-- The thread past `netconn_listen`, with what its stack holds. -/
def TcpState.boot (stack : HMICmdVar) : TcpState :=
  { pc := .accept, statics := .boot, hmiCmd := stack, iServerStatus := 0x00 }

/-- What the thread is given. -/
inductive TcpInput where
  /-- `netconn_accept` returns; `HMICmd` is a new variable of the block -/
  | accept (err : ErrT) (stack : HMICmdVar)
  | recv (err : ErrT)
  | data (err : ErrT) (mem : Nat → UInt8) (len : UInt16)
  | write (err : ErrT)
  | next (ret : Int)
  | run

/-- The command that `TaskTriggerMsg` is called with after a fragment: the one that `NetValuesReceivedFromHMI` leaves, if the status is
`ERR_OK`. An accepted fragment assigns every enumeration, so the command is there. -/
def TcpState.accepts (s : TcpState) (mem : Nat → UInt8) (len : UInt16) : Option HMICmd :=
  let parsed := netValuesReceivedFromHMI mem s.hmiCmd len
  if parsed.2 ≠ ERR_OK then none else parsed.1.command

/-- A fragment: `NetValuesReceivedFromHMI`, and `TaskTriggerMsg` if the status is `ERR_OK`. -/
def TcpState.fragment (s : TcpState) (mem : Nat → UInt8) (len : UInt16) : TcpState :=
  let parsed := netValuesReceivedFromHMI mem s.hmiCmd len
  let s' := { s with hmiCmd := parsed.1, iServerStatus := parsed.2 }
  match s.accepts mem len with
  | some cmd =>
    let triggered := taskTriggerMsg s.statics cmd
    { s' with pc := .trigger triggered.2, statics := triggered.1 }
  | none => { s' with pc := .delete }

/-- One step. An input that the thread does not wait for leaves it as it is. -/
def TcpState.step (s : TcpState) (i : TcpInput) : TcpState :=
  match s.pc, i with
  | .accept, .accept err stack =>
    if err = 0 then { s with pc := .recv, hmiCmd := stack, iServerStatus := 0x00 } else s
  | .recv, .recv err => if err = 0 then { s with pc := .data } else { s with pc := .stop prvEmergencyStop }
  | .data, .data err mem len =>
    if err ≠ 0 then { s with pc := .delete, iServerStatus := ERROR_NETCONN } else s.fragment mem len
  | .trigger (_ :: pending), .run => { s with pc := .trigger pending }
  | .trigger [], .run => { s with pc := .write }
  | .write, .write err =>
    if err ≠ 0 then { s with pc := .delete, iServerStatus := ERROR_NETCONN } else { s with pc := .next }
  | .next, .next ret => if ret ≥ 0 then { s with pc := .data } else { s with pc := .delete }
  -- `(iServerStatus && 0x80)` is whether the status is not zero
  | .delete, .run => if s.iServerStatus ≠ 0 then { s with pc := .stop prvEmergencyStop } else { s with pc := .recv }
  | .stop (_ :: pending), .run => { s with pc := .stop pending }
  | .stop [], .run => { s with pc := .close }
  | .close, .run => { s with pc := .accept }
  | _, _ => s

/-- The call that a step makes on the devices, if it makes one. -/
def TcpState.effect (s : TcpState) (i : TcpInput) : Option Effect :=
  match s.pc, i with
  | .trigger (e :: _), .run | .stop (e :: _), .run => some e
  | _, _ => none

/-! ## What is seen of a run -/

/-- What the thread does, as far as connections go. -/
inductive TcpEvent where
  | accepted
  /-- `netbuf_data` fails -/
  | dataError (err : ErrT)
  /-- a fragment is passed to `NetValuesReceivedFromHMI` -/
  | fragment (mem : Nat → UInt8) (len : UInt16)
  /-- `TaskTriggerMsg` is called -/
  | trigger (cmd : HMICmd)
  /-- the telemetry is written, with this outcome -/
  | write (err : ErrT)
  /-- `prvEmergencyStop` has been executed -/
  | emergencyStop
  | closed

/-- What a step does. -/
def TcpState.events (s : TcpState) (i : TcpInput) : List TcpEvent :=
  match s.pc, i with
  | .accept, .accept err _ => if err = 0 then [.accepted] else []
  | .data, .data err mem len =>
    if err ≠ 0 then [.dataError err] else .fragment mem len :: (s.accepts mem len).toList.map .trigger
  | .write, .write err => [.write err]
  | .stop [], .run => [.emergencyStop]
  | .close, .run => [.closed]
  | _, _ => []

/-! ## Phases -/

/-- Where a connection is. -/
inductive Phase where
  /-- no connection -/
  | idle
  /-- in the receive loop, outside `TaskTriggerMsg` -/
  | receiving
  /-- within `TaskTriggerMsg`, with the calls that remain -/
  | calling (pending : List Effect)
  /-- within `prvEmergencyStop`, with the calls that remain -/
  | stopping (pending : List Effect)
  /-- stopped, but not closed -/
  | closing
  deriving DecidableEq, Repr

/-- The phase of the thread. -/
def TcpPc.phase : TcpPc → Phase
  | .accept => .idle
  | .recv | .data | .write | .next | .delete => .receiving
  | .trigger pending => .calling pending
  | .stop pending => .stopping pending
  | .close => .closing

@[simp] theorem phase_accept : TcpPc.accept.phase = .idle := rfl
@[simp] theorem phase_recv : TcpPc.recv.phase = .receiving := rfl
@[simp] theorem phase_data : TcpPc.data.phase = .receiving := rfl
@[simp] theorem phase_write : TcpPc.write.phase = .receiving := rfl
@[simp] theorem phase_next : TcpPc.next.phase = .receiving := rfl
@[simp] theorem phase_delete : TcpPc.delete.phase = .receiving := rfl
@[simp] theorem phase_trigger (es : List Effect) : (TcpPc.trigger es).phase = .calling es := rfl
@[simp] theorem phase_stop (es : List Effect) : (TcpPc.stop es).phase = .stopping es := rfl
@[simp] theorem phase_close : TcpPc.close.phase = .closing := rfl

/-- The calls that remain of the producer that the thread is in. -/
def Phase.pending : Phase → List Effect
  | .calling pending | .stopping pending => pending
  | .idle | .receiving | .closing => []

/-- The receive loop has ended and the next one has not begun. -/
def Phase.LoopEnded : Phase → Prop
  | .idle | .stopping _ | .closing => True
  | .receiving | .calling _ => False

/-- What the thread does to its phase, with the call on the devices that it makes. -/
inductive Phase.Step : Phase → Option Effect → Phase → Prop where
  | skip (ph : Phase) : Step ph none ph
  | accept : Step .idle none .receiving
  | call (es : List Effect) : Step .receiving none (.calling es)
  | trigger (e : Effect) (es : List Effect) : Step (.calling (e :: es)) (some e) (.calling es)
  | triggered : Step (.calling []) none .receiving
  | fail : Step .receiving none (.stopping prvEmergencyStop)
  | stop (e : Effect) (es : List Effect) : Step (.stopping (e :: es)) (some e) (.stopping es)
  | stopped : Step (.stopping []) none .closing
  | close : Step .closing none .idle

end Rtu
