import Rtu.Dispatch
import Rtu.TcpThread

/-!
# The thread and the devices it commands

`tcp_thread` with the relay and the messages it has sent. A stall trip of `mot_pap_supervise` also cuts the relay, at any time,
between two calls of a producer as well. The queues have no bound here: the calls of the thread take effect in its own order
whatever the device tasks do.

Two observers follow the run and decide nothing: the last call of `TaskTriggerMsg`, and the last frame accepted on the open
connection.

`Conn` is the abstract connection: what remains when one forgets the netconn API and the bytes. It calls `dispatch` with whole
commands, and the panel refines it.
-/

namespace Rtu

/-! ## The panel -/

/-- The thread, what it has sent, and the two observers. -/
structure Panel where
  tcp : TcpState
  sent : Sent
  call : Option HMICmd
  frame : Option HMICmd
  deriving DecidableEq, Repr

/-- Boot. -/
def Panel.boot (stack : HMICmdVar) : Panel := { tcp := .boot stack, sent := .boot, call := none, frame := none }

/-- A step of the thread, or a stall trip. -/
inductive PanelLabel where
  | tcp (i : TcpInput)
  | stallTrip

/-- The last call, after an event. -/
@[simp] def callAfter (call : Option HMICmd) : TcpEvent → Option HMICmd
  | .trigger cmd => some cmd
  | _ => call

/-- The last frame accepted on the open connection, after an event. -/
@[simp] def frameAfter (frame : Option HMICmd) : TcpEvent → Option HMICmd
  | .accepted | .closed => none
  | .trigger cmd => some cmd
  | _ => frame

/-- The call that a step makes, if it makes one. -/
@[simp] def Sent.perform (s : Sent) : Option Effect → Sent
  | some e => s.call e
  | none => s

/-- One step. -/
def Panel.step (p : Panel) : PanelLabel → Panel
  | .tcp i =>
    { tcp := p.tcp.step i
      sent := p.sent.perform (p.tcp.effect i)
      call := (p.tcp.events i).foldl callAfter p.call
      frame := (p.tcp.events i).foldl frameAfter p.frame }
  | .stallTrip => { p with sent := { p.sent with relay := false } }

/-- The command that a step passes to `TaskTriggerMsg`, if it calls it. -/
def TcpState.called (s : TcpState) (i : TcpInput) : Option HMICmd :=
  (s.events i).findSome? fun
    | .trigger cmd => some cmd
    | _ => none

/-! ## The abstract connection -/

/-- An abstract connection: its phase, the command of the last call (of boot before the first), the last frame accepted, and what
was sent. -/
structure Conn where
  phase : Phase
  prev : HMICmd
  frame : Option HMICmd
  sent : Sent

/-- The panel without the netconn API and the bytes. -/
def Panel.conn (p : Panel) : Conn :=
  { phase := p.tcp.pc.phase, prev := p.call.getD bootCmd, frame := p.frame, sent := p.sent }

/-- What is seen of a step: a call of `TaskTriggerMsg`, a call that a producer makes, a stall trip, or nothing. -/
inductive ConnEvent where
  | none
  | call (cmd : HMICmd)
  | effect (e : Effect)
  | stallTrip

/-- What is seen of a step of the panel. -/
def Panel.observe (p : Panel) : PanelLabel → ConnEvent
  | .tcp i =>
    match p.tcp.effect i, p.tcp.called i with
    | some e, _ => .effect e
    | none, some cmd => .call cmd
    | none, none => .none
  | .stallTrip => .stallTrip

/-- What an abstract connection does. -/
inductive Conn.Step (c : Conn) : ConnEvent → Conn → Prop where
  | skip : Step c .none c
  | accept : c.phase = .idle → Step c .none { c with phase := .receiving, frame := none }
  | call (cmd : HMICmd) : c.phase = .receiving →
      Step c (.call cmd)
        { c with phase := .calling (settings cmd ++ dispatch c.prev cmd), prev := cmd, frame := some cmd }
  | trigger (e : Effect) (es : List Effect) : c.phase = .calling (e :: es) →
      Step c (.effect e) { c with phase := .calling es, sent := c.sent.call e }
  | triggered : c.phase = .calling [] → Step c .none { c with phase := .receiving }
  | fail : c.phase = .receiving → Step c .none { c with phase := .stopping prvEmergencyStop }
  | stop (e : Effect) (es : List Effect) : c.phase = .stopping (e :: es) →
      Step c (.effect e) { c with phase := .stopping es, sent := c.sent.call e }
  | stopped : c.phase = .stopping [] → Step c .none { c with phase := .closing }
  | close : c.phase = .closing → Step c .none { c with phase := .idle, frame := none }
  | stallTrip : Step c .stallTrip { c with sent := { c.sent with relay := false } }

end Rtu
