import Rtu.TcpThread

/-!
# A connection and its fragments

The peer of a connection sends bytes, and the stack hands them to `tcp_thread` in fragments: a fragment is a `struct pbuf`, a chain of
them is a `struct netbuf`, which `netconn_recv` returns and `netbuf_next` goes through. `Link` is the thread with one
connection to accept and the network buffers to come; every call of the API succeeds and blocks when there is nothing to
return.
-/

namespace Rtu

/-- A fragment: where its bytes are, and how many there are. What lies behind them is whatever the memory holds. -/
structure Pbuf where
  mem : Nat → UInt8
  len : UInt16
  nonempty : 0 < len.toNat

/-- The bytes of a fragment. -/
def Pbuf.bytes (f : Pbuf) : List UInt8 := Rtu.bytes f.mem 0 f.len.toNat

/-- A network buffer: a chain of fragments. -/
structure Netbuf where
  first : Pbuf
  rest : List Pbuf

/-- The fragments of a network buffer, in order. -/
def Netbuf.pbufs (b : Netbuf) : List Pbuf := b.first :: b.rest

/-- `netbuf_next`, on a chain that stands at its first fragment. -/
def netbufNext : List Pbuf → Int
  | [] | [_] => -1
  | [_, _] => 1
  | _ :: _ :: _ :: _ => 0

/-- The thread, with the connection to accept (what the stack will hold then), the buffers to receive, and the chain of the
buffer received, at its current fragment. -/
structure Link where
  tcp : TcpState
  conn : Option HMICmdVar
  netbufs : List Netbuf
  chain : List Pbuf

/-- What the thread is given at the call it is about to make, unless that call blocks. -/
def Link.input (l : Link) : Option TcpInput :=
  match l.tcp.pc, l.conn, l.netbufs, l.chain with
  | .accept, some stack, _, _ => some (.accept 0 stack)
  | .accept, none, _, _ => none
  | .recv, _, _ :: _, _ => some (.recv 0)
  | .recv, _, [], _ => none
  | .data, _, _, f :: _ => some (.data 0 f.mem f.len)
  | .data, _, _, [] => none
  | .write, _, _, _ => some (.write 0)
  | .next, _, _, chain => some (.next (netbufNext chain))
  | .trigger _, _, _, _ | .delete, _, _, _ | .stop _, _, _, _ | .close, _, _, _ => some .run

/-- The connection to accept, once it is accepted. -/
def Link.connLeft (l : Link) : Option HMICmdVar :=
  match l.tcp.pc with
  | .accept => none
  | _ => l.conn

/-- The buffers to receive, after the call. -/
def Link.netbufsLeft (l : Link) : List Netbuf :=
  match l.tcp.pc with
  | .recv => l.netbufs.tail
  | _ => l.netbufs

/-- The chain, after the call: `netconn_recv` stands it at its first fragment, `netbuf_next` moves it on. -/
def Link.chainLeft (l : Link) : List Pbuf :=
  match l.tcp.pc, l.netbufs with
  | .recv, b :: _ => b.pbufs
  | .next, _ => l.chain.tail
  | _, _ => l.chain

/-- One step of the thread. A thread at a call that blocks stays there. -/
def Link.step (l : Link) (_ : Unit) : Link :=
  match l.input with
  | none => l
  | some i => { tcp := l.tcp.step i, conn := l.connLeft, netbufs := l.netbufsLeft, chain := l.chainLeft }

/-- The commands that `TaskTriggerMsg` is called with, at a step. -/
def Link.calls (l : Link) (_ : Unit) : List HMICmd :=
  match l.input with
  | none => []
  | some i => (l.tcp.events i).filterMap fun
    | .trigger cmd => some cmd
    | _ => none

/-- The thread at boot, with a connection to accept on which the buffers arrive. -/
def Link.boot (stack var : HMICmdVar) (netbufs : List Netbuf) : Link :=
  { tcp := .boot stack, conn := some var, netbufs := netbufs, chain := [] }

end Rtu
