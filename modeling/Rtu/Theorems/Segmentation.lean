import Rtu.Netbuf
import Rtu.Lemmas.NetValues
import Rtu.Runs

/-!
# Frames and fragments

The thread takes every fragment for a frame: there is no reassembly, and a fragment of any length but 51 ends the connection. So a
stream of frames is obeyed as far as its leading fragments are frames, whatever the buffers they come in
(`segmentation`).
-/

namespace Rtu

open Runs

/-- A frame that is accepted, with the command it carries: the 51 bytes decide it, wherever they lie. -/
structure Frame where
  bytes : List UInt8
  cmd : HMICmd
  length : bytes.length = 51
  accepted : ∀ mem, Rtu.bytes mem 0 51 = bytes → ∀ v, netValuesReceivedFromHMI mem v 51 = (cmd.stored, ERR_OK)

/-- The fragments of some buffers, in order. -/
def pbufs (netbufs : List Netbuf) : List Pbuf := netbufs.flatMap Netbuf.pbufs

/-- Buffers that deliver the bytes of some frames, cut into fragments in whatever way. -/
structure Delivery (frames : List Frame) where
  netbufs : List Netbuf
  whole : (pbufs netbufs).flatMap Pbuf.bytes = frames.flatMap Frame.bytes

/-- How many fragments, from the first on, have the length of a frame. -/
def leadingFrames (fs : List Pbuf) : Nat := (fs.takeWhile (·.len = 51)).length

/-- Where the thread waits in the end: for more data, or, the connection ended, for another one. -/
def lastPc (fs : List Pbuf) : TcpPc := if ∀ f ∈ fs, f.len = 51 then .recv else .accept

/-- The thread, with the buffers to come, comes to a state in which it waits for good, having called `TaskTriggerMsg` with these
commands. -/
def Delivery.Calls {frames : List Frame} (d : Delivery frames) (stack var : HMICmdVar) (cmds : List HMICmd) (pc : TcpPc) : Prop :=
  ∃ l : Link, Settles Link.step Link.calls (.boot stack var d.netbufs) cmds l ∧ l.tcp.pc = pc

/-- A frame, as one fragment. -/
def Frame.pbuf (fr : Frame) : Pbuf :=
  { mem := fun i => fr.bytes.getD i 0, len := 51, nonempty := by decide }

theorem Frame.pbuf_bytes (fr : Frame) : fr.pbuf.bytes = fr.bytes := by
  have hlen := fr.length
  apply List.ext_getElem
  · rw [hlen, Pbuf.bytes, bytes_length]
    rfl
  · intro i hi hi'
    simp [Pbuf.bytes, Frame.pbuf, Rtu.bytes, hi']

/-- Every frame arrives as one fragment, in a buffer of its own. -/
def Delivery.framed (frames : List Frame) : Delivery frames :=
  { netbufs := frames.map fun fr => { first := fr.pbuf, rest := [] }
    whole := by
      induction frames with
      | nil => rfl
      | cons fr frames ih => simpa [pbufs, Netbuf.pbufs, Frame.pbuf_bytes] using ih }

/-- A fragment has bytes. -/
theorem Pbuf.bytes_ne_nil (f : Pbuf) : f.bytes ≠ [] := by
  have hlen : f.bytes.length = f.len.toNat := bytes_length _ _ _
  have hpos := f.nonempty
  intro hnil
  rw [hnil, List.length_nil] at hlen
  omega

namespace SegmentationAux

/-! ## Frames -/

/-- Two memories with the same 51 bytes are parsed the same. -/
theorem netValues_congr {mem mem' : Nat → UInt8} (h : bytes mem 0 51 = bytes mem' 0 51) (v : HMICmdVar) (len : UInt16) :
    netValuesReceivedFromHMI mem v len = netValuesReceivedFromHMI mem' v len := by
  rw [bytes_add mem 0 46 5, bytes_add mem' 0 46 5] at h
  have hfirst : bytes mem 0 46 = bytes mem' 0 46 := (List.append_inj h (by simp)).1
  have hat : HMIData.at mem = HMIData.at mem' :=
    encode_inj (sized_at mem) (sized_at mem') ((encode_at mem).trans (hfirst.trans (encode_at mem').symm))
  have hid : bytes mem 41 HMI_NETVAR_SIZE = bytes mem' 41 HMI_NETVAR_SIZE := congrArg HMIData.clientId hat
  rw [netValues_eq, netValues_eq, hat, hid]

/-- The 51 bytes of a memory that is accepted, as a frame. -/
def frameAt (mem : Nat → UInt8) (cmd : HMICmd) (h : netValuesReceivedFromHMI mem cmd.stored 51 = (cmd.stored, ERR_OK)) : Frame :=
  { bytes := bytes mem 0 51
    cmd := cmd
    length := by simp
    accepted := by
      intro mem' hbytes v
      have hok : (netValuesReceivedFromHMI mem cmd.stored 51).2 = ERR_OK := by rw [h]
      obtain ⟨cmd', -, hstored⟩ := command_of_ok hok
      have hsame : cmd'.stored = cmd.stored := (congrArg Prod.fst ((hstored cmd.stored).symm.trans h))
      rw [netValues_congr hbytes, hstored v, hsame] }

/-! ## The thread, fragment by fragment -/

variable {st : TriggerStatics} {v : HMICmdVar} {status : UInt16} {conn : Option HMICmdVar} {netbufs : List Netbuf}
  {chain : List Pbuf}

/-- `TaskTriggerMsg` ends. -/
theorem leads_trigger (es : List Effect) : Leads Link.step Link.calls
    ⟨⟨.trigger es, st, v, status⟩, conn, netbufs, chain⟩ [] ⟨⟨.write, st, v, status⟩, conn, netbufs, chain⟩ := by
  induction es with
  | nil => exact Leads.single rfl rfl
  | cons e es ih => exact (Leads.single rfl rfl).trans ih

/-- `prvEmergencyStop` ends, and the connection is closed. -/
theorem leads_stop (es : List Effect) : Leads Link.step Link.calls
    ⟨⟨.stop es, st, v, status⟩, conn, netbufs, chain⟩ [] ⟨⟨.accept, st, v, status⟩, conn, netbufs, chain⟩ := by
  induction es with
  | nil =>
    have hstopped : Leads Link.step Link.calls ⟨⟨.stop [], st, v, status⟩, conn, netbufs, chain⟩ []
        ⟨⟨.close, st, v, status⟩, conn, netbufs, chain⟩ := Leads.single rfl rfl
    exact hstopped.trans (Leads.single rfl rfl)
  | cons e es ih => exact (Leads.single rfl rfl).trans ih

/-- A fragment that is a frame: its command is called, and the telemetry written. -/
theorem leads_frame {f : Pbuf} {fr : Frame} (hlen : f.len = 51) (hbytes : f.bytes = fr.bytes) :
    ∃ st', Leads Link.step Link.calls ⟨⟨.data, st, v, status⟩, conn, netbufs, f :: chain⟩ [fr.cmd]
      ⟨⟨.next, st', fr.cmd.stored, ERR_OK⟩, conn, netbufs, f :: chain⟩ := by
  have hmem : bytes f.mem 0 51 = fr.bytes := by
    rw [← hbytes, Pbuf.bytes, hlen]
    rfl
  have hparse : netValuesReceivedFromHMI f.mem v f.len = (fr.cmd.stored, ERR_OK) := by
    rw [hlen]
    exact fr.accepted f.mem hmem v
  have hdata : Leads Link.step Link.calls ⟨⟨.data, st, v, status⟩, conn, netbufs, f :: chain⟩ [fr.cmd]
      ⟨⟨.trigger (taskTriggerMsg st fr.cmd).2, (taskTriggerMsg st fr.cmd).1, fr.cmd.stored, ERR_OK⟩, conn, netbufs,
        f :: chain⟩ := by
    refine Leads.single ?_ ?_
    · simp [Link.step, Link.input, Link.connLeft, Link.netbufsLeft, Link.chainLeft, TcpState.step, TcpState.fragment,
        TcpState.accepts, hparse]
    · simp [Link.calls, Link.input, TcpState.events, TcpState.accepts, hparse]
  refine ⟨(taskTriggerMsg st fr.cmd).1, ?_⟩
  exact (hdata.trans (leads_trigger _)).trans (Leads.single rfl rfl)

/-- A fragment of another length: the connection is ended. -/
theorem leads_rejected {f : Pbuf} (hlen : f.len ≠ 51) :
    ∃ v' status', Leads Link.step Link.calls ⟨⟨.data, st, v, status⟩, conn, netbufs, f :: chain⟩ []
      ⟨⟨.accept, st, v', status'⟩, conn, netbufs, f :: chain⟩ := by
  have hne : ¬f.len = 0 := by
    intro h0
    have hpos := f.nonempty
    rw [h0] at hpos
    exact absurd hpos (by decide)
  have hparse : netValuesReceivedFromHMI f.mem v f.len = (v, ERROR_TRAMA_LARGO) := by
    have hlargo : f.len ≠ RCV_TRAMA_LARGO := hlen
    rw [netValues_eq, if_neg hne, if_pos hlargo]
  have hbad : ERROR_TRAMA_LARGO ≠ ERR_OK := by decide
  have hdata : Leads Link.step Link.calls ⟨⟨.data, st, v, status⟩, conn, netbufs, f :: chain⟩ []
      ⟨⟨.delete, st, v, ERROR_TRAMA_LARGO⟩, conn, netbufs, f :: chain⟩ := by
    refine Leads.single ?_ ?_
    · simp [Link.step, Link.input, Link.connLeft, Link.netbufsLeft, Link.chainLeft, TcpState.step, TcpState.fragment,
        TcpState.accepts, hparse, hbad]
    · simp [Link.calls, Link.input, TcpState.events, TcpState.accepts, hparse, hbad]
  have hfail : Leads Link.step Link.calls ⟨⟨.delete, st, v, ERROR_TRAMA_LARGO⟩, conn, netbufs, f :: chain⟩ []
      ⟨⟨.stop prvEmergencyStop, st, v, ERROR_TRAMA_LARGO⟩, conn, netbufs, f :: chain⟩ := Leads.single rfl rfl
  exact ⟨v, ERROR_TRAMA_LARGO, (hdata.trans hfail).trans (leads_stop _)⟩

/-- After a fragment: the next one of the chain, or the first one of the next buffer, or nothing more. -/
theorem leads_next (f : Pbuf) (netbufs : List Netbuf) (chain : List Pbuf) :
    (chain = [] ∧ netbufs = [] ∧ Leads Link.step Link.calls ⟨⟨.next, st, v, ERR_OK⟩, conn, netbufs, f :: chain⟩ []
      ⟨⟨.recv, st, v, ERR_OK⟩, conn, [], []⟩) ∨
    ∃ netbufs' chain', chain' ≠ [] ∧ chain' ++ pbufs netbufs' = chain ++ pbufs netbufs ∧
      Leads Link.step Link.calls ⟨⟨.next, st, v, ERR_OK⟩, conn, netbufs, f :: chain⟩ []
        ⟨⟨.data, st, v, ERR_OK⟩, conn, netbufs', chain'⟩ := by
  cases chain with
  | cons f' chain =>
    refine Or.inr ⟨netbufs, f' :: chain, List.cons_ne_nil _ _, rfl, ?_⟩
    cases chain with
    | nil => exact Leads.single rfl rfl
    | cons _ _ => exact Leads.single rfl rfl
  | nil =>
    have hlast : Leads Link.step Link.calls ⟨⟨.next, st, v, ERR_OK⟩, conn, netbufs, [f]⟩ []
        ⟨⟨.delete, st, v, ERR_OK⟩, conn, netbufs, []⟩ := Leads.single rfl rfl
    have hagain : Leads Link.step Link.calls ⟨⟨.delete, st, v, ERR_OK⟩, conn, netbufs, []⟩ []
        ⟨⟨.recv, st, v, ERR_OK⟩, conn, netbufs, []⟩ := Leads.single rfl rfl
    cases netbufs with
    | nil => exact Or.inl ⟨rfl, rfl, hlast.trans hagain⟩
    | cons b netbufs =>
      refine Or.inr ⟨netbufs, b.pbufs, List.cons_ne_nil _ _, rfl, ?_⟩
      exact (hlast.trans hagain).trans (Leads.single rfl rfl)

/-! ## The whole stream -/

/-- A chain of fragments and the buffers after it: the leading frames are called, and then the thread waits for good. -/
theorem leads_chain (frames : List Frame) : ∀ {st : TriggerStatics} {v : HMICmdVar} {status : UInt16} {netbufs : List Netbuf}
    {chain : List Pbuf}, chain ≠ [] →
    (chain ++ pbufs netbufs).flatMap Pbuf.bytes = frames.flatMap Frame.bytes →
    ∃ l : Link, Leads Link.step Link.calls ⟨⟨.data, st, v, status⟩, none, netbufs, chain⟩
      ((frames.take (leadingFrames (chain ++ pbufs netbufs))).map Frame.cmd) l ∧ l.input = none ∧
      l.tcp.pc = lastPc (chain ++ pbufs netbufs) := by
  induction frames with
  | nil =>
    intro st v status netbufs chain hchain hbytes
    obtain ⟨f, chain, rfl⟩ := List.exists_cons_of_ne_nil hchain
    have hnil : f.bytes = [] := (List.append_eq_nil_iff.mp hbytes).1
    have hlen : f.bytes.length = f.len.toNat := bytes_length _ _ _
    have hpos := f.nonempty
    rw [hnil] at hlen
    simp only [List.length_nil] at hlen
    omega
  | cons fr frames ih =>
    intro st v status netbufs chain hchain hbytes
    obtain ⟨f, chain, rfl⟩ := List.exists_cons_of_ne_nil hchain
    by_cases h51 : f.len = 51
    · have hlen : f.bytes.length = fr.bytes.length := by
        rw [fr.length, Pbuf.bytes, bytes_length, h51]
        rfl
      obtain ⟨hfirst, hrest⟩ := List.append_inj hbytes hlen
      have hcount : leadingFrames (f :: chain ++ pbufs netbufs) = leadingFrames (chain ++ pbufs netbufs) + 1 := by
        simp [leadingFrames, h51]
      have hpc : lastPc (f :: chain ++ pbufs netbufs) = lastPc (chain ++ pbufs netbufs) := by
        simp only [lastPc, List.cons_append, List.forall_mem_cons, h51, true_and]
      rw [hcount, hpc, List.take_succ_cons, List.map_cons]
      obtain ⟨st', hframe⟩ := @leads_frame st v status none netbufs chain f fr h51 hfirst
      rcases @leads_next st' fr.cmd.stored none f netbufs chain with
        ⟨rfl, rfl, hlast⟩ | ⟨netbufs', chain', hne, hsame, hmore⟩
      · refine ⟨_, hframe.trans hlast, rfl, rfl⟩
      · obtain ⟨l, hl, hwait, hat⟩ := @ih st' fr.cmd.stored ERR_OK netbufs' chain' hne (by rw [hsame]; exact hrest)
        rw [hsame] at hl hat
        exact ⟨l, hframe.trans (hmore.trans hl), hwait, hat⟩
    · have hcount : leadingFrames (f :: chain ++ pbufs netbufs) = 0 := by simp [leadingFrames, h51]
      have hpc : lastPc (f :: chain ++ pbufs netbufs) = .accept := by simp [lastPc, h51]
      obtain ⟨v', status', hrejected⟩ := @leads_rejected st v status none netbufs chain f h51
      rw [hcount, hpc]
      exact ⟨_, hrejected, rfl, rfl⟩

/-- A thread at a call that blocks for good stays there. -/
theorem settles_of_leads {l l' : Link} {cmds : List HMICmd} (h : Leads Link.step Link.calls l cmds l') (hwait : l'.input = none) :
    Settles Link.step Link.calls l cmds l' := by
  refine h.settles ?_ ?_
  · unfold Link.step
    rw [hwait]
  · unfold Link.calls
    rw [hwait]

/-- From boot: the connection is accepted, and the leading frames are called. -/
theorem calls_delivery {frames : List Frame} (d : Delivery frames) (stack var : HMICmdVar) :
    d.Calls stack var ((frames.take (leadingFrames (pbufs d.netbufs))).map Frame.cmd) (lastPc (pbufs d.netbufs)) := by
  obtain ⟨netbufs, hwhole⟩ := d
  have haccept : Leads Link.step Link.calls (.boot stack var netbufs) []
      ⟨⟨.recv, .boot, var, 0⟩, none, netbufs, []⟩ := Leads.single rfl rfl
  cases netbufs with
  | nil => exact ⟨_, settles_of_leads (by simpa [leadingFrames, pbufs] using haccept) rfl, rfl⟩
  | cons b netbufs =>
    have hrecv : Leads Link.step Link.calls ⟨⟨.recv, .boot, var, 0⟩, none, b :: netbufs, []⟩ []
        ⟨⟨.data, .boot, var, 0⟩, none, netbufs, b.pbufs⟩ := Leads.single rfl rfl
    obtain ⟨l, hl, hwait, hpc⟩ := @leads_chain frames .boot var 0 netbufs b.pbufs (List.cons_ne_nil _ _) hwhole
    exact ⟨l, settles_of_leads ((haccept.trans hrecv).trans hl) hwait, hpc⟩

/-- The commands that a delivery makes the thread call with. -/
theorem calls_unique {frames : List Frame} {d : Delivery frames} {stack var : HMICmdVar} {cmds cmds' : List HMICmd} {pc pc' : TcpPc}
    (h : d.Calls stack var cmds pc) (h' : d.Calls stack var cmds' pc') : cmds = cmds' := by
  obtain ⟨l, hl, -⟩ := h
  obtain ⟨l', hl', -⟩ := h'
  exact (hl.unique hl').1

/-- The leading fragments are all the frames, or there is a fragment of another length and a frame is left. -/
theorem leadingFrames_cases (frames : List Frame) : ∀ {fs : List Pbuf},
    fs.flatMap Pbuf.bytes = frames.flatMap Frame.bytes →
    (leadingFrames fs = frames.length ∧ ∀ f ∈ fs, f.len = 51) ∨ (leadingFrames fs < frames.length ∧ ¬∀ f ∈ fs, f.len = 51) := by
  induction frames with
  | nil =>
    intro fs hbytes
    cases fs with
    | nil => exact Or.inl ⟨rfl, by simp⟩
    | cons f fs => exact absurd (List.append_eq_nil_iff.mp hbytes).1 f.bytes_ne_nil
  | cons fr frames ih =>
    intro fs hbytes
    cases fs with
    | nil =>
      have hnil : fr.bytes = [] := (List.append_eq_nil_iff.mp hbytes.symm).1
      have hlen := fr.length
      rw [hnil] at hlen
      cases hlen
    | cons f fs =>
      by_cases h51 : f.len = 51
      · have hlen : f.bytes.length = fr.bytes.length := by
          rw [fr.length, Pbuf.bytes, bytes_length, h51]
          rfl
        have hrest : fs.flatMap Pbuf.bytes = frames.flatMap Frame.bytes := (List.append_inj hbytes hlen).2
        have hcount : leadingFrames (f :: fs) = leadingFrames fs + 1 := by simp [leadingFrames, h51]
        rw [hcount, List.length_cons, List.forall_mem_cons]
        rcases ih hrest with ⟨heq, hall⟩ | ⟨hlt, hnot⟩
        · exact Or.inl ⟨by omega, h51, hall⟩
        · exact Or.inr ⟨by omega, fun h => hnot h.2⟩
      · refine Or.inr ⟨?_, fun h => h51 (h f List.mem_cons_self)⟩
        simp [leadingFrames, h51]

/-- All commands are called exactly when every fragment has the length of a frame. -/
theorem take_leading_iff {frames : List Frame} (d : Delivery frames) :
    (frames.take (leadingFrames (pbufs d.netbufs))).map Frame.cmd = frames.map Frame.cmd ↔
      ∀ f ∈ pbufs d.netbufs, f.len = 51 := by
  rcases leadingFrames_cases frames d.whole with ⟨hcount, hall⟩ | ⟨hlt, hnot⟩
  · rw [hcount, List.take_length]
    exact ⟨fun _ => hall, fun _ => rfl⟩
  · constructor
    · intro heq
      have hlen := congrArg List.length heq
      rw [List.length_map, List.length_map, List.length_take] at hlen
      omega
    · exact fun hall => absurd hall hnot

/-- A command to stop. -/
def stopCmd : HMICmd :=
  { posCmdArm := 0, posCmdPole := 0, velCmdArm := 0, velCmdPole := 0, mode := .eStop, freeRunAxis := .eArm, freeRunDir := .eCW
    ctrlEn := .eEnable, stallEn := .eDisable, liftDir := .eUp, setCal := .eNop, clientID := .eSigned }

end SegmentationAux

open SegmentationAux

/-- A stream of frames is obeyed as far as its leading fragments are frames. For every list of frames and every way of cutting their
bytes into fragments, in whatever buffers: the thread calls `TaskTriggerMsg` with the commands of as many frames as there are
leading fragments of 51 bytes, in order, and then waits for good, for more data if all fragments had 51 bytes, and for another
connection, having ended this one, if not. So the commands are those of the frames arriving one a fragment exactly when every
fragment has 51 bytes. -/
theorem segmentation (stack var : HMICmdVar) (frames : List Frame) (d : Delivery frames) :
    d.Calls stack var ((frames.take (leadingFrames (pbufs d.netbufs))).map Frame.cmd) (lastPc (pbufs d.netbufs)) ∧
      ((∃ cmds pc pc', d.Calls stack var cmds pc ∧ (Delivery.framed frames).Calls stack var cmds pc') ↔
        ∀ f ∈ pbufs d.netbufs, f.len = 51) := by
  have hcalls := calls_delivery d stack var
  have hframed := calls_delivery (Delivery.framed frames) stack var
  have hall : ∀ f ∈ pbufs (Delivery.framed frames).netbufs, f.len = 51 := by
    intro f hf
    simp only [pbufs, Delivery.framed, List.mem_flatMap, List.mem_map] at hf
    obtain ⟨_, ⟨fr, -, rfl⟩, hmem⟩ := hf
    rw [List.mem_singleton.mp hmem]
    rfl
  rw [(take_leading_iff (Delivery.framed frames)).mpr hall] at hframed
  refine ⟨hcalls, ?_⟩
  rw [← take_leading_iff d]
  constructor
  · rintro ⟨cmds, pc, pc', h, h'⟩
    rw [calls_unique hcalls h, calls_unique h' hframed]
  · intro heq
    rw [heq] at hcalls
    exact ⟨frames.map Frame.cmd, _, _, hcalls, hframed⟩

/-- One frame in two fragments, of 1 and 50 bytes: no command is called. -/
theorem segmentation_false :
    ¬∀ (stack var : HMICmdVar) (frames : List Frame) (d : Delivery frames),
      ∃ cmds pc pc', d.Calls stack var cmds pc ∧ (Delivery.framed frames).Calls stack var cmds pc' := by
  intro h
  have hbytes : bytes stopCmd.memory 0 51 = bytes stopCmd.memory 0 1 ++ bytes (fun i => stopCmd.memory (1 + i)) 0 50 := by
    rw [bytes_add stopCmd.memory 0 1 50]
    simp [bytes]
  have haccepted : netValuesReceivedFromHMI stopCmd.memory stopCmd.stored 51 = (stopCmd.stored, ERR_OK) := by decide
  let d : Delivery [frameAt stopCmd.memory stopCmd haccepted] :=
    { netbufs := [{ first := { mem := stopCmd.memory, len := 1, nonempty := by decide }
                    rest := [{ mem := fun i => stopCmd.memory (1 + i), len := 50, nonempty := by decide }] }]
      whole := by simpa [pbufs, Netbuf.pbufs, Pbuf.bytes, frameAt] using hbytes.symm }
  obtain ⟨cmds, pc, pc', hd, hframed⟩ := h stopCmd.stored stopCmd.stored _ d
  have hnone : cmds = [] := calls_unique hd (calls_delivery d stopCmd.stored stopCmd.stored)
  have hone : cmds = [stopCmd] := calls_unique hframed (calls_delivery (Delivery.framed _) stopCmd.stored stopCmd.stored)
  rw [hnone] at hone
  cases hone

end Rtu
