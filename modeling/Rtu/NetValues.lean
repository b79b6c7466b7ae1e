import Rtu.TaskTrigger
import Rtu.Tokens

/-!
# `NetValuesReceivedFromHMI`

A received fragment is a pointer and a length. The pointer is cast to `HMIData_t *`, so that the memory behind it is read at the
offsets of that structure (`HMIData.at`), little endian, whatever the length says; the length is only compared with the one length
that a frame has.

The command is stored field by field into a variable of the caller, which nobody initialised (`HMICmdVar`).
-/

namespace Rtu

/-! ## The frame in memory -/

/-- `HMI_NETVAR_SIZE`. -/
def HMI_NETVAR_SIZE : Nat := 5

/-- `RCV_TRAMA_LARGO`. -/
def RCV_TRAMA_LARGO : UInt16 := 51

/-- The bytes of a memory from an offset on. -/
def bytes (mem : Nat → UInt8) (offset n : Nat) : List UInt8 := (List.range n).map (fun i => mem (offset + i))

/-- A `uint16_t` in a memory. -/
def uint16 (mem : Nat → UInt8) (offset : Nat) : UInt16 :=
  UInt16.ofNat ((mem offset).toNat + 256 * (mem (offset + 1)).toNat)

/-- `HMIData_t`. -/
structure HMIData where
  posCmdArm : UInt16
  posCmdPole : UInt16
  velCmdArm : UInt8
  velCmdPole : UInt8
  mode : List UInt8
  freeRunAxis : List UInt8
  freeRunDir : List UInt8
  ctrlEn : List UInt8
  stallEn : List UInt8
  liftDir : List UInt8
  setCal : List UInt8
  clientId : List UInt8
  deriving DecidableEq, Repr

/-- The cast of a pointer to `HMIData_t *`. -/
def HMIData.at (mem : Nat → UInt8) : HMIData :=
  { posCmdArm := uint16 mem 0
    posCmdPole := uint16 mem 2
    velCmdArm := mem 4
    velCmdPole := mem 5
    mode := bytes mem 6 HMI_NETVAR_SIZE
    freeRunAxis := bytes mem 11 HMI_NETVAR_SIZE
    freeRunDir := bytes mem 16 HMI_NETVAR_SIZE
    ctrlEn := bytes mem 21 HMI_NETVAR_SIZE
    stallEn := bytes mem 26 HMI_NETVAR_SIZE
    liftDir := bytes mem 31 HMI_NETVAR_SIZE
    setCal := bytes mem 36 HMI_NETVAR_SIZE
    clientId := bytes mem 41 HMI_NETVAR_SIZE }

/-! ## Tokens -/

/-- `strncmp`: the difference of the first two characters that differ, among the first `n` and up to the first NUL. -/
def strncmp (s1 s2 : List UInt8) : Nat → Int
  | 0 => 0
  | n + 1 =>
    let c1 := s1.headD 0
    let c2 := s2.headD 0
    if c1 ≠ c2 then (c1.toNat : Int) - c2.toNat
    else if c1 = 0 then 0
    else strncmp s1.tail s2.tail n

/-- A string literal. -/
def literal (cs : List Char) : List UInt8 := cs.map (fun c => UInt8.ofNat c.toNat)

/-- The tokens of a field: one for each value, each as long as the field and with no NUL in it. -/
structure FieldTable (α : Type) [DecidableEq α] extends Tokens.TokenTable (List UInt8) α where
  sized : ∀ e ∈ entries, e.1.length = HMI_NETVAR_SIZE ∧ 0 ∉ e.1 := by decide
  covers : ∀ a, (toTokenTable.write a).isSome

/-- The tokens of `mode`. -/
def modeTokens : FieldTable Mode where
  entries := [(literal ['S', 'T', 'O', 'P', ';'], .eStop), (literal ['F', 'R', 'U', 'N', ';'], .eFreeRun),
    (literal ['A', 'U', 'T', 'O', ';'], .eAuto), (literal ['L', 'I', 'F', 'T', ';'], .eLift)]
  covers a := by cases a <;> rfl

/-- The tokens of `freeRunAxis`. -/
def freeRunAxisTokens : FieldTable FreeRunAxis where
  entries := [(literal ['A', 'R', 'M', '_', ';'], .eArm), (literal ['P', 'O', 'L', 'E', ';'], .ePole)]
  covers a := by cases a <;> rfl

/-- The tokens of `freeRunDir`. -/
def freeRunDirTokens : FieldTable FreeRunDir where
  entries := [(literal ['C', 'W', '_', '_', ';'], .eCW), (literal ['C', 'C', 'W', '_', ';'], .eCCW)]
  covers a := by cases a <;> rfl

/-- The tokens of `ctrlEn`. -/
def ctrlEnTokens : FieldTable Enable where
  entries := [(literal ['C', 'T', 'L', 'E', ';'], .eEnable), (literal ['D', 'C', 'T', 'L', ';'], .eDisable)]
  covers a := by cases a <;> rfl

/-- The tokens of `stallEn`. -/
def stallEnTokens : FieldTable Enable where
  entries := [(literal ['S', 'T', 'L', 'E', ';'], .eEnable), (literal ['D', 'S', 'T', 'L', ';'], .eDisable)]
  covers a := by cases a <;> rfl

/-- The tokens of `liftDir`. -/
def liftDirTokens : FieldTable LiftDir where
  entries := [(literal ['L', 'F', 'U', 'P', ';'], .eUp), (literal ['L', 'F', 'D', 'W', ';'], .eDown)]
  covers a := by cases a <;> rfl

/-- The tokens of `setCal`. -/
def setCalTokens : FieldTable SetCal where
  entries := [(literal ['C', 'A', 'L', '_', ';'], .eCal), (literal ['N', 'O', 'P', '_', ';'], .eNop)]
  covers a := by cases a <;> rfl

/-- The client id of the HMI. -/
def clientIdToken : List UInt8 := literal ['S', 'M', '1', '3', ';']

/-- The chain of `if (!strncmp(..)) .. else if ..` over a table, in the order of its entries. -/
def matchToken {α : Type} [DecidableEq α] (t : FieldTable α) (field : List UInt8) : Option α :=
  (t.entries.find? (fun e => strncmp field e.1 HMI_NETVAR_SIZE = 0)).map Prod.snd

/-! ## The command variable -/

/-- The variable that a command is stored into. An enumeration that holds no enumerator, as an uninitialised one may, is
`none`. -/
structure HMICmdVar where
  posCmdArm : UInt16
  posCmdPole : UInt16
  velCmdArm : UInt8
  velCmdPole : UInt8
  mode : Option Mode
  freeRunAxis : Option FreeRunAxis
  freeRunDir : Option FreeRunDir
  ctrlEn : Option Enable
  stallEn : Option Enable
  liftDir : Option LiftDir
  setCal : Option SetCal
  clientID : Option Sign
  deriving DecidableEq, Repr

/-- The variable, holding a command. -/
def HMICmd.stored (cmd : HMICmd) : HMICmdVar :=
  { posCmdArm := cmd.posCmdArm, posCmdPole := cmd.posCmdPole, velCmdArm := cmd.velCmdArm, velCmdPole := cmd.velCmdPole
    mode := some cmd.mode, freeRunAxis := some cmd.freeRunAxis, freeRunDir := some cmd.freeRunDir, ctrlEn := some cmd.ctrlEn
    stallEn := some cmd.stallEn, liftDir := some cmd.liftDir, setCal := some cmd.setCal, clientID := some cmd.clientID }

/-- The command that the variable holds, if every enumeration holds an enumerator. -/
def HMICmdVar.command (v : HMICmdVar) : Option HMICmd := do
  let mode ← v.mode
  let freeRunAxis ← v.freeRunAxis
  let freeRunDir ← v.freeRunDir
  let ctrlEn ← v.ctrlEn
  let stallEn ← v.stallEn
  let liftDir ← v.liftDir
  let setCal ← v.setCal
  let clientID ← v.clientID
  pure { posCmdArm := v.posCmdArm, posCmdPole := v.posCmdPole, velCmdArm := v.velCmdArm, velCmdPole := v.velCmdPole
         mode, freeRunAxis, freeRunDir, ctrlEn, stallEn, liftDir, setCal, clientID }

/-! ## Parsing -/

/-- `ERR_OK`. -/
def ERR_OK : UInt16 := 0

/-- `ERROR_TRAMA_VACIA`. -/
def ERROR_TRAMA_VACIA : UInt16 := 0x81

/-- `ERROR_TRAMA_LARGO`. -/
def ERROR_TRAMA_LARGO : UInt16 := 0x82

/-- `ERROR_TRAMA_DATO`. -/
def ERROR_TRAMA_DATO : UInt16 := 0x83

/-- `ERROR_TRAMA_CLIENTE`. -/
def ERROR_TRAMA_CLIENTE : UInt16 := 0x84

/-- `prvFormatoTramaRecv`. -/
def prvFormatoTramaRecv (uiLenDataRecv : UInt16) : UInt16 :=
  if uiLenDataRecv ≤ 0 then ERROR_TRAMA_VACIA
  else if uiLenDataRecv ≠ RCV_TRAMA_LARGO then ERROR_TRAMA_LARGO
  else ERR_OK

/-- The command variable and `iServerStatus`, in the middle of a parse. -/
abbrev Parse := HMICmdVar × UInt16

/-- A velocity just stored is checked. The comparison with 0 of the source is false of every `uint8_t`. -/
def checkVel (vel : HMICmdVar → UInt8) (p : Parse) : Parse :=
  if vel p.1 > 8 ∨ vel p.1 < 0 then (p.1, ERROR_TRAMA_DATO) else p

/-- A field is compared with its tokens, and stored if one matches. The status is not reset if one does. -/
def storeField {α : Type} [DecidableEq α] (t : FieldTable α) (field : List UInt8) (store : HMICmdVar → α → HMICmdVar)
    (p : Parse) : Parse :=
  match matchToken t field with
  | some a => (store p.1 a, p.2)
  | none => (p.1, ERROR_TRAMA_DATO)

/-- The body of `if(!iServerStatus)`: the integers, then the seven fields. -/
def parseFields (data : HMIData) (HMICmd : HMICmdVar) : Parse :=
  let p : Parse :=
    ({ HMICmd with
        posCmdArm := data.posCmdArm
        posCmdPole := data.posCmdPole
        velCmdArm := data.velCmdArm
        velCmdPole := data.velCmdPole }, ERR_OK)
  let p := checkVel (·.velCmdArm) p
  let p := checkVel (·.velCmdPole) p
  let p := storeField modeTokens data.mode (fun v a => { v with mode := some a }) p
  let p := storeField freeRunAxisTokens data.freeRunAxis (fun v a => { v with freeRunAxis := some a }) p
  let p := storeField freeRunDirTokens data.freeRunDir (fun v a => { v with freeRunDir := some a }) p
  let p := storeField ctrlEnTokens data.ctrlEn (fun v a => { v with ctrlEn := some a }) p
  let p := storeField stallEnTokens data.stallEn (fun v a => { v with stallEn := some a }) p
  let p := storeField liftDirTokens data.liftDir (fun v a => { v with liftDir := some a }) p
  storeField setCalTokens data.setCal (fun v a => { v with setCal := some a }) p

/-- `NetValuesReceivedFromHMI`: the command variable it leaves, and the status it returns. -/
def netValuesReceivedFromHMI (mem : Nat → UInt8) (HMICmd : HMICmdVar) (uiLenDataRecv : UInt16) : Parse :=
  let iServerStatus := prvFormatoTramaRecv uiLenDataRecv
  if iServerStatus = ERR_OK then
    let data := HMIData.at mem
    if strncmp data.clientId clientIdToken HMI_NETVAR_SIZE = 0 then
      parseFields data { HMICmd with clientID := some .eSigned }
    else ({ HMICmd with clientID := some .eUnsigned }, ERROR_TRAMA_CLIENTE)
  else (HMICmd, iServerStatus)

end Rtu
