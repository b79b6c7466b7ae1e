import Rtu.NetValues

/-!
# The layout and the fields of a frame

Two codecs, one on top of the other: `HMIData.encode` lays a structure out in memory, and `HMICmd.data` writes a command with the
tokens of its fields. A parse is the two read backwards.
-/

namespace Rtu

/-! ## Comparing with a token -/

/-- A field as long as a token with no NUL in it compares equal exactly when it is the token. -/
theorem strncmp_eq_zero (field token : List UInt8) (h : field.length = token.length) (hnul : 0 ∉ token) :
    strncmp field token token.length = 0 ↔ field = token := by
  induction token generalizing field with
  | nil =>
    have hnil : field = [] := List.eq_nil_of_length_eq_zero h
    simp [hnil, strncmp]
  | cons c token ih =>
    cases field with
    | nil => simp at h
    | cons d field =>
      have hc : c ≠ 0 := fun h0 => hnul (h0 ▸ List.mem_cons_self)
      have hrest := ih field (by simpa using h) (fun h0 => hnul (List.mem_cons_of_mem c h0))
      simp only [List.length_cons, strncmp, List.headD_cons, List.tail_cons]
      by_cases hd : d = c
      · subst hd
        simp [hc, hrest]
      · have hne : (d.toNat : Int) - c.toNat ≠ 0 := by
          have hnat : d.toNat ≠ c.toNat := fun heq => hd (UInt8.toNat_inj.mp heq)
          omega
        simp [hd, hne]

/-- The chain of comparisons reads the table. -/
theorem matchToken_eq {α : Type} [DecidableEq α] (t : FieldTable α) (field : List UInt8)
    (h : field.length = HMI_NETVAR_SIZE) : matchToken t field = t.read field := by
  have hfind : ∀ es : List (List UInt8 × α), (∀ e ∈ es, e.1.length = HMI_NETVAR_SIZE ∧ 0 ∉ e.1) →
      es.find? (fun e => strncmp field e.1 HMI_NETVAR_SIZE = 0) = es.find? (fun e => e.1 = field) := by
    intro es hes
    induction es with
    | nil => rfl
    | cons e es ih =>
      obtain ⟨hlen, hnul⟩ := hes e List.mem_cons_self
      have hcmp := strncmp_eq_zero field e.1 (h.trans hlen.symm) hnul
      rw [hlen] at hcmp
      rw [List.find?_cons, List.find?_cons, ih (fun e' he' => hes e' (List.mem_cons_of_mem e he'))]
      simp only [hcmp, eq_comm]
  unfold matchToken Tokens.TokenTable.read
  rw [hfind t.entries t.sized]

/-- The token of a value. -/
def FieldTable.token {α : Type} [DecidableEq α] (t : FieldTable α) (a : α) : List UInt8 := (t.write a).get (t.covers a)

/-- A field reads as a value exactly when it is the value's token. -/
theorem FieldTable.read_iff_token {α : Type} [DecidableEq α] (t : FieldTable α) (field : List UInt8) (a : α) :
    t.read field = some a ↔ t.token a = field := by
  rw [t.read_iff_write, Option.eq_some_iff_get_eq]
  exact ⟨fun ⟨_, h⟩ => h, fun h => ⟨t.covers a, h⟩⟩

theorem FieldTable.token_length {α : Type} [DecidableEq α] (t : FieldTable α) (a : α) :
    (t.token a).length = HMI_NETVAR_SIZE := by
  have hmem := (t.read_eq_some _ a).mp ((t.read_iff_token _ a).mpr rfl)
  exact (t.sized _ hmem).1

/-- A field that is one of the tokens is the token of some value. -/
theorem FieldTable.exists_token {α : Type} [DecidableEq α] (t : FieldTable α) {field : List UInt8} (h : field ∈ t.tokens) :
    ∃ a, t.token a = field := by
  obtain ⟨a, ha⟩ := Option.isSome_iff_exists.mp ((t.read_isSome field).mpr h)
  exact ⟨a, (t.read_iff_token field a).mp ha⟩

/-! ## The layout -/

/-- The bytes of a `uint16_t`, the low one first. -/
def littleEndian (v : UInt16) : List UInt8 := [UInt8.ofNat (v.toNat % 256), UInt8.ofNat (v.toNat / 256)]

/-- The bytes of an `HMIData_t`. -/
def HMIData.encode (d : HMIData) : List UInt8 :=
  littleEndian d.posCmdArm ++ (littleEndian d.posCmdPole ++ ([d.velCmdArm] ++ ([d.velCmdPole] ++ (d.mode ++ (d.freeRunAxis ++
    (d.freeRunDir ++ (d.ctrlEn ++ (d.stallEn ++ (d.liftDir ++ (d.setCal ++ d.clientId))))))))))

@[simp] theorem bytes_length (mem : Nat → UInt8) (offset n : Nat) : (bytes mem offset n).length = n := by
  simp [bytes]

/-- The bytes of two adjacent parts of a memory. -/
theorem bytes_add (mem : Nat → UInt8) (offset n m : Nat) :
    bytes mem offset (n + m) = bytes mem offset n ++ bytes mem (offset + n) m := by
  unfold bytes
  rw [List.range_add, List.map_append, List.map_map]
  simp [Function.comp_def, Nat.add_assoc]

/-- The two bytes of a `uint16_t` in a memory. -/
theorem littleEndian_uint16 (mem : Nat → UInt8) (offset : Nat) : littleEndian (uint16 mem offset) = bytes mem offset 2 := by
  have hlo : (mem offset).toNat < 256 := UInt8.toNat_lt _
  have hhi : (mem (offset + 1)).toNat < 256 := UInt8.toNat_lt _
  have hnat : (uint16 mem offset).toNat = (mem offset).toNat + 256 * (mem (offset + 1)).toNat := by
    unfold uint16
    rw [UInt16.toNat_ofNat']
    omega
  have hl : ((mem offset).toNat + 256 * (mem (offset + 1)).toNat) % 256 = (mem offset).toNat := by omega
  have hh : ((mem offset).toNat + 256 * (mem (offset + 1)).toNat) / 256 = (mem (offset + 1)).toNat := by omega
  unfold littleEndian
  rw [hnat, hl, hh, UInt8.ofNat_toNat, UInt8.ofNat_toNat]
  simp [bytes, List.range_succ]

theorem littleEndian_inj {v w : UInt16} (h : littleEndian v = littleEndian w) : v = w := by
  unfold littleEndian at h
  have hv := v.toNat_lt
  have hw := w.toNat_lt
  obtain ⟨hlo, hhi⟩ : UInt8.ofNat (v.toNat % 256) = UInt8.ofNat (w.toNat % 256) ∧
      UInt8.ofNat (v.toNat / 256) = UInt8.ofNat (w.toNat / 256) := by simpa using h
  have hlo' := congrArg UInt8.toNat hlo
  have hhi' := congrArg UInt8.toNat hhi
  rw [UInt8.toNat_ofNat', UInt8.toNat_ofNat'] at hlo' hhi'
  apply UInt16.toNat_inj.mp
  omega

/-- The first 46 bytes of a memory are the layout of what the cast reads there. -/
theorem encode_at (mem : Nat → UInt8) : (HMIData.at mem).encode = bytes mem 0 46 := by
  unfold HMIData.encode HMIData.at HMI_NETVAR_SIZE
  simp only [littleEndian_uint16]
  simp [bytes, List.range_succ]

/-- The fields of a structure are as long as they are declared. -/
structure HMIData.Sized (d : HMIData) : Prop where
  mode : d.mode.length = HMI_NETVAR_SIZE
  freeRunAxis : d.freeRunAxis.length = HMI_NETVAR_SIZE
  freeRunDir : d.freeRunDir.length = HMI_NETVAR_SIZE
  ctrlEn : d.ctrlEn.length = HMI_NETVAR_SIZE
  stallEn : d.stallEn.length = HMI_NETVAR_SIZE
  liftDir : d.liftDir.length = HMI_NETVAR_SIZE
  setCal : d.setCal.length = HMI_NETVAR_SIZE
  clientId : d.clientId.length = HMI_NETVAR_SIZE

theorem sized_at (mem : Nat → UInt8) : (HMIData.at mem).Sized := by
  constructor <;> exact bytes_length mem _ _

theorem encode_length {d : HMIData} (h : d.Sized) : d.encode.length = 46 := by
  unfold HMIData.encode
  simp only [List.length_append, List.length_singleton, h.mode, h.freeRunAxis, h.freeRunDir, h.ctrlEn, h.stallEn, h.liftDir,
    h.setCal, h.clientId]
  rfl

/-- Two structures with one layout are the same. -/
theorem encode_inj {d d' : HMIData} (h : d.Sized) (h' : d'.Sized) (heq : d.encode = d'.encode) : d = d' := by
  unfold HMIData.encode at heq
  obtain ⟨h1, heq⟩ := List.append_inj heq rfl
  obtain ⟨h2, heq⟩ := List.append_inj heq rfl
  obtain ⟨h3, heq⟩ := List.append_inj heq rfl
  obtain ⟨h4, heq⟩ := List.append_inj heq rfl
  obtain ⟨h5, heq⟩ := List.append_inj heq (h.mode.trans h'.mode.symm)
  obtain ⟨h6, heq⟩ := List.append_inj heq (h.freeRunAxis.trans h'.freeRunAxis.symm)
  obtain ⟨h7, heq⟩ := List.append_inj heq (h.freeRunDir.trans h'.freeRunDir.symm)
  obtain ⟨h8, heq⟩ := List.append_inj heq (h.ctrlEn.trans h'.ctrlEn.symm)
  obtain ⟨h9, heq⟩ := List.append_inj heq (h.stallEn.trans h'.stallEn.symm)
  obtain ⟨h10, heq⟩ := List.append_inj heq (h.liftDir.trans h'.liftDir.symm)
  obtain ⟨h11, h12⟩ := List.append_inj heq (h.setCal.trans h'.setCal.symm)
  cases d
  cases d'
  rw [HMIData.mk.injEq]
  exact ⟨littleEndian_inj h1, littleEndian_inj h2, List.singleton_inj.mp h3, List.singleton_inj.mp h4, h5, h6, h7, h8, h9, h10,
    h11, h12⟩

/-! ## The fields -/

/-- A command written with the tokens of its fields. No token says that a client is unsigned. -/
def HMICmd.data (cmd : HMICmd) : HMIData :=
  { posCmdArm := cmd.posCmdArm
    posCmdPole := cmd.posCmdPole
    velCmdArm := cmd.velCmdArm
    velCmdPole := cmd.velCmdPole
    mode := modeTokens.token cmd.mode
    freeRunAxis := freeRunAxisTokens.token cmd.freeRunAxis
    freeRunDir := freeRunDirTokens.token cmd.freeRunDir
    ctrlEn := ctrlEnTokens.token cmd.ctrlEn
    stallEn := stallEnTokens.token cmd.stallEn
    liftDir := liftDirTokens.token cmd.liftDir
    setCal := setCalTokens.token cmd.setCal
    clientId :=
      match cmd.clientID with
      | .eSigned => clientIdToken
      | .eUnsigned => List.replicate HMI_NETVAR_SIZE 0 }

/-- A memory that a command is written in. -/
def HMICmd.memory (cmd : HMICmd) : Nat → UInt8 := fun i => cmd.data.encode.getD i 0

/-- The velocities are in range and every field but the client id is one of its tokens. -/
structure HMIData.FieldsOk (d : HMIData) : Prop where
  velCmdArm : d.velCmdArm ≤ 8
  velCmdPole : d.velCmdPole ≤ 8
  mode : d.mode ∈ modeTokens.tokens
  freeRunAxis : d.freeRunAxis ∈ freeRunAxisTokens.tokens
  freeRunDir : d.freeRunDir ∈ freeRunDirTokens.tokens
  ctrlEn : d.ctrlEn ∈ ctrlEnTokens.tokens
  stallEn : d.stallEn ∈ stallEnTokens.tokens
  liftDir : d.liftDir ∈ liftDirTokens.tokens
  setCal : d.setCal ∈ setCalTokens.tokens

theorem sized_data (cmd : HMICmd) : cmd.data.Sized := by
  constructor <;> try exact FieldTable.token_length _ _
  cases h : cmd.clientID <;> simp [HMICmd.data, h, clientIdToken, literal, HMI_NETVAR_SIZE]

/-- What the cast reads in the memory that a command is written in. -/
theorem at_memory (cmd : HMICmd) : HMIData.at cmd.memory = cmd.data := by
  refine encode_inj (sized_at _) (sized_data cmd) ?_
  have hlength := encode_length (sized_data cmd)
  rw [encode_at]
  refine List.ext_getElem (by rw [bytes_length, hlength]) ?_
  intro n h h'
  simp [bytes, HMICmd.memory, List.getD_eq_getElem?_getD, List.getElem?_eq_getElem h']

/-! ## A parse -/

/-- The status of a parse so far is either of the two that the fields can leave. -/
def Parse.Status (p : Parse) : Prop := p.2 = ERR_OK ∨ p.2 = ERROR_TRAMA_DATO

/-- The check of a velocity fails exactly when it is above 8. -/
theorem vel_le_iff (v : UInt8) : v ≤ 8 ↔ ¬(v > 8 ∨ v < 0) := by
  rw [UInt8.le_iff_toNat_le, gt_iff_lt, UInt8.lt_iff_toNat_lt, UInt8.lt_iff_toNat_lt]
  have h0 : (0 : UInt8).toNat = 0 := rfl
  omega

theorem checkVel_fst (vel : HMICmdVar → UInt8) (p : Parse) : (checkVel vel p).1 = p.1 := by
  unfold checkVel
  split <;> rfl

theorem checkVel_status (vel : HMICmdVar → UInt8) {p : Parse} (h : p.Status) :
    (checkVel vel p).Status ∧ ((checkVel vel p).2 = ERR_OK ↔ p.2 = ERR_OK ∧ vel p.1 ≤ 8) := by
  unfold checkVel
  rw [vel_le_iff]
  by_cases hv : vel p.1 > 8 ∨ vel p.1 < 0
  · rw [if_pos hv]
    refine ⟨Or.inr rfl, ?_⟩
    constructor
    · intro hdato
      simp [ERROR_TRAMA_DATO, ERR_OK] at hdato
    · rintro ⟨-, hn⟩
      exact absurd hv hn
  · rw [if_neg hv]
    exact ⟨h, fun hp => ⟨hp, hv⟩, fun hp => hp.1⟩

theorem checkVel_of_le (vel : HMICmdVar → UInt8) {p : Parse} (h : vel p.1 ≤ 8) : checkVel vel p = p :=
  if_neg ((vel_le_iff _).mp h)

/-- A field that is the token of a value is stored as the value. -/
theorem storeField_token {α : Type} [DecidableEq α] (t : FieldTable α) (a : α) (store : HMICmdVar → α → HMICmdVar)
    (p : Parse) : storeField t (t.token a) store p = (store p.1 a, p.2) := by
  unfold storeField
  rw [matchToken_eq t _ (t.token_length a), (t.read_iff_token _ a).mpr rfl]

theorem storeField_status {α : Type} [DecidableEq α] (t : FieldTable α) {field : List UInt8}
    (store : HMICmdVar → α → HMICmdVar) {p : Parse} (hlen : field.length = HMI_NETVAR_SIZE) (h : p.Status) :
    (storeField t field store p).Status ∧
      ((storeField t field store p).2 = ERR_OK ↔ p.2 = ERR_OK ∧ field ∈ t.tokens) := by
  unfold storeField
  rw [matchToken_eq t field hlen, ← t.read_isSome]
  cases t.read field with
  | none =>
    refine ⟨Or.inr rfl, ?_⟩
    simp [ERROR_TRAMA_DATO, ERR_OK]
  | some a => exact ⟨h, by simp⟩

/-- The fields leave status ERR_OK exactly when all of them are right, and the data error otherwise. -/
theorem parseFields_status {d : HMIData} (h : d.Sized) (v : HMICmdVar) :
    (parseFields d v).Status ∧ ((parseFields d v).2 = ERR_OK ↔ d.FieldsOk) := by
  have h0 : Parse.Status
      ({ v with
          posCmdArm := d.posCmdArm, posCmdPole := d.posCmdPole, velCmdArm := d.velCmdArm, velCmdPole := d.velCmdPole },
        ERR_OK) := Or.inl rfl
  obtain ⟨h1, e1⟩ := checkVel_status (·.velCmdArm) h0
  obtain ⟨h2, e2⟩ := checkVel_status (·.velCmdPole) h1
  obtain ⟨h3, e3⟩ := storeField_status modeTokens (fun v a => { v with mode := some a }) h.mode h2
  obtain ⟨h4, e4⟩ := storeField_status freeRunAxisTokens (fun v a => { v with freeRunAxis := some a }) h.freeRunAxis h3
  obtain ⟨h5, e5⟩ := storeField_status freeRunDirTokens (fun v a => { v with freeRunDir := some a }) h.freeRunDir h4
  obtain ⟨h6, e6⟩ := storeField_status ctrlEnTokens (fun v a => { v with ctrlEn := some a }) h.ctrlEn h5
  obtain ⟨h7, e7⟩ := storeField_status stallEnTokens (fun v a => { v with stallEn := some a }) h.stallEn h6
  obtain ⟨h8, e8⟩ := storeField_status liftDirTokens (fun v a => { v with liftDir := some a }) h.liftDir h7
  obtain ⟨h9, e9⟩ := storeField_status setCalTokens (fun v a => { v with setCal := some a }) h.setCal h8
  refine ⟨h9, ?_⟩
  show (storeField setCalTokens _ _ _).2 = ERR_OK ↔ _
  rw [e9, e8, e7, e6, e5, e4, e3, e2, e1, checkVel_fst]
  constructor
  · rintro ⟨⟨⟨⟨⟨⟨⟨⟨⟨-, harm⟩, hpole⟩, hmode⟩, haxis⟩, hdir⟩, hctrl⟩, hstall⟩, hlift⟩, hcal⟩
    exact ⟨harm, hpole, hmode, haxis, hdir, hctrl, hstall, hlift, hcal⟩
  · rintro ⟨harm, hpole, hmode, haxis, hdir, hctrl, hstall, hlift, hcal⟩
    exact ⟨⟨⟨⟨⟨⟨⟨⟨⟨rfl, harm⟩, hpole⟩, hmode⟩, haxis⟩, hdir⟩, hctrl⟩, hstall⟩, hlift⟩, hcal⟩

/-- The fields of a written command in range are stored as they are in the command, over whatever the variable held. -/
theorem parseFields_data {cmd : HMICmd} (harm : cmd.velCmdArm ≤ 8) (hpole : cmd.velCmdPole ≤ 8) (v : HMICmdVar) :
    parseFields cmd.data v = ({ cmd.stored with clientID := v.clientID }, ERR_OK) := by
  unfold parseFields HMICmd.data
  dsimp only
  rw [checkVel_of_le (·.velCmdArm) harm, checkVel_of_le (·.velCmdPole) hpole]
  simp only [storeField_token]
  rfl

/-- Fields that are right are those of a command in range. -/
theorem exists_data {d : HMIData} (hid : d.clientId = clientIdToken) (h : d.FieldsOk) :
    ∃ cmd : HMICmd, cmd.data = d ∧ cmd.clientID = .eSigned ∧ cmd.velCmdArm ≤ 8 ∧ cmd.velCmdPole ≤ 8 := by
  obtain ⟨mode, hmode⟩ := modeTokens.exists_token h.mode
  obtain ⟨freeRunAxis, haxis⟩ := freeRunAxisTokens.exists_token h.freeRunAxis
  obtain ⟨freeRunDir, hdir⟩ := freeRunDirTokens.exists_token h.freeRunDir
  obtain ⟨ctrlEn, hctrl⟩ := ctrlEnTokens.exists_token h.ctrlEn
  obtain ⟨stallEn, hstall⟩ := stallEnTokens.exists_token h.stallEn
  obtain ⟨liftDir, hlift⟩ := liftDirTokens.exists_token h.liftDir
  obtain ⟨setCal, hcal⟩ := setCalTokens.exists_token h.setCal
  refine ⟨⟨d.posCmdArm, d.posCmdPole, d.velCmdArm, d.velCmdPole, mode, freeRunAxis, freeRunDir, ctrlEn, stallEn, liftDir, setCal,
    .eSigned⟩, ?_, rfl, h.velCmdArm, h.velCmdPole⟩
  simp only [HMICmd.data, hmode, haxis, hdir, hctrl, hstall, hlift, hcal, ← hid]

/-- What a call does, by what it is given. -/
theorem netValues_eq (mem : Nat → UInt8) (v : HMICmdVar) (len : UInt16) :
    netValuesReceivedFromHMI mem v len =
      if len = 0 then (v, ERROR_TRAMA_VACIA)
      else if len ≠ RCV_TRAMA_LARGO then (v, ERROR_TRAMA_LARGO)
      else if bytes mem 41 HMI_NETVAR_SIZE ≠ clientIdToken then
        ({ v with clientID := some .eUnsigned }, ERROR_TRAMA_CLIENTE)
      else parseFields (HMIData.at mem) { v with clientID := some .eSigned } := by
  have hzero : len ≤ 0 ↔ len = 0 := by
    rw [UInt16.le_iff_toNat_le, ← UInt16.toNat_inj]
    exact Nat.le_zero
  have hcmp : strncmp (HMIData.at mem).clientId clientIdToken HMI_NETVAR_SIZE = 0 ↔
      bytes mem 41 HMI_NETVAR_SIZE = clientIdToken :=
    strncmp_eq_zero _ clientIdToken (bytes_length mem 41 5) (by decide)
  unfold netValuesReceivedFromHMI prvFormatoTramaRecv
  simp only [hzero, hcmp]
  by_cases h0 : len = 0
  · simp [h0, ERROR_TRAMA_VACIA, ERR_OK]
  · by_cases h51 : len = RCV_TRAMA_LARGO
    · subst h51
      by_cases hid : bytes mem 41 HMI_NETVAR_SIZE = clientIdToken <;> simp [hid, h0]
    · simp [h0, h51, ERROR_TRAMA_LARGO, ERR_OK]

@[simp] theorem command_stored (cmd : HMICmd) : cmd.stored.command = some cmd := rfl

/-- A written command in range, in a fragment of the length of a frame, is stored over whatever the variable held. -/
theorem netValues_data {mem : Nat → UInt8} {cmd : HMICmd} (hs : cmd.clientID = .eSigned) (harm : cmd.velCmdArm ≤ 8)
    (hpole : cmd.velCmdPole ≤ 8) (hat : HMIData.at mem = cmd.data) (v : HMICmdVar) :
    netValuesReceivedFromHMI mem v RCV_TRAMA_LARGO = (cmd.stored, ERR_OK) := by
  have hid : bytes mem 41 HMI_NETVAR_SIZE = clientIdToken := by
    have hclient : (HMIData.at mem).clientId = clientIdToken := by
      rw [hat]
      simp [HMICmd.data, hs]
    exact hclient
  rw [netValues_eq, if_neg (by decide), if_neg (by simp), if_neg (by simp [hid]), hat, parseFields_data harm hpole]
  simp [HMICmd.stored, hs]

/-- An accepted fragment is a written command, signed and in range, and has the length of a frame. -/
theorem exists_of_ok {mem : Nat → UInt8} {v : HMICmdVar} {len : UInt16}
    (h : (netValuesReceivedFromHMI mem v len).2 = ERR_OK) :
    len = RCV_TRAMA_LARGO ∧ ∃ cmd : HMICmd, HMIData.at mem = cmd.data ∧ cmd.clientID = .eSigned ∧ cmd.velCmdArm ≤ 8 ∧
      cmd.velCmdPole ≤ 8 := by
  rw [netValues_eq] at h
  by_cases h0 : len = 0
  · simp [h0, ERROR_TRAMA_VACIA, ERR_OK] at h
  by_cases h51 : len = RCV_TRAMA_LARGO
  · refine ⟨h51, ?_⟩
    by_cases hid : bytes mem 41 HMI_NETVAR_SIZE = clientIdToken
    · rw [if_neg h0, if_neg (by simp [h51]), if_neg (by simp [hid])] at h
      have hok := (parseFields_status (sized_at mem) _).2.mp h
      obtain ⟨cmd, hdata, hs, harm, hpole⟩ := exists_data (d := HMIData.at mem) hid hok
      exact ⟨cmd, hdata.symm, hs, harm, hpole⟩
    · rw [if_neg h0, if_neg (by simp [h51]), if_pos hid] at h
      simp [ERROR_TRAMA_CLIENTE, ERR_OK] at h
  · simp [h0, h51, ERROR_TRAMA_LARGO, ERR_OK] at h

/-- An accepted fragment leaves the same command in the variable, whatever the variable held. -/
theorem command_of_ok {mem : Nat → UInt8} {v : HMICmdVar} {len : UInt16}
    (h : (netValuesReceivedFromHMI mem v len).2 = ERR_OK) :
    ∃ cmd : HMICmd, cmd.data = HMIData.at mem ∧ ∀ v', netValuesReceivedFromHMI mem v' len = (cmd.stored, ERR_OK) := by
  obtain ⟨rfl, cmd, hat, hs, harm, hpole⟩ := exists_of_ok h
  exact ⟨cmd, hat.symm, fun v' => netValues_data hs harm hpole hat v'⟩

end Rtu
