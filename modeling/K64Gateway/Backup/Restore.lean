import K64Gateway.Lib.Updates
import K64Gateway.Backup.AnalogCfg
import K64Gateway.Backup.ZigbeeCfg

/-
  Backup and restore, `board/cfg/cfg_recover.c`: the sections of one device are read by another one.

  Proved: exactly when the other device has the same settings afterwards (`cfgRecover_restores`).
-/

namespace K64Gateway.Backup

open CString Cjson Updates

variable {R : Type} [CNumber R]

/-! ## Devices -/

/-- `BOARD_TCPIP_MAX` -/
abbrev boardTcpipMax : Nat := 8

/-- `BOARD_UART_MAX` -/
abbrev boardUartMax : Nat := 6

scoped instance neZeroBoardUartMax : NeZero boardUartMax := ⟨by decide⟩

/-- `ADC_CHANNEL_NUM` of the AD7689 -/
abbrev adcChannelNum : Nat := 8

/-- The settings of the sections. -/
structure Device (R : Type) where
  tcpip : Fin boardTcpipMax → TcpipCfg
  uart : Fin boardUartMax → UartCfg
  analog : Fin adcChannelNum → AnalogCfg R
  zigbee : ZigbeeCfg
  xferUart : Fin boardUartMax → XferUartCfg

def Device.default (behind : Nat → UInt8) : Device R where
  tcpip _ := .default
  uart _ := .default
  analog _ := .default
  zigbee := .default
  xferUart _ := .default behind

/-- What the hardware has: the types of the ports, the measured values and the module's version. -/
structure Hardware (R : Type) where
  uartType : Fin boardUartMax → UInt8
  mv : Fin adcChannelNum → R
  eg : Fin adcChannelNum → R
  ver : List UInt8

/-- `nUartGetInstance` of the serial ports. -/
def uartInstance : Fin 4 → Fin boardUartMax
  | 0 => 1
  | 1 => 4
  | 2 => 5
  | 3 => 0

theorem uartInstance_injective : Function.Injective uartInstance := by decide

/-- `nUartGetInstance`; -1 is none. -/
def nUartGetInstance (index : Int8) : Option (Fin boardUartMax) :=
  if h : 0 ≤ index.toInt ∧ index.toInt < 4 then
    some (uartInstance ⟨index.toInt.toNat, by omega⟩)
  else none

/-- `g_uart_cfgs[nUartGetInstance(dt)].uart_type` -/
def Hardware.portType (hw : Hardware R) (dt : Nat) : UInt8 :=
  match nUartGetInstance (Int8.ofNat dt) with
  | some i => hw.uartType i
  | none => 0

/-! ## The sections -/

variable (hw : Hardware R)

def setTcpipCfgWithJson (pCfg : Item R) (d : Device R) : Device R :=
  let n := intAt pCfg (chars ['n'])
  if h : 0 ≤ n ∧ n < boardTcpipMax then
    let i : Fin boardTcpipMax := ⟨n.toNat, by omega⟩
    { d with tcpip := Function.update d.tcpip i (setTcpipCfg hw.portType pCfg (d.tcpip i)) }
  else d

def setUartCfgWithJson (pCfg : Item R) (d : Device R) : Device R :=
  let n := intAt pCfg (chars ['n'])
  if h : 0 ≤ n ∧ n < 4 then
    let i := uartInstance ⟨n.toNat, by omega⟩
    { d with uart := Function.update d.uart i (setUartCfg pCfg (d.uart i)) }
  else d

def setAnalogCfgWithJson (pCfg : Item R) (d : Device R) : Device R :=
  let n := intAt pCfg (chars ['n'])
  if h : 0 ≤ n ∧ n < adcChannelNum then
    let i : Fin adcChannelNum := ⟨n.toNat, by omega⟩
    { d with analog := Function.update d.analog i (setAnalogCfg pCfg (d.analog i)) }
  else d

def setZigbeeCfgWithJson (pCfg : Item R) (d : Device R) : Device R :=
  { d with zigbee := setZigbeeCfg pCfg d.zigbee }

/-- `prvSetXferDstUartSet` -/
def prvSetXferDstUartSet (d : Device R) : Device R :=
  { d with tcpip := fun i => (d.tcpip i).setDstType hw.portType }

/-- A number that is not of a serial port is taken to change nothing. -/
def setXferUartCfgWithJson (pXferUCfg : Item R) (save_flag : Bool) (d : Device R) : Device R :=
  let num := intAt pXferUCfg (chars ['n'])
  if 0 ≤ num then
    match nUartGetInstance (Int8.ofInt num) with
    | some i =>
      let g := setXferUartCfg pXferUCfg (d.xferUart i)
      let d' := { d with xferUart := Function.update d.xferUart i g }
      if save_flag && (d.xferUart i).changed g then prvSetXferDstUartSet hw d' else d'
    | none => d
  else d

/-! ## Saving and recovering -/

/-- The types of the sections. -/
inductive CfgType
  | tcpip
  | uart
  | ai
  | zigbee
  | uartAdds
deriving DecidableEq

/-- `cfg_save_with_json`: the sections in their order. -/
def cfgSave (d : Device R) : List (CfgType × Item R) :=
  (List.finRange boardTcpipMax).map (fun n : Fin _ => (.tcpip, jsonTcpipCfg n (d.tcpip n))) ++
    (List.finRange 4).map (fun n : Fin _ =>
      (.uart, jsonUartCfg n (hw.uartType (uartInstance n)) (d.uart (uartInstance n)))) ++
    (List.finRange adcChannelNum).map (fun n : Fin _ =>
      (.ai, jsonAnalogCfg n (hw.mv n) (hw.eg n) (d.analog n))) ++
    [(.zigbee, jsonZigbeeCfg hw.ver d.zigbee),
      (.uartAdds, jsonXferUartCfg 0 (d.xferUart (uartInstance 0)))]

/-- `__parse_cfg_line` on the type and the section. -/
def parseCfg (d : Device R) : CfgType × Item R → Device R
  | (.tcpip, cfg) => setTcpipCfgWithJson hw cfg d
  | (.uart, cfg) => setUartCfgWithJson cfg d
  | (.ai, cfg) => setAnalogCfgWithJson cfg d
  | (.zigbee, cfg) => setZigbeeCfgWithJson cfg d
  | (.uartAdds, cfg) => setXferUartCfgWithJson hw cfg true d

/-- `cfg_recover_with_json` -/
def cfgRecover (sections : List (CfgType × Item R)) (d : Device R) : Device R :=
  sections.foldl (parseCfg hw) d

/-- The same settings are exported, the lists of all serial ports among them. -/
structure Restored (a d : Device R) : Prop where
  tcpip : ∀ n : Fin boardTcpipMax,
    jsonTcpipCfg (R := R) n (d.tcpip n) = jsonTcpipCfg n (a.tcpip n)
  uart : ∀ n : Fin 4,
    jsonUartCfg (R := R) n (hw.uartType (uartInstance n)) (d.uart (uartInstance n)) =
      jsonUartCfg n (hw.uartType (uartInstance n)) (a.uart (uartInstance n))
  analog : ∀ n : Fin adcChannelNum,
    jsonAnalogCfg n (hw.mv n) (hw.eg n) (d.analog n) =
      jsonAnalogCfg n (hw.mv n) (hw.eg n) (a.analog n)
  zigbee : jsonZigbeeCfg (R := R) hw.ver d.zigbee = jsonZigbeeCfg hw.ver a.zigbee
  xferUart : ∀ n : Fin 4,
    jsonXferUartCfg (R := R) n (d.xferUart (uartInstance n)) =
      jsonXferUartCfg n (a.xferUart (uartInstance n))

/-- The configurations that the setters lead to. -/
inductive Reachable : Device R → Prop
  | default (behind : Nat → UInt8) : Reachable (.default behind)
  | tcpip {d : Device R} (pCfg : Item R) : Reachable d → Reachable (setTcpipCfgWithJson hw pCfg d)
  | uart {d : Device R} (pCfg : Item R) : Reachable d → Reachable (setUartCfgWithJson pCfg d)
  | analog {d : Device R} (pCfg : Item R) : Reachable d → Reachable (setAnalogCfgWithJson pCfg d)
  | zigbee {d : Device R} (pCfg : Item R) : Reachable d → Reachable (setZigbeeCfgWithJson pCfg d)
  | xferUart {d : Device R} (pXferUCfg : Item R) (save_flag : Bool) :
      Reachable d → Reachable (setXferUartCfgWithJson hw pXferUCfg save_flag d)
  | sync {d : Device R} : Reachable d → Reachable (prvSetXferDstUartSet hw d)

/-! ## What the setters keep -/

structure Device.Ok (d : Device R) : Prop where
  tcpip : ∀ n, (d.tcpip n).Ok
  uart : ∀ n, (d.uart n).Ok
  analog : ∀ n, (d.analog n).Ok
  zigbee : d.zigbee.Ok

theorem update_ok {ι α : Type} [DecidableEq ι] {p : α → Prop} {table : ι → α} (h : ∀ i, p (table i))
    (i : ι) {x : α} (hx : p x) (j : ι) : p (Function.update table i x j) := by
  by_cases hj : j = i
  · rw [hj, Function.update_self]
    exact hx
  · rw [Function.update_of_ne hj]
    exact h j

theorem prvSetXferDstUartSet_ok {d : Device R} (h : d.Ok) : (prvSetXferDstUartSet hw d).Ok :=
  ⟨fun n => TcpipCfg.setDstType_ok hw.portType (h.tcpip n), h.uart, h.analog, h.zigbee⟩

variable {hw} in
theorem Reachable.ok {d : Device R} (h : Reachable hw d) : d.Ok := by
  induction h with
  | default behind =>
    exact ⟨fun _ => TcpipCfg.ok_default, fun _ => UartCfg.ok_default, fun _ => AnalogCfg.ok_default,
      ZigbeeCfg.ok_default⟩
  | tcpip pCfg _ ih =>
    unfold setTcpipCfgWithJson
    dsimp only
    split
    · exact ⟨update_ok ih.tcpip _ (setTcpipCfg_ok _ pCfg (ih.tcpip _)), ih.uart, ih.analog,
        ih.zigbee⟩
    · exact ih
  | uart pCfg _ ih =>
    unfold setUartCfgWithJson
    dsimp only
    split
    · exact ⟨ih.tcpip, update_ok ih.uart _ (setUartCfg_ok pCfg (ih.uart _)), ih.analog, ih.zigbee⟩
    · exact ih
  | analog pCfg _ ih =>
    unfold setAnalogCfgWithJson
    dsimp only
    split
    · exact ⟨ih.tcpip, ih.uart, update_ok ih.analog _ (setAnalogCfg_ok pCfg _), ih.zigbee⟩
    · exact ih
  | zigbee pCfg _ ih => exact ⟨ih.tcpip, ih.uart, ih.analog, setZigbeeCfg_ok pCfg ih.zigbee⟩
  | xferUart pXferUCfg save_flag _ ih =>
    unfold setXferUartCfgWithJson
    dsimp only
    split
    · split
      · split
        · exact prvSetXferDstUartSet_ok hw ⟨ih.tcpip, ih.uart, ih.analog, ih.zigbee⟩
        · exact ⟨ih.tcpip, ih.uart, ih.analog, ih.zigbee⟩
      · exact ih
    · exact ih
  | sync _ ih => exact prvSetXferDstUartSet_ok hw ih

/-! ## One section -/

/-- An entry's number is read back from its section. -/
theorem intAt_n {item : Item R} {k : Nat} (hk : k < 256)
    (h : getObjectItem item (chars ['n']) = some (number (k : Int))) :
    intAt item (chars ['n']) = k := intAt_number (by omega) h

theorem setTcpipCfgWithJson_json {a : TcpipCfg} (h : a.Ok) (n : Fin boardTcpipMax) (d : Device R) :
    setTcpipCfgWithJson hw (jsonTcpipCfg n a) d =
      { d with tcpip := Function.update d.tcpip n (a.merge hw.portType (d.tcpip n)) } := by
  have hn : intAt (jsonTcpipCfg (R := R) n a) (chars ['n']) = n.val :=
    intAt_n (Nat.lt_of_lt_of_le n.isLt (by decide)) rfl
  unfold setTcpipCfgWithJson
  simp only [hn, setTcpipCfg_json hw.portType h]
  rw [dif_pos ⟨Int.natCast_nonneg _, by omega⟩]
  simp only [Int.toNat_natCast, Fin.eta]

theorem setUartCfgWithJson_json (n : Fin 4) (ut : UInt8) (a : UartCfg) (d : Device R) :
    setUartCfgWithJson (jsonUartCfg n ut a) d =
      { d with
        uart := Function.update d.uart (uartInstance n)
          (setUartCfg (jsonUartCfg (R := R) n ut a) (d.uart (uartInstance n))) } := by
  have hn : intAt (jsonUartCfg (R := R) n ut a) (chars ['n']) = n.val := intAt_n (by omega) rfl
  unfold setUartCfgWithJson
  simp only [hn]
  rw [dif_pos ⟨Int.natCast_nonneg _, by omega⟩]
  simp only [Int.toNat_natCast, Fin.eta]

theorem setAnalogCfgWithJson_json (n : Fin adcChannelNum) (mv eg : R) (a : AnalogCfg R)
    (d : Device R) :
    setAnalogCfgWithJson (jsonAnalogCfg n mv eg a) d =
      { d with
        analog := Function.update d.analog n
          (setAnalogCfg (jsonAnalogCfg n mv eg a) (d.analog n)) } := by
  have hn : intAt (jsonAnalogCfg n mv eg a) (chars ['n']) = n.val :=
    intAt_n (Nat.lt_of_lt_of_le n.isLt (by decide)) rfl
  unfold setAnalogCfgWithJson
  simp only [hn]
  rw [dif_pos ⟨Int.natCast_nonneg _, by omega⟩]
  simp only [Int.toNat_natCast, Fin.eta]

theorem setXferUartCfgWithJson_json (a : XferUartCfg) (d : Device R) :
    setXferUartCfgWithJson hw (jsonXferUartCfg 0 a) true d =
      let g := setXferUartCfg (jsonXferUartCfg (R := R) 0 a) (d.xferUart (uartInstance 0))
      let d' := { d with xferUart := Function.update d.xferUart (uartInstance 0) g }
      if a.differs (d.xferUart (uartInstance 0)) then prvSetXferDstUartSet hw d' else d' := by
  have hn : intAt (jsonXferUartCfg (R := R) 0 a) (chars ['n']) = 0 :=
    intAt_n (k := 0) (by decide) rfl
  have hinst : nUartGetInstance (Int8.ofInt 0) = some (uartInstance 0) := rfl
  unfold setXferUartCfgWithJson
  dsimp only
  rw [hn, if_pos (Int.le_refl 0), hinst]
  dsimp only
  rw [changed_setXferUartCfg, Bool.true_and]

/-! ## All sections -/

theorem cfgRecover_append (l l' : List (CfgType × Item R)) (d : Device R) :
    cfgRecover hw (l ++ l') d = cfgRecover hw l' (cfgRecover hw l d) := List.foldl_append

theorem cfgRecover_tcpip {a : Fin boardTcpipMax → TcpipCfg} (h : ∀ n, (a n).Ok)
    (l : List (Fin boardTcpipMax)) (d : Device R) :
    cfgRecover hw (l.map fun n : Fin _ => (.tcpip, jsonTcpipCfg n (a n))) d =
      { d with tcpip := updates id (fun n => (a n).merge hw.portType) d.tcpip l } := by
  induction l generalizing d with
  | nil => rfl
  | cons n l ih =>
    refine (ih (setTcpipCfgWithJson hw (jsonTcpipCfg n (a n)) d)).trans ?_
    rw [setTcpipCfgWithJson_json hw (h n)]
    rfl

theorem cfgRecover_uart (ut : Fin 4 → UInt8) (a : Fin 4 → UartCfg) (l : List (Fin 4))
    (d : Device R) :
    cfgRecover hw (l.map fun n : Fin _ => (.uart, jsonUartCfg n (ut n) (a n))) d =
      { d with
        uart := updates uartInstance
          (fun n => setUartCfg (jsonUartCfg (R := R) n (ut n) (a n))) d.uart l } := by
  induction l generalizing d with
  | nil => rfl
  | cons n l ih =>
    refine (ih (setUartCfgWithJson (jsonUartCfg n (ut n) (a n)) d)).trans ?_
    rw [setUartCfgWithJson_json]
    rfl

theorem cfgRecover_ai (mv eg : Fin adcChannelNum → R) (a : Fin adcChannelNum → AnalogCfg R)
    (l : List (Fin adcChannelNum)) (d : Device R) :
    cfgRecover hw (l.map fun n : Fin _ => (.ai, jsonAnalogCfg n (mv n) (eg n) (a n))) d =
      { d with
        analog := updates id
          (fun n => setAnalogCfg (jsonAnalogCfg n (mv n) (eg n) (a n))) d.analog l } := by
  induction l generalizing d with
  | nil => rfl
  | cons n l ih =>
    refine (ih (setAnalogCfgWithJson (jsonAnalogCfg n (mv n) (eg n) (a n)) d)).trans ?_
    rw [setAnalogCfgWithJson_json]
    rfl

variable {hw}

/-- The device after all sections. -/
theorem cfgRecover_cfgSave {a : Device R} (h : a.Ok) (b : Device R) :
    let d := cfgRecover hw (cfgSave hw a) b
    let list := a.xferUart (uartInstance 0)
    (∀ n, d.tcpip n = (a.tcpip n).restored hw.portType
      (list.differs (b.xferUart (uartInstance 0))) (b.tcpip n)) ∧
    (∀ n : Fin 4, d.uart (uartInstance n) =
      setUartCfg (jsonUartCfg (R := R) n (hw.uartType (uartInstance n)) (a.uart (uartInstance n)))
        (b.uart (uartInstance n))) ∧
    (∀ n, d.analog n =
      setAnalogCfg (jsonAnalogCfg n (hw.mv n) (hw.eg n) (a.analog n)) (b.analog n)) ∧
    d.zigbee = setZigbeeCfg (jsonZigbeeCfg (R := R) hw.ver a.zigbee) b.zigbee ∧
    d.xferUart = Function.update b.xferUart (uartInstance 0)
      (setXferUartCfg (jsonXferUartCfg (R := R) 0 list) (b.xferUart (uartInstance 0))) := by
  have htcpip : ∀ n, updates id (fun n => (a.tcpip n).merge hw.portType) b.tcpip
      (List.finRange boardTcpipMax) n = (a.tcpip n).merge hw.portType (b.tcpip n) := fun n =>
    updates_of_mem Function.injective_id _ _ (List.nodup_finRange _) (List.mem_finRange n)
  have huart := fun n => updates_of_mem uartInstance_injective
    (fun n => setUartCfg (jsonUartCfg (R := R) n (hw.uartType (uartInstance n))
      (a.uart (uartInstance n)))) b.uart (List.nodup_finRange 4) (List.mem_finRange n)
  have hai := fun n => updates_of_mem Function.injective_id
    (fun n : Fin _ => setAnalogCfg (jsonAnalogCfg n (hw.mv n) (hw.eg n) (a.analog n))) b.analog
    (List.nodup_finRange adcChannelNum) (List.mem_finRange n)
  dsimp only
  unfold cfgSave
  rw [cfgRecover_append, cfgRecover_append, cfgRecover_append, cfgRecover_tcpip hw h.tcpip,
    cfgRecover_uart, cfgRecover_ai]
  show _ ∧ _
  simp only [cfgRecover, List.foldl_cons, List.foldl_nil, parseCfg, setXferUartCfgWithJson_json,
    setZigbeeCfgWithJson]
  split
  · next hdiffers =>
    dsimp only [prvSetXferDstUartSet]
    refine ⟨fun n => ?_, huart, hai, rfl, rfl⟩
    unfold TcpipCfg.restored
    rw [hdiffers, if_pos rfl, htcpip n]
  · next hdiffers =>
    dsimp only
    refine ⟨fun n => ?_, huart, hai, rfl, rfl⟩
    unfold TcpipCfg.restored
    rw [if_neg hdiffers, htcpip n]

/-! ## Restoring -/

variable (hw) in
/-- When all the settings come back. Only the list of the first serial port is restored, so that
    the other ones have to be the same before. -/
structure Device.Restores (a b : Device R) : Prop where
  tcpip : ∀ n, (a.tcpip n).Restores hw.portType
    ((a.xferUart (uartInstance 0)).differs (b.xferUart (uartInstance 0))) (b.tcpip n)
  uart : ∀ n : Fin 4, (a.uart (uartInstance n)).luaProto = [] →
    (b.uart (uartInstance n)).luaProto = []
  analog : ∀ n, (a.analog n).interval.toNat = (a.analog n).range.toNat
  zigbee : a.zigbee.Restores b.zigbee
  listed : ∀ i, xferUartAddrsNum ≤ i → i < (a.xferUart (uartInstance 0)).count.val →
    (a.xferUart (uartInstance 0)).addrs i = (b.xferUart (uartInstance 0)).addrs i
  others : ∀ n : Fin 4, n ≠ 0 → SameList (b.xferUart (uartInstance n)) (a.xferUart (uartInstance n))

theorem cfgRecover_restores [ExactNumber R] {a : Device R} (h : Reachable hw a) (b : Device R) :
    Restored hw a (cfgRecover hw (cfgSave hw a) b) ↔ a.Restores hw b := by
  have hok := h.ok
  obtain ⟨htcpip, huart, hanalog, hzigbee, hxfer⟩ := cfgRecover_cfgSave hok b
  have hother : ∀ n : Fin 4, n ≠ 0 →
      (cfgRecover hw (cfgSave hw a) b).xferUart (uartInstance n) = b.xferUart (uartInstance n) :=
    fun n hn => by
      rw [hxfer, Function.update_of_ne fun heq => hn (uartInstance_injective heq)]
  have hfirst : (cfgRecover hw (cfgSave hw a) b).xferUart (uartInstance 0) =
      setXferUartCfg (jsonXferUartCfg (R := R) 0 (a.xferUart (uartInstance 0)))
        (b.xferUart (uartInstance 0)) := by
    rw [hxfer, Function.update_self]
  constructor
  · intro hrestored
    refine ⟨fun n => ?_, fun n => ?_, fun n => ?_, ?_, ?_, fun n hn => ?_⟩
    · exact (jsonTcpipCfg_restore _ (hok.tcpip n).mode _ n _).mp (htcpip n ▸ hrestored.tcpip n)
    · exact (jsonUartCfg_restore (hok.uart _) n _ _).mp (huart n ▸ hrestored.uart n)
    · exact (jsonAnalogCfg_restore (hok.analog n) n _ _ _).mp (hanalog n ▸ hrestored.analog n)
    · exact (jsonZigbeeCfg_restore hok.zigbee _ _).mp (hzigbee ▸ hrestored.zigbee)
    · exact (jsonXferUartCfg_restore _ 0 _).mp (hfirst ▸ hrestored.xferUart 0)
    · exact (jsonXferUartCfg_eq_iff n _ _).mp (hother n hn ▸ hrestored.xferUart n)
  · intro hrestores
    refine ⟨fun n => ?_, fun n => ?_, fun n => ?_, ?_, fun n => ?_⟩
    · rw [htcpip n]
      exact (jsonTcpipCfg_restore _ (hok.tcpip n).mode _ n _).mpr (hrestores.tcpip n)
    · rw [huart n]
      exact (jsonUartCfg_restore (hok.uart _) n _ _).mpr (hrestores.uart n)
    · rw [hanalog n]
      exact (jsonAnalogCfg_restore (hok.analog n) n _ _ _).mpr (hrestores.analog n)
    · rw [hzigbee]
      exact (jsonZigbeeCfg_restore hok.zigbee _ _).mpr hrestores.zigbee
    · by_cases hn : n = 0
      · rw [hn, hfirst]
        exact (jsonXferUartCfg_restore _ 0 _).mpr hrestores.listed
      · rw [hother n hn]
        exact (jsonXferUartCfg_eq_iff n _ _).mpr (hrestores.others n hn)

/-- A board whose ports have the type 1. -/
def someHardware : Hardware Int := ⟨fun _ => 1, fun _ => 0, fun _ => 0, []⟩

/-- A second port of another speed. -/
def portSection : Item Int := .object [(chars ['n'], number 1), (chars ['b', 'd'], number 9600)]

theorem port_restored :
    Restored someHardware (setUartCfgWithJson portSection (.default fun _ => 0))
      (cfgRecover someHardware
        (cfgSave someHardware (setUartCfgWithJson portSection (.default fun _ => 0)))
        (.default fun _ => 0)) :=
  have hnormal : ¬ (0 : UInt8) = 1 := by decide
  (cfgRecover_restores (.uart portSection (.default fun _ => 0)) (.default fun _ => 0)).mpr
    { tcpip := fun _ => ⟨fun h => absurd h hnormal, fun h => absurd h hnormal,
        fun h => absurd h hnormal⟩
      uart := fun _ _ => rfl
      analog := fun _ => rfl
      zigbee := ⟨fun _ => rfl, fun _ => rfl, fun _ => rfl, rfl, fun _ => rfl⟩
      listed := fun _ _ h => absurd h (Nat.not_lt_zero _)
      others := fun _ _ => ⟨rfl, rfl, fun _ _ => rfl⟩ }

/-- An input of another range. -/
def rangeSection : Item Int := .object [(chars ['n'], number 0), (chars ['r', 'g'], number 2)]

theorem range_not_restored :
    ¬ ∀ a b : Device Int, Reachable someHardware a →
      Restored someHardware a (cfgRecover someHardware (cfgSave someHardware a) b) := by
  intro hclaim
  have hreach : Reachable someHardware (setAnalogCfgWithJson rangeSection (.default fun _ => 0)) :=
    .analog rangeSection (.default fun _ => 0)
  have hrestored := (hclaim _ (.default fun _ => 0) hreach).analog 0
  rw [(cfgRecover_cfgSave hreach.ok _).2.2.1 0] at hrestored
  have hsame := (jsonAnalogCfg_restore (hreach.ok.analog 0) 0 _ _ _).mp hrestored
  revert hsame
  decide

end K64Gateway.Backup
