import K64Gateway.Backup.UartCfg

/-
  The connections, `board/cfg/tcpip_cfg.c`.

  Proved: exactly when a connection that is restored from its own export is the same
  (`jsonTcpipCfg_restore`).
-/

namespace K64Gateway.Backup

open CString Cjson

variable {R : Type} [CNumber R]

/-- `xfer_dst_uart_cfg` -/
structure XferDst where
  cfg : UartPortCfg
  type : UInt8
deriving DecidableEq

/-- `tcpip_cfg_t`, with the fields of the union `cfg` by their offsets: `u0`, `u1` and `u2` are
    `normal.proto_type`, `normal.proto_ms` and `normal.maddress`, `u0` is `xfer.mode` too; `u4` and
    `u5` are `gw.proto_type` and `gw.dst_type`, `u4` is `trt.dst_type` too; `dst` is both's
    `dst_cfg`. -/
structure TcpipCfg where
  enable : Bool
  tcpipType : UInt8
  tcpipCs : UInt8
  peer : List UInt8
  port : UInt16
  interval : UInt32
  keepalive : Bool
  mode : UInt8
  u0 : UInt8
  u1 : UInt8
  u2 : UInt8
  u4 : UInt8
  u5 : UInt8
  dst : XferDst

/-- `c_tcpip_cfg_default` -/
def TcpipCfg.default : TcpipCfg where
  enable := false
  tcpipType := 0
  tcpipCs := 0
  peer := []
  port := 0
  interval := 0
  keepalive := true
  mode := 0
  u0 := 0
  u1 := 0
  u2 := 1
  u4 := 0
  u5 := 0
  dst := ⟨⟨0, 0, 0, 0⟩, 0⟩

/-- `dst_type` of the transfer mode. -/
def TcpipCfg.dstType (g : TcpipCfg) : UInt8 := if g.u0 = 0 then g.u5 else g.u4

/-! ## The setter -/

/-- The fields that every mode has. -/
def TcpipCfg.setCommon (pCfg : Item R) (g : TcpipCfg) : TcpipCfg :=
  let po := intAt pCfg (chars ['p', 'o'])
  { g with
    enable := setFlag (intAt pCfg (chars ['e', 'n'])) g.enable
    tcpipType := setIf (intAt pCfg (chars ['t', 't'])) UInt8.ofNat g.tcpipType
    tcpipCs := setIf (intAt pCfg (chars ['c', 's'])) UInt8.ofNat g.tcpipCs
    peer := match strAt pCfg (chars ['p', 'e']) with
      | some pe => if pe.length < 64 then pe else g.peer
      | none => g.peer
    port := if po ≤ 65535 then setIf po UInt16.ofNat g.port else g.port
    interval := setIf (intAt pCfg (chars ['i', 't'])) UInt32.ofNat g.interval
    keepalive := setFlag (intAt pCfg (chars ['k', 'l'])) g.keepalive }

def TcpipCfg.setNormal (normal : Item R) (g : TcpipCfg) : TcpipCfg :=
  let mad := intAt normal (chars ['m', 'a', 'd'])
  { g with
    u0 := setIf (intAt normal (chars ['p', 't'])) UInt8.ofNat g.u0
    u1 := setIf (intAt normal (chars ['m', 's'])) UInt8.ofNat g.u1
    u2 := if 1 ≤ mad ∧ mad ≤ 247 then UInt8.ofNat mad.toNat else g.u2 }

section
variable (uartType : Nat → UInt8)

/-- The target of a transfer, if it is a serial port; `uartType` is the type of these. -/
def TcpipCfg.setDst (xfer : Item R) (g : TcpipCfg) : TcpipCfg :=
  let dt := intAt xfer (chars ['d', 't'])
  if 0 ≤ dt ∧ dt ≤ 3 then
    { g with
      dst :=
        { type := uartType dt.toNat
          cfg := g.dst.cfg.set xfer (chars ['u', 'b', 'r']) (chars ['u', 'd', 'b'])
            (chars ['u', 's', 'b']) (chars ['u', 'p', 'y']) } }
  else g

def TcpipCfg.setXfer (xfer : Item R) (g : TcpipCfg) : TcpipCfg :=
  let md := intAt xfer (chars ['m', 'd'])
  let dt := intAt xfer (chars ['d', 't'])
  if 0 ≤ md ∧ md < 2 then
    let g := { g with
      u0 := UInt8.ofNat md.toNat
      u4 := if md = 0 then setIf (intAt xfer (chars ['p', 't'])) UInt8.ofNat g.u4
        else setIf dt UInt8.ofNat g.u4
      u5 := if md = 0 then setIf dt UInt8.ofNat g.u5 else g.u5 }
    g.setDst uartType xfer
  else g

/-- `setTcpipCfgWithJson` on its connection. -/
def setTcpipCfg (pCfg : Item R) (g : TcpipCfg) : TcpipCfg :=
  let md := intAt pCfg (chars ['m', 'd'])
  if 0 ≤ md ∧ md < 2 then
    let g := { g.setCommon pCfg with mode := UInt8.ofNat md.toNat }
    if md = 0 then
      match getObjectItem pCfg (chars ['n', 'o', 'r', 'm', 'a', 'l']) with
      | some normal => g.setNormal normal
      | none => g
    else
      match getObjectItem pCfg (chars ['x', 'f', 'e', 'r']) with
      | some xfer => g.setXfer uartType xfer
      | none => g
  else g

/-- What `prvSetXferDstUartSet` does to a connection: the type of a transfer's target. -/
def TcpipCfg.setDstType (g : TcpipCfg) : TcpipCfg :=
  { g with
    dst :=
      { g.dst with
        type :=
          if g.enable = true ∧ g.mode = 1 ∧ (g.u0 = 0 ∨ g.u0 = 1) then
            if g.dstType ≤ 3 then uartType g.dstType.toNat
            else if g.dstType = 5 then 2
            else g.dst.type
          else g.dst.type } }

end

/-! ## The export -/

def jsonNormal (g : TcpipCfg) : Item R :=
  .object [(chars ['p', 't'], number g.u0.toNat), (chars ['m', 's'], number g.u1.toNat),
    (chars ['m', 'a', 'd'], number g.u2.toNat)]

/-- The fields of the target. -/
def jsonDst (d : XferDst) : List (List UInt8 × Item R) :=
  [(chars ['u', 't', 'y'], number d.type.toNat),
    (chars ['u', 'b', 'r'], number d.cfg.baudRate.toNat),
    (chars ['u', 'd', 'b'], number d.cfg.dataBits.toNat),
    (chars ['u', 's', 'b'], number d.cfg.stopBits.toNat),
    (chars ['u', 'p', 'y'], number d.cfg.parity.toNat)]

def jsonXfer (g : TcpipCfg) : Item R :=
  .object ((chars ['m', 'd'], number g.u0.toNat) ::
    (if g.u0 = 0 then
      (chars ['p', 't'], number g.u4.toNat) :: (chars ['d', 't'], number g.u5.toNat) :: jsonDst g.dst
    else if g.u0 = 1 then (chars ['d', 't'], number g.u4.toNat) :: jsonDst g.dst
    else []))

/-- `jsonTcpipCfg` -/
def jsonTcpipCfg (n : Nat) (g : TcpipCfg) : Item R :=
  .object ([(chars ['n'], number n), (chars ['e', 'n'], number g.enable.toNat),
    (chars ['m', 'd'], number g.mode.toNat), (chars ['t', 't'], number g.tcpipType.toNat),
    (chars ['c', 's'], number g.tcpipCs.toNat), (chars ['p', 'e'], .string g.peer),
    (chars ['p', 'o'], number g.port.toNat), (chars ['i', 't'], number g.interval.toNat),
    (chars ['k', 'l'], number g.keepalive.toNat)] ++
    (if g.mode = 0 then [(chars ['n', 'o', 'r', 'm', 'a', 'l'], jsonNormal g)]
    else if g.mode = 1 then [(chars ['x', 'f', 'e', 'r'], jsonXfer g)]
    else []))

/-! ## What the setter keeps -/

/-- The numbers of an `int`, a string that fits the array and an address in its limits. -/
structure TcpipCfg.Ok (g : TcpipCfg) : Prop where
  peerLength : g.peer.length < 64
  peerString : (0 : UInt8) ∉ g.peer
  interval : g.interval.toNat < 2147483648
  mode : g.mode = 0 ∨ g.mode = 1
  maddress : 1 ≤ g.u2.toNat ∧ g.u2.toNat ≤ 247
  baudRate : g.dst.cfg.baudRate.toNat < 2147483648

theorem TcpipCfg.ok_default : TcpipCfg.default.Ok :=
  ⟨by decide, List.not_mem_nil, by decide, .inl rfl, by decide, by decide⟩

theorem TcpipCfg.setCommon_ok (pCfg : Item R) {g : TcpipCfg} (h : g.Ok) :
    (g.setCommon pCfg).Ok := by
  have hpeer : (g.setCommon pCfg).peer.length < 64 ∧ (0 : UInt8) ∉ (g.setCommon pCfg).peer := by
    unfold TcpipCfg.setCommon strAt
    dsimp only
    cases getString pCfg (chars ['p', 'e']) with
    | none => exact ⟨h.peerLength, h.peerString⟩
    | some s =>
      dsimp only [Option.map_some]
      split
      · next hlen => exact ⟨hlen, zero_not_mem_cstr s⟩
      · exact ⟨h.peerLength, h.peerString⟩
  exact ⟨hpeer.1, hpeer.2, setIf_lt h.interval (intAt_lt _ _) (by decide), h.mode, h.maddress,
    h.baudRate⟩

theorem TcpipCfg.setNormal_ok (normal : Item R) {g : TcpipCfg} (h : g.Ok) :
    (g.setNormal normal).Ok := by
  have hmad : 1 ≤ (g.setNormal normal).u2.toNat ∧ (g.setNormal normal).u2.toNat ≤ 247 := by
    unfold TcpipCfg.setNormal
    dsimp only
    split
    · next hrange =>
      rw [UInt8.toNat_ofNat_of_lt' (by show Int.toNat _ < 256; omega)]
      omega
    · exact h.maddress
  exact ⟨h.peerLength, h.peerString, h.interval, h.mode, hmad, h.baudRate⟩

theorem TcpipCfg.setXfer_ok (uartType : Nat → UInt8) (xfer : Item R) {g : TcpipCfg} (h : g.Ok) :
    (g.setXfer uartType xfer).Ok := by
  unfold TcpipCfg.setXfer TcpipCfg.setDst
  dsimp only
  split
  · split
    · exact ⟨h.peerLength, h.peerString, h.interval, h.mode, h.maddress,
        setIf_lt h.baudRate (intAt_lt _ _) (by decide)⟩
    · exact ⟨h.peerLength, h.peerString, h.interval, h.mode, h.maddress, h.baudRate⟩
  · exact h

theorem setTcpipCfg_ok (uartType : Nat → UInt8) (pCfg : Item R) {g : TcpipCfg} (h : g.Ok) :
    (setTcpipCfg uartType pCfg g).Ok := by
  unfold setTcpipCfg
  dsimp only
  split
  · next hrange =>
    have hcommon := TcpipCfg.setCommon_ok pCfg h
    have hset : ({ g.setCommon pCfg with
        mode := UInt8.ofNat (intAt pCfg (chars ['m', 'd'])).toNat } : TcpipCfg).Ok := by
      refine ⟨hcommon.peerLength, hcommon.peerString, hcommon.interval, ?_, hcommon.maddress,
        hcommon.baudRate⟩
      have hcases : (intAt pCfg (chars ['m', 'd'])).toNat = 0 ∨
          (intAt pCfg (chars ['m', 'd'])).toNat = 1 := by omega
      rcases hcases with hmode | hmode
      · exact .inl (by rw [hmode]; rfl)
      · exact .inr (by rw [hmode]; rfl)
    split
    · split
      · exact TcpipCfg.setNormal_ok _ hset
      · exact hset
    · split
      · exact TcpipCfg.setXfer_ok uartType _ hset
      · exact hset
  · exact h

theorem TcpipCfg.setDstType_ok (uartType : Nat → UInt8) {g : TcpipCfg} (h : g.Ok) :
    (g.setDstType uartType).Ok :=
  ⟨h.peerLength, h.peerString, h.interval, h.mode, h.maddress, h.baudRate⟩

/-! ## The same export -/

theorem jsonDst_inj [ExactNumber R] {d e : XferDst} :
    jsonDst (R := R) d = jsonDst e ↔ d = e := by
  constructor
  · intro heq
    have hget : ∀ key, getObjectItem (.object (jsonDst (R := R) d)) key =
        getObjectItem (.object (jsonDst e)) key := fun key => by rw [heq]
    have huty := Option.some.inj (hget (chars ['u', 't', 'y']))
    have hubr := Option.some.inj (hget (chars ['u', 'b', 'r']))
    have hudb := Option.some.inj (hget (chars ['u', 'd', 'b']))
    have husb := Option.some.inj (hget (chars ['u', 's', 'b']))
    have hupy := Option.some.inj (hget (chars ['u', 'p', 'y']))
    have htype : d.type = e.type := UInt8.toNat_inj.mp
      ((number_inj (by have := d.type.toNat_lt; omega) (by have := e.type.toNat_lt; omega)).mp huty)
    have hbaud : d.cfg.baudRate = e.cfg.baudRate := UInt32.toNat_inj.mp
      ((number_inj d.cfg.baudRate.toNat_lt e.cfg.baudRate.toNat_lt).mp hubr)
    have hdata : d.cfg.dataBits = e.cfg.dataBits := BitVec.eq_of_toNat_eq
      ((number_inj (by have := d.cfg.dataBits.isLt; omega)
        (by have := e.cfg.dataBits.isLt; omega)).mp hudb)
    have hstop : d.cfg.stopBits = e.cfg.stopBits := BitVec.eq_of_toNat_eq
      ((number_inj (by have := d.cfg.stopBits.isLt; omega)
        (by have := e.cfg.stopBits.isLt; omega)).mp husb)
    have hparity : d.cfg.parity = e.cfg.parity := BitVec.eq_of_toNat_eq
      ((number_inj (by have := d.cfg.parity.isLt; omega)
        (by have := e.cfg.parity.isLt; omega)).mp hupy)
    obtain ⟨⟨_, _, _, _⟩, _⟩ := d
    obtain ⟨⟨_, _, _, _⟩, _⟩ := e
    dsimp only at htype hbaud hdata hstop hparity
    rw [htype, hbaud, hdata, hstop, hparity]
  · intro heq
    rw [heq]

/-- The fields that are exported of a transfer. -/
structure TcpipCfg.SameXfer (x y : TcpipCfg) : Prop where
  mode : x.u0 = y.u0
  proto : y.u0 = 0 → x.u4 = y.u4
  dstType : y.u0 = 0 ∨ y.u0 = 1 → x.dstType = y.dstType
  dst : y.u0 = 0 ∨ y.u0 = 1 → x.dst = y.dst

theorem jsonXfer_gw {g : TcpipCfg} (hgw : g.u0 = 0) :
    jsonXfer (R := R) g = .object ((chars ['m', 'd'], number g.u0.toNat) ::
      (chars ['p', 't'], number g.u4.toNat) :: (chars ['d', 't'], number g.dstType.toNat) ::
        jsonDst g.dst) := by
  unfold jsonXfer TcpipCfg.dstType
  rw [if_pos hgw, if_pos hgw]

theorem jsonXfer_trt {g : TcpipCfg} (htrt : g.u0 = 1) :
    jsonXfer (R := R) g = .object ((chars ['m', 'd'], number g.u0.toNat) ::
      (chars ['d', 't'], number g.dstType.toNat) :: jsonDst g.dst) := by
  have hne : g.u0 ≠ 0 := by
    rw [htrt]
    decide
  unfold jsonXfer TcpipCfg.dstType
  rw [if_neg hne, if_pos htrt, if_neg hne]

theorem jsonXfer_eq_iff [ExactNumber R] (x y : TcpipCfg) :
    jsonXfer (R := R) x = jsonXfer y ↔ x.SameXfer y := by
  have hbyte : ∀ {p q : UInt8}, (number (p.toNat : Int) : Item R) = number (q.toNat : Int) →
      p = q := fun {p q} heq => UInt8.toNat_inj.mp
    ((number_inj (by have := p.toNat_lt; omega) (by have := q.toNat_lt; omega)).mp heq)
  constructor
  · intro heq
    have hu0 : x.u0 = y.u0 := hbyte (Option.some.inj
      (congrArg (fun item => getObjectItem item (chars ['m', 'd'])) heq))
    by_cases hgw : y.u0 = 0
    · rw [jsonXfer_gw (hu0.trans hgw), jsonXfer_gw hgw] at heq
      injection heq with heq
      injection heq with _ heq
      injection heq with hpt heq
      injection heq with hdt hdst
      exact ⟨hu0, fun _ => hbyte (Prod.mk.inj hpt).2, fun _ => hbyte (Prod.mk.inj hdt).2,
        fun _ => jsonDst_inj.mp hdst⟩
    · refine ⟨hu0, fun h0 => absurd h0 hgw, fun hmode => ?_, fun hmode => ?_⟩
      all_goals
        have htrt : y.u0 = 1 := hmode.resolve_left hgw
        rw [jsonXfer_trt (hu0.trans htrt), jsonXfer_trt htrt] at heq
        injection heq with heq
        injection heq with _ heq
        injection heq with hdt hdst
      · exact hbyte (Prod.mk.inj hdt).2
      · exact jsonDst_inj.mp hdst
  · intro hsame
    by_cases hgw : y.u0 = 0
    · rw [jsonXfer_gw (hsame.mode.trans hgw), jsonXfer_gw hgw, hsame.mode, hsame.proto hgw,
        hsame.dstType (.inl hgw), hsame.dst (.inl hgw)]
    · by_cases htrt : y.u0 = 1
      · rw [jsonXfer_trt (hsame.mode.trans htrt), jsonXfer_trt htrt, hsame.mode,
          hsame.dstType (.inr htrt), hsame.dst (.inr htrt)]
      · unfold jsonXfer
        rw [hsame.mode, if_neg hgw, if_neg hgw, if_neg htrt, if_neg htrt]

/-! ## Restoring -/

theorem TcpipCfg.setCommon_json {a : TcpipCfg} (h : a.Ok) (n : Nat) (b : TcpipCfg) :
    b.setCommon (jsonTcpipCfg (R := R) n a) =
      { a with
        mode := b.mode
        u0 := b.u0
        u1 := b.u1
        u2 := b.u2
        u4 := b.u4
        u5 := b.u5
        dst := b.dst } := by
  have hen : intAt (jsonTcpipCfg (R := R) n a) (chars ['e', 'n']) = a.enable.toNat :=
    intAt_number (by have := a.enable.toNat_le; omega) rfl
  have htt : intAt (jsonTcpipCfg (R := R) n a) (chars ['t', 't']) = a.tcpipType.toNat :=
    intAt_number (by have := a.tcpipType.toNat_lt; omega) rfl
  have hcs : intAt (jsonTcpipCfg (R := R) n a) (chars ['c', 's']) = a.tcpipCs.toNat :=
    intAt_number (by have := a.tcpipCs.toNat_lt; omega) rfl
  have hpe : strAt (jsonTcpipCfg (R := R) n a) (chars ['p', 'e']) = some a.peer := by
    rw [strAt_string (s := a.peer) rfl, cstr_of_not_mem h.peerString]
  have hpo : intAt (jsonTcpipCfg (R := R) n a) (chars ['p', 'o']) = a.port.toNat :=
    intAt_number (by have := a.port.toNat_lt; omega) rfl
  have hit : intAt (jsonTcpipCfg (R := R) n a) (chars ['i', 't']) = a.interval.toNat :=
    intAt_number h.interval rfl
  have hkl : intAt (jsonTcpipCfg (R := R) n a) (chars ['k', 'l']) = a.keepalive.toNat :=
    intAt_number (by have := a.keepalive.toNat_le; omega) rfl
  have hport : (a.port.toNat : Int) ≤ 65535 := by have := a.port.toNat_lt; omega
  unfold TcpipCfg.setCommon
  dsimp only
  rw [hen, htt, hcs, hpe, hpo, hit, hkl, if_pos hport]
  simp only [setFlag_toNat, setIf_natCast, UInt8.ofNat_toNat, UInt16.ofNat_toNat,
    UInt32.ofNat_toNat, if_pos h.peerLength]

theorem TcpipCfg.setNormal_json {a : TcpipCfg} (h : a.Ok) (b : TcpipCfg) :
    b.setNormal (jsonNormal (R := R) a) = { b with u0 := a.u0, u1 := a.u1, u2 := a.u2 } := by
  have hpt : intAt (jsonNormal (R := R) a) (chars ['p', 't']) = a.u0.toNat :=
    intAt_number (by have := a.u0.toNat_lt; omega) rfl
  have hms : intAt (jsonNormal (R := R) a) (chars ['m', 's']) = a.u1.toNat :=
    intAt_number (by have := a.u1.toNat_lt; omega) rfl
  have hmad : intAt (jsonNormal (R := R) a) (chars ['m', 'a', 'd']) = a.u2.toNat :=
    intAt_number (by have := a.u2.toNat_lt; omega) rfl
  have hrange : 1 ≤ (a.u2.toNat : Int) ∧ (a.u2.toNat : Int) ≤ 247 := by
    have := h.maddress
    omega
  unfold TcpipCfg.setNormal
  dsimp only
  rw [hpt, hms, hmad, if_pos hrange]
  simp only [setIf_natCast, UInt8.ofNat_toNat, Int.toNat_natCast]

/-- A transfer as it is restored: the target is set for the serial ports only, and `u5` only as
    `gw.dst_type`. -/
def TcpipCfg.mergeXfer (uartType : Nat → UInt8) (a b : TcpipCfg) : TcpipCfg :=
  { b with
    u0 := a.u0
    u4 := a.u4
    u5 := if a.u0 = 0 then a.u5 else b.u5
    dst := if a.dstType ≤ 3 then ⟨a.dst.cfg, uartType a.dstType.toNat⟩ else b.dst }

section
variable (uartType : Nat → UInt8)

theorem TcpipCfg.setDst_json {item : Item R} {a : TcpipCfg} (h : a.Ok)
    (hdt : intAt item (chars ['d', 't']) = a.dstType.toNat)
    (hubr : getObjectItem item (chars ['u', 'b', 'r']) = some (number a.dst.cfg.baudRate.toNat))
    (hudb : getObjectItem item (chars ['u', 'd', 'b']) = some (number a.dst.cfg.dataBits.toNat))
    (husb : getObjectItem item (chars ['u', 's', 'b']) = some (number a.dst.cfg.stopBits.toNat))
    (hupy : getObjectItem item (chars ['u', 'p', 'y']) = some (number a.dst.cfg.parity.toNat))
    (g : TcpipCfg) :
    g.setDst uartType item =
      { g with dst := if a.dstType ≤ 3 then ⟨a.dst.cfg, uartType a.dstType.toNat⟩ else g.dst } := by
  unfold TcpipCfg.setDst
  dsimp only
  rw [hdt, UartPortCfg.set_number h.baudRate hubr hudb husb hupy, Int.toNat_natCast]
  by_cases hle : a.dstType ≤ 3
  · have hle' : a.dstType.toNat ≤ 3 := UInt8.le_iff_toNat_le.mp hle
    rw [if_pos hle, if_pos ⟨Int.natCast_nonneg _, by omega⟩]
  · have hle' : ¬ a.dstType.toNat ≤ 3 := fun h3 => hle (UInt8.le_iff_toNat_le.mpr h3)
    rw [if_neg hle, if_neg fun hand => hle' (by omega)]

/-- A transfer whose mode is known. -/
theorem TcpipCfg.setXfer_json {a : TcpipCfg} (h : a.Ok) (hmode : a.u0 = 0 ∨ a.u0 = 1)
    (b : TcpipCfg) : b.setXfer uartType (jsonXfer (R := R) a) = a.mergeXfer uartType b := by
  have hmd : intAt (jsonXfer (R := R) a) (chars ['m', 'd']) = a.u0.toNat :=
    intAt_number (by have := a.u0.toNat_lt; omega) rfl
  have hdst : ∀ {item : Item R}, getObjectItem item (chars ['d', 't']) =
      some (number a.dstType.toNat) → intAt item (chars ['d', 't']) = a.dstType.toNat :=
    intAt_number (by have := a.dstType.toNat_lt; omega)
  rcases hmode with hgw | htrt
  · have hjson := jsonXfer_gw (R := R) hgw
    have hpt : intAt (jsonXfer (R := R) a) (chars ['p', 't']) = a.u4.toNat := by
      rw [hjson]
      exact intAt_number (by have := a.u4.toNat_lt; omega) rfl
    have hdt : intAt (jsonXfer (R := R) a) (chars ['d', 't']) = a.dstType.toNat := by
      rw [hjson]
      exact hdst rfl
    unfold TcpipCfg.setXfer TcpipCfg.mergeXfer
    dsimp only
    rw [TcpipCfg.setDst_json uartType h hdt (hjson ▸ rfl) (hjson ▸ rfl) (hjson ▸ rfl)
      (hjson ▸ rfl), hmd, hpt, hdt, hgw]
    have hu5 : a.dstType = a.u5 := if_pos hgw
    simp [hu5]
  · have hne : a.u0 ≠ 0 := by
      rw [htrt]
      decide
    have hjson := jsonXfer_trt (R := R) htrt
    have hdt : intAt (jsonXfer (R := R) a) (chars ['d', 't']) = a.dstType.toNat := by
      rw [hjson]
      exact hdst rfl
    unfold TcpipCfg.setXfer TcpipCfg.mergeXfer
    dsimp only
    rw [TcpipCfg.setDst_json uartType h hdt (hjson ▸ rfl) (hjson ▸ rfl) (hjson ▸ rfl)
      (hjson ▸ rfl), hmd, hdt, htrt]
    have hu4 : a.dstType = a.u4 := if_neg hne
    simp [hu4]

/-- A transfer whose mode is not known leaves the fields as they are. -/
theorem TcpipCfg.setXfer_other {a : TcpipCfg} (hmode : a.u0 ≠ 0 ∧ a.u0 ≠ 1) (b : TcpipCfg) :
    b.setXfer uartType (jsonXfer (R := R) a) = b := by
  have hmd : intAt (jsonXfer (R := R) a) (chars ['m', 'd']) = a.u0.toNat :=
    intAt_number (by have := a.u0.toNat_lt; omega) rfl
  have hnot : ¬ (0 ≤ (a.u0.toNat : Int) ∧ (a.u0.toNat : Int) < 2) := by
    intro hand
    have hcases : a.u0.toNat = 0 ∨ a.u0.toNat = 1 := by omega
    rcases hcases with h0 | h1
    · exact hmode.1 (UInt8.toNat_inj.mp h0)
    · exact hmode.2 (UInt8.toNat_inj.mp h1)
  unfold TcpipCfg.setXfer
  dsimp only
  rw [hmd, if_neg hnot]

/-- What a connection becomes by the export of another one. -/
def TcpipCfg.merge (a b : TcpipCfg) : TcpipCfg :=
  let g := { a with u0 := b.u0, u1 := b.u1, u2 := b.u2, u4 := b.u4, u5 := b.u5, dst := b.dst }
  if a.mode = 0 then { g with u0 := a.u0, u1 := a.u1, u2 := a.u2 }
  else if a.u0 = 0 ∨ a.u0 = 1 then a.mergeXfer uartType g
  else g

theorem setTcpipCfg_json {a : TcpipCfg} (h : a.Ok) (n : Nat) (b : TcpipCfg) :
    setTcpipCfg uartType (jsonTcpipCfg (R := R) n a) b = a.merge uartType b := by
  have hmd : intAt (jsonTcpipCfg (R := R) n a) (chars ['m', 'd']) = a.mode.toNat :=
    intAt_number (by have := a.mode.toNat_lt; omega) rfl
  unfold setTcpipCfg TcpipCfg.merge
  dsimp only
  rw [hmd, TcpipCfg.setCommon_json h, Int.toNat_natCast, UInt8.ofNat_toNat]
  rcases h.mode with hnormal | hxfer
  · have hget : getObjectItem (jsonTcpipCfg (R := R) n a)
        (chars ['n', 'o', 'r', 'm', 'a', 'l']) = some (jsonNormal a) := by
      unfold jsonTcpipCfg
      rw [if_pos hnormal]
      rfl
    have hzero : ((0 : UInt8).toNat : Int) = 0 := rfl
    rw [hget, hnormal, hzero, if_pos (by decide), if_pos rfl, if_pos rfl]
    exact TcpipCfg.setNormal_json h _
  · have hget : getObjectItem (jsonTcpipCfg (R := R) n a) (chars ['x', 'f', 'e', 'r']) =
        some (jsonXfer a) := by
      unfold jsonTcpipCfg
      rw [hxfer]
      rfl
    rw [hget, hxfer, if_pos (by decide), if_neg (by decide), if_neg (by decide)]
    dsimp only
    split
    · next hmode => exact TcpipCfg.setXfer_json uartType h hmode _
    · next hmode => exact TcpipCfg.setXfer_other uartType (not_or.mp hmode) _

/-- A connection after the restore of all sections; `sync` tells that the types of the targets are
    set again at its end. -/
def TcpipCfg.restored (sync : Bool) (a b : TcpipCfg) : TcpipCfg :=
  if sync then (a.merge uartType b).setDstType uartType else a.merge uartType b

/-- When a connection comes back: a transfer's mode is known or the old one, the type of a serial
    target is that of its port, and the fields of another target are the old ones. -/
structure TcpipCfg.Restores (sync : Bool) (a b : TcpipCfg) : Prop where
  mode : a.mode = 1 → ¬ (a.u0 = 0 ∨ a.u0 = 1) → b.u0 = a.u0
  serial : a.mode = 1 → (a.u0 = 0 ∨ a.u0 = 1) → a.dstType ≤ 3 →
    a.dst.type = uartType a.dstType.toNat
  target : a.mode = 1 → (a.u0 = 0 ∨ a.u0 = 1) → ¬ a.dstType ≤ 3 →
    b.dst.cfg = a.dst.cfg ∧
      (if sync = true ∧ a.enable = true ∧ a.dstType = 5 then 2 else b.dst.type) = a.dst.type

variable {uartType}

theorem TcpipCfg.merge_normal {a : TcpipCfg} (hmode : a.mode = 0) (b : TcpipCfg) :
    a.merge uartType b = { a with u4 := b.u4, u5 := b.u5, dst := b.dst } := if_pos hmode

/-- The normal mode comes back. -/
theorem jsonTcpipCfg_restored_normal {a : TcpipCfg} (hmode : a.mode = 0) (sync : Bool) (n : Nat)
    (b : TcpipCfg) : jsonTcpipCfg (R := R) n (a.restored uartType sync b) = jsonTcpipCfg n a := by
  unfold TcpipCfg.restored
  rw [TcpipCfg.merge_normal hmode]
  cases sync <;> simp [jsonTcpipCfg, jsonNormal, TcpipCfg.setDstType, hmode]

/-- A transfer comes back if its own fields do. -/
theorem jsonTcpipCfg_restored_xfer {a : TcpipCfg} (hmode : a.mode = 1) (sync : Bool) (n : Nat)
    (b : TcpipCfg) : jsonTcpipCfg (R := R) n (a.restored uartType sync b) = jsonTcpipCfg n a ↔
      jsonXfer (R := R) (a.restored uartType sync b) = jsonXfer a := by
  have hne : a.mode ≠ 0 := by
    rw [hmode]
    decide
  have hcommon : ∀ c : TcpipCfg, c = a.restored uartType sync b →
      c.enable = a.enable ∧ c.mode = a.mode ∧ c.tcpipType = a.tcpipType ∧ c.tcpipCs = a.tcpipCs ∧
        c.peer = a.peer ∧ c.port = a.port ∧ c.interval = a.interval ∧
        c.keepalive = a.keepalive := by
    rintro c rfl
    by_cases hknown : a.u0 = 0 ∨ a.u0 = 1 <;> cases sync <;>
      simp [TcpipCfg.restored, TcpipCfg.merge, TcpipCfg.mergeXfer, TcpipCfg.setDstType, hmode,
        hknown]
  have hget : ∀ c : TcpipCfg, c.mode = 1 →
      getObjectItem (jsonTcpipCfg (R := R) n c) (chars ['x', 'f', 'e', 'r']) =
        some (jsonXfer c) := fun c hc => by
    unfold jsonTcpipCfg
    rw [hc]
    rfl
  obtain ⟨hen, hmd, htt, hcs, hpe, hpo, hit, hkl⟩ := hcommon _ rfl
  constructor
  · intro heq
    have hitem : getObjectItem (jsonTcpipCfg (R := R) n (a.restored uartType sync b))
        (chars ['x', 'f', 'e', 'r']) = getObjectItem (jsonTcpipCfg n a) (chars ['x', 'f', 'e', 'r']) :=
      by rw [heq]
    rw [hget _ (hmd.trans hmode), hget _ hmode] at hitem
    exact Option.some.inj hitem
  · intro heq
    unfold jsonTcpipCfg
    rw [hen, hmd, htt, hcs, hpe, hpo, hit, hkl, heq, if_neg hne, if_neg hne]

variable (uartType) in
theorem TcpipCfg.restored_other {a : TcpipCfg} (hmode : a.mode = 1)
    (hother : ¬ (a.u0 = 0 ∨ a.u0 = 1)) (sync : Bool) (b : TcpipCfg) :
    (a.restored uartType sync b).u0 = b.u0 := by
  cases sync <;> simp [TcpipCfg.restored, TcpipCfg.merge, TcpipCfg.setDstType, hmode, hother]

variable (uartType) in
/-- The fields of a transfer whose mode is known. -/
theorem TcpipCfg.restored_known {a : TcpipCfg} (hmode : a.mode = 1) (hknown : a.u0 = 0 ∨ a.u0 = 1)
    (sync : Bool) (b : TcpipCfg) :
    let g := a.restored uartType sync b
    g.u0 = a.u0 ∧ g.u4 = a.u4 ∧ g.dstType = a.dstType ∧
      g.dst = if a.dstType ≤ 3 then ⟨a.dst.cfg, uartType a.dstType.toNat⟩
        else ⟨b.dst.cfg,
          if sync = true ∧ a.enable = true ∧ a.dstType = 5 then 2 else b.dst.type⟩ := by
  have hmerge : a.merge uartType b = a.mergeXfer uartType
      { a with u0 := b.u0, u1 := b.u1, u2 := b.u2, u4 := b.u4, u5 := b.u5, dst := b.dst } := by
    unfold TcpipCfg.merge
    rw [hmode, if_neg (by decide)]
    exact if_pos hknown
  have hdst : (a.merge uartType b).dstType = a.dstType := by
    rw [hmerge]
    unfold TcpipCfg.dstType TcpipCfg.mergeXfer
    dsimp only
    split <;> rfl
  have htype : (a.merge uartType b).dst =
      if a.dstType ≤ 3 then ⟨a.dst.cfg, uartType a.dstType.toNat⟩ else b.dst := by
    rw [hmerge]
    rfl
  have hu0 : (a.merge uartType b).u0 = a.u0 := by rw [hmerge]; rfl
  have hu4 : (a.merge uartType b).u4 = a.u4 := by rw [hmerge]; rfl
  have hen : (a.merge uartType b).enable = a.enable := by rw [hmerge]; rfl
  have hmd : (a.merge uartType b).mode = 1 := by rw [hmerge]; exact hmode
  cases sync
  · refine ⟨hu0, hu4, hdst, ?_⟩
    show (a.merge uartType b).dst = _
    rw [htype]
    simp only [Bool.false_eq_true, false_and, if_false]
  · refine ⟨hu0, hu4, hdst, ?_⟩
    show XferDst.mk (a.merge uartType b).dst.cfg _ = _
    rw [hen, hmd, hu0, hdst, htype]
    by_cases hserial : a.dstType ≤ 3
    · rw [if_pos hserial, if_pos hserial, if_pos hserial]
      split <;> rfl
    · rw [if_neg hserial, if_neg hserial, if_neg hserial]
      congr 1
      by_cases hen' : a.enable = true <;> by_cases hz : a.dstType = 5 <;> simp [hen', hz, hknown]

/-- What a transfer's fields come back to. -/
theorem TcpipCfg.sameXfer_restored {a : TcpipCfg} (hmode : a.mode = 1) (sync : Bool)
    (b : TcpipCfg) :
    (a.restored uartType sync b).SameXfer a ↔ a.Restores uartType sync b := by
  by_cases hknown : a.u0 = 0 ∨ a.u0 = 1
  · obtain ⟨hu0, hu4, hdt, hdst⟩ := TcpipCfg.restored_known uartType hmode hknown sync b
    constructor
    · intro hsame
      have hd := hdst.symm.trans (hsame.dst hknown)
      refine ⟨fun _ hother => absurd hknown hother, fun _ _ hserial => ?_, fun _ _ hserial => ?_⟩
      · rw [if_pos hserial] at hd
        exact (congrArg XferDst.type hd).symm
      · rw [if_neg hserial] at hd
        exact XferDst.mk.inj hd
    · intro hrestores
      refine ⟨hu0, fun _ => hu4, fun _ => hdt, fun _ => hdst.trans ?_⟩
      by_cases hserial : a.dstType ≤ 3
      · rw [if_pos hserial, ← hrestores.serial hmode hknown hserial]
      · obtain ⟨hcfg, htype⟩ := hrestores.target hmode hknown hserial
        rw [if_neg hserial, htype, hcfg]
  · have hu0 := TcpipCfg.restored_other uartType hmode hknown sync b
    constructor
    · intro hsame
      exact ⟨fun _ _ => hu0.symm.trans hsame.mode, fun _ hk => absurd hk hknown,
        fun _ hk => absurd hk hknown⟩
    · intro hrestores
      exact ⟨hu0.trans (hrestores.mode hmode hknown), fun hgw => absurd (.inl hgw) hknown,
        fun hk => absurd hk hknown, fun hk => absurd hk hknown⟩

theorem jsonTcpipCfg_restore [ExactNumber R] (a : TcpipCfg) (hmode : a.mode = 0 ∨ a.mode = 1)
    (sync : Bool) (n : Nat) (b : TcpipCfg) :
    jsonTcpipCfg (R := R) n (a.restored uartType sync b) = jsonTcpipCfg n a ↔
      a.Restores uartType sync b := by
  rcases hmode with hnormal | hxfer
  · have hne : a.mode ≠ 1 := by
      rw [hnormal]
      decide
    exact ⟨fun _ => ⟨fun h => absurd h hne, fun h => absurd h hne, fun h => absurd h hne⟩,
      fun _ => jsonTcpipCfg_restored_normal hnormal sync n b⟩
  · rw [jsonTcpipCfg_restored_xfer hxfer, jsonXfer_eq_iff, TcpipCfg.sameXfer_restored hxfer]

end

end K64Gateway.Backup
