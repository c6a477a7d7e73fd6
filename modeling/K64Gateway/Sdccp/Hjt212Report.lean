import K64Gateway.Lib.Resume
import K64Gateway.Sdccp.Hjt212
import K64Gateway.VarManage.Types

/-
  The upload rounds of `hjt212_work_task`: `hjt212_report_real_data`, `_minutes_data` and
  `_hour_data` are called with a resume pointer into the variable list until it is null.

  A pointer to a variable is its place in the list. A string that does not fit the array it is
  written to (`mynid`, `tmp`) has no result, nor has a null pointer written with `%s`.

  Proved: exactly when the rounds come to an end (`hjt212WorkTask_terminates`).
-/

namespace K64Gateway.VarManage

variable {R : Type}

/-- Where the search starts: `first ? first->next : pList`. -/
def startAt : Option Nat → Nat
  | some first => first + 1
  | none => 0

/-- `pVarManage_GetExtDataWithUpProto`. -/
def pVarManageGetExtDataWithUpProto (vars : List (ExtData R)) (first : Option Nat)
    (usDevType usDevNum usProtoType : Nat) : Option Nat :=
  ((vars.drop (startAt first)).findIdx? (isUpProto usDevType usDevNum usProtoType)).map
    (startAt first + ·)

end K64Gateway.VarManage

namespace K64Gateway.Hjt212

open CString VarManage Resume

/-! ## Texts -/

/-- The text of a number, as `%.4f` of a `double` and of its conversion to `float`. -/
class NumberText (R : Type) where
  ofDouble : R → List UInt8
  ofFloat : R → List UInt8

/-- `HJT212_Cfg_t`. -/
structure Hjt212Cfg where
  ST : CStr
  PW : CStr
  MN : CStr
  ulPeriod : UInt32
  real_flag : Bool
  min_flag : Bool
  hour_flag : Bool
  no_min : Bool
  no_max : Bool
  no_avg : Bool
  no_cou : Bool

/-- The clock during a round: the tick, and the fourteen digits of the date and time. -/
structure Clock where
  tick : UInt32
  datatime : CStr
  datatime_length : datatime.length = 14

/-- `eRealDataFlag_t`, its characters. -/
def flagN : UInt8 := 78
def flagDisable : UInt8 := 254

/-- `sprintf(tmp, ..)` into `char tmp[50]`. -/
def sprintfTmp (text : List UInt8) : Option (List UInt8) :=
  if text.length < 50 then some text else none

/-- `"%s=%s;"` of a time, if there is one. -/
def formatTime (name : List UInt8) (time : Option CStr) (szFid : Option CStr) :
    Option (List UInt8) :=
  match time, szFid with
  | some time, some _ =>
      if time = [] then some [] else sprintfTmp (name ++ time ++ [semicolon])
  | _, _ => some []

def tagDataTime : List UInt8 := chars ['D', 'a', 't', 'a', 'T', 'i', 'm', 'e', '=']
def tagBeginTime : List UInt8 := chars ['B', 'e', 'g', 'i', 'n', 'T', 'i', 'm', 'e', '=']
def tagEndTime : List UInt8 := chars ['E', 'n', 'd', 'T', 'i', 'm', 'e', '=']
def tagRtd : List UInt8 := chars ['-', 'R', 't', 'd', '=']
def tagDataFlag : List UInt8 := chars ['-', 'F', 'l', 'a', 'g', '=']
def tagCou : List UInt8 := chars ['-', 'C', 'o', 'u', '=']
def tagMin : List UInt8 := chars ['-', 'M', 'i', 'n', '=']
def tagAvg : List UInt8 := chars ['-', 'A', 'v', 'g', '=']
def tagMax : List UInt8 := chars ['-', 'M', 'a', 'x', '=']
def comma : List UInt8 := chars [',']

/-- The date of the data, in front of the first variable. -/
def formatDate (first : Bool) (DataTime szFid : Option CStr) : Option (List UInt8) :=
  if first then formatTime tagDataTime DataTime szFid else some []

/-- `"%s-Rtd=%.4f"`, with the comma if `text` has one. -/
def formatRtd (szFid : Option CStr) (text : List UInt8) : Option (List UInt8) :=
  match szFid with
  | some szFid => sprintfTmp (szFid ++ tagRtd ++ text)
  | none => some []

/-- `hjt212_real_data_format_cp`: what it appends to `sCp`; `value` is its text. -/
def hjt212RealDataFormatCp (first : Bool) (szFid : Option CStr) (value : List UInt8)
    (dataflag : UInt8) (DataTime : Option CStr) : Option (List UInt8) := do
  let time ← formatDate first DataTime szFid
  if dataflag ≠ flagDisable then do
    let rtd ← formatRtd szFid (value ++ comma)
    let szFid ← szFid
    let flag ← sprintfTmp (szFid ++ tagDataFlag ++ [dataflag])
    some (time ++ rtd ++ flag)
  else do
    let rtd ← formatRtd szFid value
    some (time ++ rtd)

/-- One number of `hjt212_minutes_data_format_cp`, with a comma in front if `sep`. -/
def formatNumber (szFid : Option CStr) (no sep : Bool) (tag value : List UInt8) :
    Option (List UInt8) :=
  match szFid with
  | some szFid =>
      if no then some []
      else do
        let number ← sprintfTmp (szFid ++ tag ++ value)
        some ((if sep then comma else []) ++ number)
  | none => some []

/-- `hjt212_minutes_data_format_cp`: what it appends to `sCp`; the numbers are their texts. -/
def hjt212MinutesDataFormatCp (cfg : Hjt212Cfg) (first : Bool) (szFid BeginTime EndTime DataTime :
    Option CStr) (Cou Min Avg Max : List UInt8) : Option (List UInt8) := do
  let begins ← formatTime tagBeginTime BeginTime szFid
  let ends ← formatTime tagEndTime EndTime szFid
  let time ← formatDate first DataTime szFid
  let cou ← formatNumber szFid cfg.no_cou false tagCou Cou
  let min ← formatNumber szFid cfg.no_min (!cfg.no_cou) tagMin Min
  let avg ← formatNumber szFid cfg.no_avg (!cfg.no_cou || !cfg.no_min) tagAvg Avg
  let max ← formatNumber szFid cfg.no_max (!cfg.no_cou || !cfg.no_min || !cfg.no_avg) tagMax Max
  some (begins ++ ends ++ time ++ cou ++ min ++ avg ++ max)

/-! ## The three reports -/

/-- The three report functions differ in what this stands for. -/
inductive Kind where
  | real
  | minutes
  | hour
deriving DecidableEq

/-- `hjtcfg->real_flag`, `min_flag` and `hour_flag`. -/
def Kind.flag (cfg : Hjt212Cfg) : Kind → Bool
  | real => cfg.real_flag
  | minutes => cfg.min_flag
  | hour => cfg.hour_flag

/-- The command, as `%d`: 2011, 2051 and 2061. -/
def Kind.CN : Kind → CStr
  | real => chars ['2', '0', '1', '1']
  | minutes => chars ['2', '0', '5', '1']
  | hour => chars ['2', '0', '6', '1']

/-- The shortest time between two reports, in ticks of a millisecond. -/
def Kind.period (cfg : Hjt212Cfg) : Kind → UInt32
  | real => cfg.ulPeriod
  | minutes => 60 * 1000
  | hour => 60 * 60 * 1000

variable {R : Type}

/-- The accumulator: `xAvgUp`, `xAvgMin` and `xAvgHour`. -/
def Kind.avg : Kind → ExtDataUp R → VarAvg R
  | real => ExtDataUp.xAvgUp
  | minutes => ExtDataUp.xAvgMin
  | hour => ExtDataUp.xAvgHour

def Kind.setAvg (avg : VarAvg R) (xUp : ExtDataUp R) : Kind → ExtDataUp R
  | real => { xUp with xAvgUp := avg }
  | minutes => { xUp with xAvgMin := avg }
  | hour => { xUp with xAvgHour := avg }

variable [VarReal R]

/-- The variable after its accumulator was reported. -/
def Kind.reset (kind : Kind) (clock : Clock) (node : ExtData R) : ExtData R :=
  { node with
    xUp := kind.setAvg
      { kind.avg node.xUp with
        val_avg := VarReal.ofInt 0
        val_min := VarReal.ofInt 0
        val_max := VarReal.ofInt 0
        count := 0
        time := clock.tick } node.xUp }

variable [NumberText R]

/-- The text of a variable for `sCp`. -/
def Kind.formatCp (kind : Kind) (cfg : Hjt212Cfg) (clock : Clock) (first : Bool)
    (node : ExtData R) : Option (List UInt8) :=
  let avg := kind.avg node.xUp
  let value := VarReal.div avg.val_avg (VarReal.ofInt avg.count.toNat)
  match kind with
  | real => hjt212RealDataFormatCp first node.xUp.szFid (NumberText.ofFloat value) flagN
      (some clock.datatime)
  | minutes | hour => hjt212MinutesDataFormatCp cfg first node.xUp.szFid none none
      (some clock.datatime) (NumberText.ofDouble avg.val_avg) (NumberText.ofFloat avg.val_min)
      (NumberText.ofFloat value) (NumberText.ofFloat avg.val_max)

/-- The variables of the loop in a report function. -/
structure Batch (R : Type) where
  vars : List (ExtData R)
  ppnode : Option Nat
  mynid : CStr
  sCp : List UInt8
  first : Bool

/-- `strcpy(mynid, newnid)` into `char mynid[32]`. -/
def strcpyNid (newnid : CStr) : Option CStr := if newnid.length < 32 then some newnid else none

variable (cfg : Hjt212Cfg) (index : UInt8) (clock : Clock)

/-- `newnid` -/
def nidOf (node : ExtData R) : CStr := node.xUp.szNid.getD cfg.MN

/-- The variable has waited for its period and has samples. -/
def Kind.ready (kind : Kind) (node : ExtData R) : Bool :=
  decide (clock.tick - (kind.avg node.xUp).time ≥ kind.period cfg) &&
    decide ((kind.avg node.xUp).count > 0)

/-- The loop of a report function, from behind `node`. -/
def reportLoop (kind : Kind) : Nat → Option Nat → Batch R → Option (Batch R)
  | 0, _, _ => none
  | fuel + 1, node, b =>
      match pVarManageGetExtDataWithUpProto b.vars node (protoDevNetType index) index.toNat
        protoHjt212 with
      | none => some { b with ppnode := none }
      | some i => do
          let node ← b.vars[i]?
          if node.xUp.bEnable then
            if b.mynid = [] ∨ nidOf cfg node = b.mynid then do
              let mynid ← strcpyNid (nidOf cfg node)
              if kind.ready cfg clock node then do
                let buf ← kind.formatCp cfg clock b.first node
                if b.sCp.length + buf.length < 960 then
                  reportLoop kind fuel (some i)
                    { vars := b.vars.modify i (kind.reset clock)
                      ppnode := some i
                      mynid := mynid
                      sCp := b.sCp ++ buf ++ [semicolon]
                      first := false }
                else some { b with mynid := mynid, first := false }
              else reportLoop kind fuel (some i) { b with mynid := mynid }
            else some b
          else reportLoop kind fuel (some i) { b with ppnode := some i }

/-- A call of a report function: the variables and the resume pointer after it, and the frame
    it sends. -/
structure Report (R : Type) where
  vars : List (ExtData R)
  ppnode : Option Nat
  sent : Option (List UInt8)

/-- The common body of the report functions. -/
def reportData (kind : Kind) (vars : List (ExtData R)) (ppnode : Option Nat) :
    Option (Report R) := do
  let b ← reportLoop cfg index clock kind (vars.length + 1) ppnode
    { vars := vars, ppnode := ppnode, mynid := [], sCp := [], first := true }
  some
    { vars := b.vars
      ppnode := b.ppnode
      sent :=
        if b.sCp.length > 0 then
          some (hjt212Encode
            { QN := none
              ST := some cfg.ST
              CN := some kind.CN
              PW := some cfg.PW
              MN := some b.mynid
              Flag := none
              CP := some b.sCp.dropLast })
        else none }

/-- `hjt212_report_real_data` -/
def hjt212ReportRealData : List (ExtData R) → Option Nat → Option (Report R) :=
  reportData cfg index clock .real

/-- `hjt212_report_minutes_data` -/
def hjt212ReportMinutesData : List (ExtData R) → Option Nat → Option (Report R) :=
  reportData cfg index clock .minutes

/-- `hjt212_report_hour_data` -/
def hjt212ReportHourData : List (ExtData R) → Option Nat → Option (Report R) :=
  reportData cfg index clock .hour

/-- `while(1) { report(index, &node); if(!node) break; }`: the variables at the end, and the
    calls. -/
def reportWhile (report : List (ExtData R) → Option Nat → Option (Report R)) :
    Nat → List (ExtData R) → Option Nat → Option (List (ExtData R) × List (Report R))
  | 0, _, _ => none
  | fuel + 1, vars, node => do
      let r ← report vars node
      match r.ppnode with
      | none => some (r.vars, [r])
      | some i => do
          let (vars, calls) ← reportWhile report fuel r.vars (some i)
          some (vars, r :: calls)

/-- The uploads of one turn of `hjt212_work_task`. -/
def hjt212WorkTask (fuel : Nat) (vars : List (ExtData R)) :
    Option (List (ExtData R) × List (Report R)) := do
  let (vars, real) ←
    if cfg.real_flag then reportWhile (hjt212ReportRealData cfg index clock) fuel vars none
    else some (vars, [])
  let (vars, minutes) ←
    if cfg.min_flag then reportWhile (hjt212ReportMinutesData cfg index clock) fuel vars none
    else some (vars, [])
  let (vars, hour) ←
    if cfg.hour_flag then reportWhile (hjt212ReportHourData cfg index clock) fuel vars none
    else some (vars, [])
  some (vars, real ++ minutes ++ hour)

/-! ## The texts are short -/

theorem sprintfTmp_length {text t : List UInt8} (h : sprintfTmp text = some t) : t.length < 50 := by
  unfold sprintfTmp at h
  split at h
  · next hlt =>
    obtain rfl := Option.some.inj h
    exact hlt
  · exact absurd h (by simp)

theorem formatTime_length {name t : List UInt8} {time szFid : Option CStr}
    (h : formatTime name time szFid = some t) : t.length < 50 := by
  unfold formatTime at h
  split at h
  · split at h
    · obtain rfl := Option.some.inj h
      decide
    · exact sprintfTmp_length h
  · obtain rfl := Option.some.inj h
    decide

/-- The date and time always fit. -/
theorem formatTime_datatime (szFid : Option CStr) :
    ∃ t, formatTime tagDataTime (some clock.datatime) szFid = some t := by
  cases szFid with
  | none => exact ⟨[], rfl⟩
  | some szFid =>
    have hlen : (tagDataTime ++ clock.datatime ++ [semicolon]).length < 50 := by
      rw [List.length_append, List.length_append, clock.datatime_length]
      decide
    by_cases hnil : clock.datatime = []
    · exact ⟨[], by simp [formatTime, hnil]⟩
    · refine ⟨tagDataTime ++ clock.datatime ++ [semicolon], ?_⟩
      simp only [formatTime, if_neg hnil, sprintfTmp, if_pos hlen]

theorem formatNumber_length {szFid : Option CStr} {no sep : Bool} {tag value t : List UInt8}
    (h : formatNumber szFid no sep tag value = some t) : t.length < 51 := by
  unfold formatNumber at h
  split at h
  · split at h
    · obtain rfl := Option.some.inj h
      decide
    · obtain ⟨number, hnumber, ht⟩ := Option.bind_eq_some_iff.mp h
      obtain rfl := Option.some.inj ht
      have hlen := sprintfTmp_length hnumber
      rw [List.length_append]
      split
      · show 1 + _ < 51
        omega
      · show 0 + _ < 51
        omega
  · obtain rfl := Option.some.inj h
    decide

theorem formatDate_length {first : Bool} {DataTime szFid : Option CStr} {t : List UInt8}
    (h : formatDate first DataTime szFid = some t) : t.length < 50 := by
  unfold formatDate at h
  split at h
  · exact formatTime_length h
  · obtain rfl := Option.some.inj h
    decide

theorem formatRtd_length {szFid : Option CStr} {text t : List UInt8}
    (h : formatRtd szFid text = some t) : t.length < 50 := by
  unfold formatRtd at h
  split at h
  · exact sprintfTmp_length h
  · obtain rfl := Option.some.inj h
    decide

theorem hjt212RealDataFormatCp_length {first : Bool} {szFid DataTime : Option CStr}
    {value t : List UInt8} {dataflag : UInt8}
    (h : hjt212RealDataFormatCp first szFid value dataflag DataTime = some t) : t.length < 960 := by
  obtain ⟨time, htime, h⟩ := Option.bind_eq_some_iff.mp h
  have h1 := formatDate_length htime
  split at h
  · obtain ⟨rtd, hrtd, h⟩ := Option.bind_eq_some_iff.mp h
    obtain ⟨fid, -, h⟩ := Option.bind_eq_some_iff.mp h
    obtain ⟨flag, hflag, h⟩ := Option.bind_eq_some_iff.mp h
    obtain rfl := Option.some.inj h
    have h2 := formatRtd_length hrtd
    have h3 := sprintfTmp_length hflag
    simp only [List.length_append]
    omega
  · obtain ⟨rtd, hrtd, h⟩ := Option.bind_eq_some_iff.mp h
    obtain rfl := Option.some.inj h
    have h2 := formatRtd_length hrtd
    simp only [List.length_append]
    omega

theorem hjt212MinutesDataFormatCp_length {first : Bool} {szFid BeginTime EndTime DataTime :
    Option CStr} {Cou Min Avg Max t : List UInt8}
    (h : hjt212MinutesDataFormatCp cfg first szFid BeginTime EndTime DataTime Cou Min Avg Max =
      some t) : t.length < 960 := by
  obtain ⟨begins, hbegin, h⟩ := Option.bind_eq_some_iff.mp h
  obtain ⟨ends, hend, h⟩ := Option.bind_eq_some_iff.mp h
  obtain ⟨time, htime, h⟩ := Option.bind_eq_some_iff.mp h
  obtain ⟨cou, hcou, h⟩ := Option.bind_eq_some_iff.mp h
  obtain ⟨min, hmin, h⟩ := Option.bind_eq_some_iff.mp h
  obtain ⟨avg, havg, h⟩ := Option.bind_eq_some_iff.mp h
  obtain ⟨max, hmax, h⟩ := Option.bind_eq_some_iff.mp h
  obtain rfl := Option.some.inj h
  have h1 := formatTime_length hbegin
  have h2 := formatTime_length hend
  have h3 := formatDate_length htime
  have h4 := formatNumber_length hcou
  have h5 := formatNumber_length hmin
  have h6 := formatNumber_length havg
  have h7 := formatNumber_length hmax
  simp only [List.length_append]
  omega

/-- The text of a variable fits a frame of its own. -/
theorem Kind.formatCp_length {kind : Kind} {first : Bool} {node : ExtData R} {t : List UInt8}
    (h : kind.formatCp cfg clock first node = some t) : t.length < 960 := by
  cases kind with
  | real => exact hjt212RealDataFormatCp_length h
  | minutes => exact hjt212MinutesDataFormatCp_length cfg h
  | hour => exact hjt212MinutesDataFormatCp_length cfg h

omit [VarReal R] [NumberText R] in
theorem isSome_bind_congr {α β : Type} {f g : α → Option β} (x : Option α)
    (h : ∀ a, (f a).isSome = (g a).isSome) : (x.bind f).isSome = (x.bind g).isSome := by
  cases x with
  | none => rfl
  | some a => exact h a

theorem hjt212RealDataFormatCp_isSome (szFid : Option CStr) (value : List UInt8)
    (dataflag : UInt8) : (hjt212RealDataFormatCp false szFid value dataflag
        (some clock.datatime)).isSome =
      (hjt212RealDataFormatCp true szFid value dataflag (some clock.datatime)).isSome := by
  obtain ⟨t, ht⟩ := formatTime_datatime clock szFid
  unfold hjt212RealDataFormatCp formatDate
  simp only [if_true, Bool.false_eq_true, if_false, ht, Option.bind_eq_bind, Option.bind_some]
  split
  · exact isSome_bind_congr _ fun _ => isSome_bind_congr _ fun _ => isSome_bind_congr _ fun _ => rfl
  · exact isSome_bind_congr _ fun _ => rfl

theorem hjt212MinutesDataFormatCp_isSome (szFid : Option CStr) (Cou Min Avg Max : List UInt8) :
    (hjt212MinutesDataFormatCp cfg false szFid none none (some clock.datatime) Cou Min Avg
        Max).isSome =
      (hjt212MinutesDataFormatCp cfg true szFid none none (some clock.datatime) Cou Min Avg
        Max).isSome := by
  obtain ⟨t, ht⟩ := formatTime_datatime clock szFid
  unfold hjt212MinutesDataFormatCp formatDate
  simp only [if_true, Bool.false_eq_true, if_false, ht, Option.bind_eq_bind, Option.bind_some]
  refine isSome_bind_congr _ fun _ => isSome_bind_congr _ fun _ => ?_
  refine isSome_bind_congr _ fun _ => isSome_bind_congr _ fun _ => ?_
  exact isSome_bind_congr _ fun _ => isSome_bind_congr _ fun _ => rfl

/-- Whether the texts fit does not depend on the date in front. -/
theorem Kind.formatCp_isSome (kind : Kind) (first : Bool) (node : ExtData R) :
    (kind.formatCp cfg clock first node).isSome = (kind.formatCp cfg clock true node).isSome := by
  cases first with
  | true => rfl
  | false =>
    cases kind with
    | real => exact hjt212RealDataFormatCp_isSome clock _ _ _
    | minutes => exact hjt212MinutesDataFormatCp_isSome cfg clock _ _ _ _ _
    | hour => exact hjt212MinutesDataFormatCp_isSome cfg clock _ _ _ _ _

/-! ## The variables of a connection -/

/-- A variable of the connection as the rounds see it: its node id, whether it is ready, and
    whether its texts fit the arrays they are written to. -/
structure Item where
  nid : CStr
  ready : Bool
  fits : Bool

/-- `b` does not go into one frame with `a` in front of it. -/
def Item.apart (a b : Item) : Prop := a.nid ≠ [] ∧ b.nid ≠ a.nid

instance : DecidableRel Item.apart := fun a b =>
  inferInstanceAs (Decidable (a.nid ≠ [] ∧ b.nid ≠ a.nid))

def Kind.item (kind : Kind) (node : ExtData R) : Item where
  nid := nidOf cfg node
  ready := kind.ready cfg clock node
  fits := (strcpyNid (nidOf cfg node)).isSome &&
    (!kind.ready cfg clock node || (kind.formatCp cfg clock true node).isSome)

/-- The variables of the connection, in the order of the list. -/
def Kind.items (kind : Kind) (vars : List (ExtData R)) : List Item :=
  vars.filterMap fun node =>
    if isUpProto (protoDevNetType index) index.toNat protoHjt212 node then
      some (kind.item cfg clock node) else none

omit [VarReal R] [NumberText R] in
theorem xUp_bEnable_of_isUpProto {a b c : Nat} {node : ExtData R}
    (h : isUpProto a b c node = true) : node.xUp.bEnable = true := by
  simp only [isUpProto, Bool.and_eq_true] at h
  exact h.1.1.1.2

/-- A variable with its place in the list. -/
abbrev Placed (R : Type) := ExtData R × Nat

/-- The variables of the connection from the place `n` on. -/
def conn (vars : List (ExtData R)) (n : Nat) : List (Placed R) :=
  ((vars.drop n).zipIdx n).filter fun p =>
    isUpProto (protoDevNetType index) index.toNat protoHjt212 p.1

omit [VarReal R] [NumberText R] in
theorem findIdx?_zipIdx {α : Type} {p : α → Bool} (l : List α) (n : Nat) :
    match l.findIdx? p with
    | none => (l.zipIdx n).filter (fun a => p a.1) = []
    | some k => ∃ a, l[k]? = some a ∧ p a = true ∧
        (l.zipIdx n).filter (fun a => p a.1) =
          (a, n + k) :: ((l.drop (k + 1)).zipIdx (n + k + 1)).filter fun a => p a.1 := by
  induction l generalizing n with
  | nil => rfl
  | cons x l ih =>
    rw [List.findIdx?_cons, List.zipIdx_cons, List.filter_cons]
    cases hx : p x with
    | true => exact ⟨x, rfl, hx, rfl⟩
    | false =>
      have hrec := ih (n + 1)
      cases hk : l.findIdx? p with
      | none =>
        rw [hk] at hrec
        exact hrec
      | some k =>
        rw [hk] at hrec
        obtain ⟨a, ha, hp, hl⟩ := hrec
        refine ⟨a, ha, hp, ?_⟩
        rw [show n + 1 + k = n + (k + 1) by omega] at hl
        exact hl

omit [VarReal R] [NumberText R] in
/-- The search stops at the first variable of the connection that is left. -/
theorem getExtDataWithUpProto_conn (vars : List (ExtData R)) (node : Option Nat) :
    match pVarManageGetExtDataWithUpProto vars node (protoDevNetType index) index.toNat
      protoHjt212 with
    | none => conn index vars (startAt node) = []
    | some i => startAt node ≤ i ∧ ∃ v, vars[i]? = some v ∧
        isUpProto (protoDevNetType index) index.toNat protoHjt212 v = true ∧
        conn index vars (startAt node) = (v, i) :: conn index vars (i + 1) := by
  have hfind := findIdx?_zipIdx (p := isUpProto (protoDevNetType index) index.toNat protoHjt212)
    (vars.drop (startAt node)) (startAt node)
  unfold pVarManageGetExtDataWithUpProto conn
  cases hk : (vars.drop (startAt node)).findIdx?
      (isUpProto (protoDevNetType index) index.toNat protoHjt212) with
  | none =>
    rw [hk] at hfind
    exact hfind
  | some k =>
    rw [hk] at hfind
    obtain ⟨v, hv, hp, hconn⟩ := hfind
    rw [List.getElem?_drop] at hv
    rw [List.drop_drop] at hconn
    exact ⟨Nat.le_add_right _ _, v, hv, hp, hconn⟩

omit [NumberText R] [VarReal R] in
theorem filterMap_zipIdx {α β : Type} (p : α → Bool) (f : α → β) (l : List α) (n : Nat) :
    l.filterMap (fun a => if p a then some (f a) else none) =
      ((l.zipIdx n).filter fun a => p a.1).map fun a => f a.1 := by
  induction l generalizing n with
  | nil => rfl
  | cons x l ih =>
    rw [List.filterMap_cons, List.zipIdx_cons, List.filter_cons]
    cases hx : p x with
    | true =>
      rw [if_pos rfl, if_pos rfl, List.map_cons, ih (n + 1)]
    | false => rw [if_neg (by decide), if_neg (by decide), ih (n + 1)]

theorem items_drop (kind : Kind) (vars : List (ExtData R)) (n : Nat) :
    kind.items cfg index clock (vars.drop n) =
      (conn index vars n).map fun p => kind.item cfg clock p.1 :=
  filterMap_zipIdx _ _ _ n

omit [NumberText R] [VarReal R] in
/-- Behind a variable of a placed list are those with a later place. -/
theorem filter_zipIdx_split {α : Type} {q : α → Bool} {l : List α} {n : Nat}
    {d rest : List (α × Nat)} {p : α × Nat}
    (h : ((l.zipIdx n).filter fun a => q a.1) = d ++ p :: rest) :
    n ≤ p.2 ∧ (∀ x ∈ d, x.2 < p.2) ∧
      rest = ((l.drop (p.2 + 1 - n)).zipIdx (p.2 + 1)).filter fun a => q a.1 := by
  induction l generalizing n d with
  | nil => exact absurd h (by simp)
  | cons x l ih =>
    rw [List.zipIdx_cons, List.filter_cons] at h
    have hdrop {k : Nat} (hk : n + 1 ≤ k) : (x :: l).drop (k + 1 - n) = l.drop (k + 1 - (n + 1)) := by
      rw [show k + 1 - n = k + 1 - (n + 1) + 1 by omega, List.drop_succ_cons]
    cases hx : q x with
    | true =>
      rw [hx, if_pos rfl] at h
      cases d with
      | nil =>
        obtain ⟨rfl, rfl⟩ := List.cons_eq_cons.mp h
        refine ⟨Nat.le_refl n, fun y hy => absurd hy List.not_mem_nil, ?_⟩
        rw [Nat.add_sub_cancel_left, List.drop_succ_cons, List.drop_zero]
      | cons y d =>
        rw [List.cons_append] at h
        obtain ⟨hxy, htail⟩ := List.cons_eq_cons.mp h
        obtain ⟨hle, hlt, hrest⟩ := ih htail
        refine ⟨by omega, fun z hz => ?_, by rw [hdrop hle]; exact hrest⟩
        rcases List.mem_cons.mp hz with rfl | hz
        · rw [← hxy]
          exact hle
        · exact hlt z hz
    | false =>
      rw [hx, if_neg (by decide)] at h
      obtain ⟨hle, hlt, hrest⟩ := ih h
      exact ⟨by omega, hlt, by rw [hdrop hle]; exact hrest⟩

omit [NumberText R] [VarReal R] in
theorem conn_split {vars : List (ExtData R)} {n : Nat} {d rest : List (Placed R)} {p : Placed R}
    (h : conn index vars n = d ++ p :: rest) :
    n ≤ p.2 ∧ (∀ x ∈ d, x.2 < p.2) ∧ rest = conn index vars (p.2 + 1) := by
  obtain ⟨hle, hlt, hrest⟩ := filter_zipIdx_split h
  refine ⟨hle, hlt, ?_⟩
  rw [List.drop_drop, show n + (p.2 + 1 - n) = p.2 + 1 by omega] at hrest
  exact hrest

/-! ## The loop as a walk -/

/-- The loop of a report function over the variables of the connection, with those whose texts
    it appends to `sCp`. -/
def scan (kind : Kind) : List (Placed R) → Batch R → Option (Batch R × List (Placed R))
  | [], b => some ({ b with ppnode := none }, [])
  | (node, i) :: l, b =>
      if b.mynid = [] ∨ nidOf cfg node = b.mynid then do
        let mynid ← strcpyNid (nidOf cfg node)
        if kind.ready cfg clock node then do
          let buf ← kind.formatCp cfg clock b.first node
          if b.sCp.length + buf.length < 960 then do
            let (b', taken) ← scan kind l
              { vars := b.vars.modify i (kind.reset clock)
                ppnode := some i
                mynid := mynid
                sCp := b.sCp ++ buf ++ [semicolon]
                first := false }
            some (b', (node, i) :: taken)
          else some ({ b with mynid := mynid, first := false }, [])
        else scan kind l { b with mynid := mynid }
      else some (b, [])

omit [NumberText R] in
theorem conn_modify (kind : Kind) (vars : List (ExtData R)) (i : Nat) :
    conn index (vars.modify i (kind.reset clock)) (i + 1) = conn index vars (i + 1) := by
  unfold conn
  rw [List.drop_modify_of_lt _ _ _ _ (Nat.lt_succ_self i)]

/-- The loop of the source is the walk over the variables of the connection. -/
theorem reportLoop_eq_scan (kind : Kind) {fuel : Nat} {node : Option Nat} {b : Batch R}
    (hfuel : b.vars.length - startAt node < fuel) :
    reportLoop cfg index clock kind fuel node b =
      (scan cfg clock kind (conn index b.vars (startAt node)) b).map Prod.fst := by
  induction fuel generalizing node b with
  | zero => omega
  | succ fuel ih =>
    have hfind := getExtDataWithUpProto_conn index b.vars node
    rw [reportLoop]
    split
    · next hnone =>
      rw [hnone] at hfind
      rw [hfind]
      rfl
    · next i hsome =>
      rw [hsome] at hfind
      obtain ⟨hi, v, hv, hproto, hconn⟩ := hfind
      have hlt : i < b.vars.length := (List.getElem?_eq_some_iff.mp hv).1
      have hstart : b.vars.length - startAt (some i) < fuel := by
        show b.vars.length - (i + 1) < fuel
        omega
      rw [hconn, hv, scan, Option.bind_eq_bind, Option.bind_some,
        if_pos (xUp_bEnable_of_isUpProto hproto)]
      by_cases haccept : b.mynid = [] ∨ nidOf cfg v = b.mynid
      · rw [if_pos haccept, if_pos haccept]
        cases strcpyNid (nidOf cfg v) with
        | none => rfl
        | some mynid =>
          rw [Option.bind_eq_bind, Option.bind_eq_bind, Option.bind_some, Option.bind_some]
          by_cases hready : kind.ready cfg clock v = true
          · rw [if_pos hready, if_pos hready]
            cases kind.formatCp cfg clock b.first v with
            | none => rfl
            | some buf =>
              rw [Option.bind_some, Option.bind_some]
              split
              · have hstart' : (b.vars.modify i (kind.reset clock)).length - startAt (some i) <
                    fuel := by
                  rw [List.length_modify]
                  exact hstart
                rw [ih (b := ⟨b.vars.modify i (kind.reset clock), some i, mynid,
                  b.sCp ++ buf ++ [semicolon], false⟩) hstart']
                rw [show startAt (some i) = i + 1 from rfl, conn_modify]
                cases scan cfg clock kind (conn index b.vars (i + 1)) ⟨b.vars.modify i
                  (kind.reset clock), some i, mynid, b.sCp ++ buf ++ [semicolon], false⟩ <;> rfl
              · rfl
          · rw [if_neg hready, if_neg hready]
            exact ih (b := { b with mynid := mynid }) hstart
      · rw [if_neg haccept, if_neg haccept]
        rfl

/-! ## One call -/

/-- The items of the group that is open behind `prev`. -/
def groupBehind : Option Item → List Item → List Item
  | none, l => group Item.apart l
  | some a, l => groupFrom Item.apart a l

/-- How the loop of a report function ends, from a batch `b` with the items `l` left, `g` of
    them in the open group. -/
inductive LoopEnd (kind : Kind) (b : Batch R) (g l : List Item) (b' : Batch R) : Prop where
  | finished (ppnode : b'.ppnode = none) (all : g = l) (fits : ∀ a ∈ l, a.fits = true)
  | resumed (d : List Item) (k : Item) (rest : List Item) (i : Nat) (cut : l = d ++ k :: rest)
      (seen : d ++ [k] <+: g) (taken : k.ready = true) (fits : ∀ a ∈ d ++ [k], a.fits = true)
      (ppnode : b'.ppnode = some i)
      (left : kind.items cfg index clock (b'.vars.drop (i + 1)) = rest) (sCp : b'.sCp ≠ [])
  | stopped (ppnode : b'.ppnode = b.ppnode) (vars : b'.vars = b.vars) (sCp : b'.sCp = b.sCp)
      (quiet : b.sCp = [] → g ≠ l ∧ ∀ a ∈ g, a.ready = false ∧ a.fits = true)

/-- What the loop comes to: without a result a text of the open group does not fit. -/
def LoopResult (kind : Kind) (b : Batch R) (g l : List Item) : Option (Batch R) → Prop
  | none => ∃ a ∈ g, a.fits = false
  | some b' => LoopEnd cfg index clock kind b g l b'

variable {cfg index clock}

variable (cfg clock) in
/-- The items of placed variables. -/
def Kind.placedItems (kind : Kind) (l : List (Placed R)) : List Item :=
  l.map fun p => kind.item cfg clock p.1

variable (cfg clock) in
/-- The variables of the list that are ready. -/
def Kind.readyOf (kind : Kind) (l : List (Placed R)) : List (Placed R) :=
  l.filter fun p => kind.ready cfg clock p.1

omit [VarReal R] [NumberText R] in
theorem readyOf_cons_true {kind : Kind} {p : Placed R} (h : kind.ready cfg clock p.1 = true)
    (l : List (Placed R)) : kind.readyOf cfg clock (p :: l) = p :: kind.readyOf cfg clock l := by
  rw [Kind.readyOf, List.filter_cons, h, if_pos rfl]
  rfl

omit [VarReal R] [NumberText R] in
theorem readyOf_cons_false {kind : Kind} {p : Placed R} (h : kind.ready cfg clock p.1 = false)
    (l : List (Placed R)) : kind.readyOf cfg clock (p :: l) = kind.readyOf cfg clock l := by
  rw [Kind.readyOf, List.filter_cons, h, if_neg (by decide)]
  rfl

variable (cfg clock) in
/-- How the walk ends, from a batch `b` with the variables `l` left, whose items in the open
    group are `g`, and with the texts of `taken` appended. -/
inductive ScanEnd (kind : Kind) (b : Batch R) (g : List Item) (l : List (Placed R)) (b' : Batch R)
    (taken : List (Placed R)) : Prop where
  | finished (ppnode : b'.ppnode = none) (all : g = kind.placedItems cfg clock l)
      (fits : ∀ a ∈ kind.placedItems cfg clock l, a.fits = true)
      (took : taken = kind.readyOf cfg clock l)
  | resumed (d : List (Placed R)) (p : Placed R) (rest : List (Placed R)) (cut : l = d ++ p :: rest)
      (seen : kind.placedItems cfg clock (d ++ [p]) <+: g) (ready : kind.ready cfg clock p.1 = true)
      (fits : ∀ a ∈ kind.placedItems cfg clock (d ++ [p]), a.fits = true)
      (ppnode : b'.ppnode = some p.2) (took : taken = kind.readyOf cfg clock (d ++ [p]))
  | stopped (ppnode : b'.ppnode = b.ppnode) (took : taken = [])
      (quiet : b.sCp = [] → g ≠ kind.placedItems cfg clock l ∧
        ∀ a ∈ g, a.ready = false ∧ a.fits = true)

variable (cfg clock) in
/-- What the walk comes to: without a result a text of the open group does not fit. -/
def ScanResult (kind : Kind) (b : Batch R) (g : List Item) (l : List (Placed R)) :
    Option (Batch R × List (Placed R)) → Prop
  | none => ∃ a ∈ g, a.fits = false
  | some (b', taken) => ScanEnd cfg clock kind b g l b' taken

/-- A variable that was passed by without being taken. -/
theorem ScanResult.pass {kind : Kind} {b : Batch R} {g : List Item} {l : List (Placed R)}
    {p : Placed R} {r : Option (Batch R × List (Placed R))}
    (h : ScanResult cfg clock kind b g l r) (hready : kind.ready cfg clock p.1 = false)
    (hfits : (kind.item cfg clock p.1).fits = true) {mynid : CStr} {b₀ : Batch R}
    (hb : b = { b₀ with mynid := mynid }) :
    ScanResult cfg clock kind b₀ (kind.item cfg clock p.1 :: g) (p :: l) r := by
  subst hb
  rcases r with - | ⟨b', taken⟩
  · obtain ⟨x, hx, hfit⟩ := h
    exact ⟨x, List.mem_cons_of_mem _ hx, hfit⟩
  · have hskip (t : List (Placed R)) := readyOf_cons_false hready t
    cases h with
    | finished ppnode all fits took =>
      refine .finished ppnode (by rw [all]; rfl) (fun x hx => ?_) (by rw [took, hskip])
      rcases List.mem_cons.mp hx with rfl | hx
      · exact hfits
      · exact fits x hx
    | resumed d q rest cut seen ready fits ppnode took =>
      refine .resumed (p :: d) q rest (by rw [cut, List.cons_append])
        (List.cons_prefix_cons.mpr ⟨rfl, seen⟩) ready (fun x hx => ?_) ppnode
        (by rw [took, List.cons_append, hskip])
      rcases List.mem_cons.mp hx with rfl | hx
      · exact hfits
      · exact fits x hx
    | stopped ppnode took quiet =>
      refine .stopped ppnode took fun hnil => ?_
      obtain ⟨hne, hall⟩ := quiet hnil
      refine ⟨fun he => hne (List.tail_eq_of_cons_eq he), fun x hx => ?_⟩
      rcases List.mem_cons.mp hx with rfl | hx
      · exact ⟨hready, hfits⟩
      · exact hall x hx

/-- A variable that was taken: if nothing is taken behind it, the pass resumes there. -/
theorem ScanResult.take {kind : Kind} {b : Batch R} {g : List Item} {l : List (Placed R)}
    {p : Placed R} {r : Option (Batch R × List (Placed R))}
    (h : ScanResult cfg clock kind b g l r) (hready : kind.ready cfg clock p.1 = true)
    (hfits : (kind.item cfg clock p.1).fits = true) (hnode : b.ppnode = some p.2) (b₀ : Batch R) :
    ScanResult cfg clock kind b₀ (kind.item cfg clock p.1 :: g) (p :: l)
      (r.map fun o => (o.1, p :: o.2)) := by
  rcases r with - | ⟨b', taken⟩
  · obtain ⟨x, hx, hfit⟩ := h
    exact ⟨x, List.mem_cons_of_mem _ hx, hfit⟩
  · have hkeep (t : List (Placed R)) := readyOf_cons_true hready t
    show ScanEnd cfg clock kind b₀ _ _ b' (p :: taken)
    cases h with
    | finished ppnode all fits took =>
      refine .finished ppnode (by rw [all]; rfl) (fun x hx => ?_) (by rw [took, hkeep])
      rcases List.mem_cons.mp hx with rfl | hx
      · exact hfits
      · exact fits x hx
    | resumed d q rest cut seen ready fits ppnode took =>
      refine .resumed (p :: d) q rest (by rw [cut, List.cons_append])
        (List.cons_prefix_cons.mpr ⟨rfl, seen⟩) ready (fun x hx => ?_) ppnode
        (by rw [took, List.cons_append, hkeep])
      rcases List.mem_cons.mp hx with rfl | hx
      · exact hfits
      · exact fits x hx
    | stopped ppnode took quiet =>
      refine .resumed [] p l rfl (List.cons_prefix_cons.mpr ⟨rfl, List.nil_prefix⟩) hready
        (fun x hx => ?_) (by rw [ppnode, hnode]) (by rw [took, List.nil_append, hkeep]; rfl)
      rcases List.mem_cons.mp hx with rfl | hx
      · exact hfits
      · exact absurd hx List.not_mem_nil

/-- The item the loop stands at belongs to the open group exactly if its node id is accepted. -/
theorem groupBehind_cons (prev : Option Item) (a : Item) (l : List Item) :
    groupBehind prev (a :: l) =
      if (prev.map Item.nid).getD [] = [] ∨ a.nid = (prev.map Item.nid).getD [] then
        a :: groupBehind (some a) l
      else [] := by
  cases prev with
  | none => simp [groupBehind, group]
  | some p =>
    show groupFrom Item.apart p (a :: l) = _
    rw [groupFrom]
    by_cases h : Item.apart p a
    · have h' := h
      unfold Item.apart at h'
      rw [if_pos h, if_neg]
      simpa using h'
    · have h' := h
      unfold Item.apart at h'
      rw [if_neg h, if_pos]
      · rfl
      · by_cases hp : p.nid = []
        · exact Or.inl (by simpa using hp)
        · exact Or.inr (not_not.mp fun hne => h' ⟨hp, hne⟩)

omit [VarReal R] [NumberText R] in
theorem strcpyNid_eq {newnid mynid : CStr} (h : strcpyNid newnid = some mynid) :
    newnid = mynid := by
  unfold strcpyNid at h
  split at h
  · exact Option.some.inj h
  · exact absurd h (by simp)

theorem scan_spec (kind : Kind) {l : List (Placed R)} {b : Batch R} {prev : Option Item}
    (hnid : b.mynid = (prev.map Item.nid).getD []) :
    ScanResult cfg clock kind b (groupBehind prev (kind.placedItems cfg clock l)) l
      (scan cfg clock kind l b) := by
  induction l generalizing b prev with
  | nil =>
    have hg : groupBehind prev [] = [] := by cases prev <;> rfl
    exact .finished rfl hg (fun a ha => absurd ha List.not_mem_nil) rfl
  | cons p l ih =>
    obtain ⟨v, i⟩ := p
    have hitem : (kind.item cfg clock v).nid = nidOf cfg v := rfl
    have hcons : kind.placedItems cfg clock ((v, i) :: l) =
        kind.item cfg clock v :: kind.placedItems cfg clock l := rfl
    rw [hcons, groupBehind_cons, ← hnid, hitem, scan]
    by_cases haccept : b.mynid = [] ∨ nidOf cfg v = b.mynid
    · rw [if_pos haccept, if_pos haccept]
      cases hcpy : strcpyNid (nidOf cfg v) with
      | none =>
        refine ⟨kind.item cfg clock v, List.mem_cons_self, ?_⟩
        simp [Kind.item, hcpy]
      | some mynid =>
        obtain rfl : nidOf cfg v = mynid := strcpyNid_eq hcpy
        rw [Option.bind_eq_bind, Option.bind_some]
        cases hready : kind.ready cfg clock v with
        | false =>
          rw [if_neg (by simp)]
          have hfits : (kind.item cfg clock v).fits = true := by simp [Kind.item, hcpy, hready]
          exact (@ih { b with mynid := nidOf cfg v } (some (kind.item cfg clock v)) rfl).pass
            (p := (v, i)) hready hfits rfl
        | true =>
          rw [if_pos rfl]
          have hfits : (kind.item cfg clock v).fits =
              (kind.formatCp cfg clock b.first v).isSome := by
            simp [Kind.item, hcpy, hready, kind.formatCp_isSome cfg clock b.first v]
          cases hbuf : kind.formatCp cfg clock b.first v with
          | none =>
            rw [hbuf] at hfits
            exact ⟨_, List.mem_cons_self, hfits⟩
          | some buf =>
            rw [hbuf] at hfits
            rw [Option.bind_some]
            split
            · -- taken
              have hrec := (@ih ⟨b.vars.modify i (kind.reset clock), some i, nidOf cfg v,
                b.sCp ++ buf ++ [semicolon], false⟩ (some (kind.item cfg clock v)) rfl).take
                (p := (v, i)) hready hfits rfl b
              cases hscan : scan cfg clock kind l ⟨b.vars.modify i (kind.reset clock), some i,
                nidOf cfg v, b.sCp ++ buf ++ [semicolon], false⟩ with
              | none =>
                rw [hscan] at hrec
                exact hrec
              | some o =>
                rw [hscan] at hrec
                exact hrec
            · -- the frame is full, so it is not empty
              next hfull =>
              have hlen := kind.formatCp_length cfg clock hbuf
              refine .stopped rfl rfl fun hnil => ?_
              rw [hnil, List.length_nil] at hfull
              omega
    · rw [if_neg haccept, if_neg haccept]
      exact .stopped rfl rfl fun _ =>
        ⟨by rw [hcons]; simp, fun a ha => absurd ha List.not_mem_nil⟩

/-- One step of the walk that has a result. -/
inductive ScanStep (cfg : Hjt212Cfg) (clock : Clock) (kind : Kind) (node : ExtData R) (i : Nat)
    (l : List (Placed R)) (b b' : Batch R) (taken : List (Placed R)) : Prop where
  | passed (accept : b.mynid = [] ∨ nidOf cfg node = b.mynid)
      (ready : kind.ready cfg clock node = false)
      (rest : scan cfg clock kind l { b with mynid := nidOf cfg node } = some (b', taken))
  | took (accept : b.mynid = [] ∨ nidOf cfg node = b.mynid)
      (ready : kind.ready cfg clock node = true) (buf : List UInt8) (behind : List (Placed R))
      (text : kind.formatCp cfg clock b.first node = some buf)
      (rest : scan cfg clock kind l
        { vars := b.vars.modify i (kind.reset clock)
          ppnode := some i
          mynid := nidOf cfg node
          sCp := b.sCp ++ buf ++ [semicolon]
          first := false } = some (b', behind))
      (cons : taken = (node, i) :: behind)
  | full (accept : b.mynid = [] ∨ nidOf cfg node = b.mynid)
      (ready : kind.ready cfg clock node = true)
      (batch : b' = { b with mynid := nidOf cfg node, first := false }) (none : taken = [])
  | other (refuse : ¬ (b.mynid = [] ∨ nidOf cfg node = b.mynid)) (batch : b' = b)
      (none : taken = [])

theorem scan_cons {kind : Kind} {node : ExtData R} {i : Nat} {l : List (Placed R)} {b b' : Batch R}
    {taken : List (Placed R)} (h : scan cfg clock kind ((node, i) :: l) b = some (b', taken)) :
    ScanStep cfg clock kind node i l b b' taken := by
  rw [scan] at h
  split at h
  · next haccept =>
    obtain ⟨mynid, hcpy, h⟩ := Option.bind_eq_some_iff.mp h
    obtain rfl := strcpyNid_eq hcpy
    split at h
    · next hready =>
      obtain ⟨buf, hbuf, h⟩ := Option.bind_eq_some_iff.mp h
      split at h
      · obtain ⟨⟨c, behind⟩, hrest, h⟩ := Option.bind_eq_some_iff.mp h
        obtain ⟨rfl, rfl⟩ := Prod.mk.inj (Option.some.inj h)
        exact .took haccept hready buf behind hbuf hrest rfl
      · obtain ⟨rfl, rfl⟩ := Prod.mk.inj (Option.some.inj h)
        exact .full haccept hready rfl rfl
    · next hready => exact .passed haccept (by simpa using hready) h
  · next hrefuse =>
    obtain ⟨rfl, rfl⟩ := Prod.mk.inj (Option.some.inj h)
    exact .other hrefuse rfl rfl

variable (clock) in
/-- The variables after the accumulators of `taken` were reported. -/
def resetAll (kind : Kind) (taken : List (Placed R)) (vars : List (ExtData R)) : List (ExtData R) :=
  taken.foldl (fun vars p => vars.modify p.2 (kind.reset clock)) vars

variable (cfg clock) in
/-- The texts of `taken`, the way they stand in `sCp`. -/
def cpText (kind : Kind) : Bool → List (Placed R) → Option (List UInt8)
  | _, [] => some []
  | first, p :: taken => do
      let buf ← kind.formatCp cfg clock first p.1
      let text ← cpText kind false taken
      some (buf ++ [semicolon] ++ text)

/-- The walk resets what it takes, and appends its texts. -/
theorem scan_taken {kind : Kind} {l : List (Placed R)} {b b' : Batch R} {taken : List (Placed R)}
    (h : scan cfg clock kind l b = some (b', taken)) :
    b'.vars = resetAll clock kind taken b.vars ∧
      ∃ text, cpText cfg clock kind b.first taken = some text ∧ b'.sCp = b.sCp ++ text := by
  induction l generalizing b taken with
  | nil =>
    obtain ⟨rfl, rfl⟩ := Prod.mk.inj (Option.some.inj h)
    exact ⟨rfl, [], rfl, (List.append_nil _).symm⟩
  | cons p l ih =>
    cases scan_cons h with
    | passed accept ready rest =>
      have hrec := ih rest
      exact hrec
    | took accept ready buf behind text rest cons =>
      obtain ⟨hvars, t, ht, hsCp⟩ := ih rest
      rw [cons]
      refine ⟨hvars, buf ++ [semicolon] ++ t, ?_, ?_⟩
      · rw [cpText, text, Option.bind_eq_bind, Option.bind_some, ht]
        rfl
      · rw [hsCp]
        simp only [List.append_assoc]
    | full accept ready batch none =>
      rw [batch, none]
      exact ⟨rfl, [], rfl, (List.append_nil _).symm⟩
    | other refuse batch none =>
      rw [batch, none]
      exact ⟨rfl, [], rfl, (List.append_nil _).symm⟩

theorem cpText_ne_nil {kind : Kind} {first : Bool} {taken : List (Placed R)} {text : List UInt8}
    (h : cpText cfg clock kind first taken = some text) (hne : taken ≠ []) : text ≠ [] := by
  cases taken with
  | nil => exact absurd rfl hne
  | cons p taken =>
    obtain ⟨buf, -, h⟩ := Option.bind_eq_some_iff.mp h
    obtain ⟨t, -, h⟩ := Option.bind_eq_some_iff.mp h
    obtain rfl := Option.some.inj h
    simp

omit [NumberText R] in
/-- Nothing changes behind the last variable taken. -/
theorem resetAll_drop (kind : Kind) {taken : List (Placed R)} {n : Nat}
    (h : ∀ p ∈ taken, p.2 < n) (vars : List (ExtData R)) :
    (resetAll clock kind taken vars).drop n = vars.drop n := by
  induction taken generalizing vars with
  | nil => rfl
  | cons p taken ih =>
    show (resetAll clock kind taken (vars.modify p.2 _)).drop n = _
    rw [ih fun q hq => h q (List.mem_cons_of_mem p hq)]
    exact List.drop_modify_of_lt _ _ _ _ (h p List.mem_cons_self)

omit [NumberText R] in
theorem conn_resetAll (kind : Kind) {taken : List (Placed R)} {n : Nat}
    (h : ∀ p ∈ taken, p.2 < n) (vars : List (ExtData R)) :
    conn index (resetAll clock kind taken vars) n = conn index vars n := by
  unfold conn
  rw [resetAll_drop kind h]

omit [NumberText R] [VarReal R] in
/-- What is taken up to the variable `p` has no later place. -/
theorem place_le_of_readyOf {kind : Kind} {vars : List (ExtData R)} {n : Nat}
    {d rest : List (Placed R)} {p : Placed R} (h : conn index vars n = d ++ p :: rest) :
    ∀ q ∈ kind.readyOf cfg clock (d ++ [p]), q.2 < p.2 + 1 := by
  intro q hq
  rcases List.mem_append.mp (List.mem_of_mem_filter hq) with hq | hq
  · exact Nat.lt_succ_of_lt ((conn_split index h).2.1 q hq)
  · rw [List.mem_singleton.mp hq]
    exact Nat.lt_succ_self p.2

theorem reportLoop_spec (kind : Kind) {fuel : Nat} {node : Option Nat} {b : Batch R}
    {prev : Option Item} (hfuel : b.vars.length - startAt node < fuel)
    (hnid : b.mynid = (prev.map Item.nid).getD []) :
    LoopResult cfg index clock kind b
      (groupBehind prev (kind.items cfg index clock (b.vars.drop (startAt node))))
      (kind.items cfg index clock (b.vars.drop (startAt node)))
      (reportLoop cfg index clock kind fuel node b) := by
  have hspec := @scan_spec R _ _ cfg clock kind (conn index b.vars (startAt node)) b prev hnid
  rw [reportLoop_eq_scan cfg index clock kind hfuel, items_drop]
  cases hscan : scan cfg clock kind (conn index b.vars (startAt node)) b with
  | none =>
    rw [hscan] at hspec
    exact hspec
  | some o =>
    obtain ⟨b', taken⟩ := o
    rw [hscan] at hspec
    obtain ⟨hvars, text, htext, hsCp⟩ := scan_taken hscan
    cases hspec with
    | finished ppnode all fits took => exact .finished ppnode all fits
    | resumed d p rest cut seen ready fits ppnode took =>
      refine .resumed (kind.placedItems cfg clock d) (kind.item cfg clock p.1)
        (kind.placedItems cfg clock rest) p.2 ?_ ?_ ready (fun a ha => fits a ?_) ppnode ?_ ?_
      · rw [cut]
        exact List.map_append
      · have hmap : kind.placedItems cfg clock (d ++ [p]) = _ := List.map_append
        rw [hmap] at seen
        exact seen
      · have hmap : kind.placedItems cfg clock (d ++ [p]) = _ := List.map_append
        rw [hmap]
        exact ha
      · rw [hvars, items_drop, took, conn_resetAll kind (place_le_of_readyOf cut),
          (conn_split index cut).2.2]
        rfl
      · have hne : taken ≠ [] := by
          rw [took]
          exact List.ne_nil_of_mem (List.mem_filter.mpr ⟨List.mem_append_right _ List.mem_cons_self,
            ready⟩)
        rw [hsCp]
        exact fun hnil => cpText_ne_nil htext hne (List.append_eq_nil_iff.mp hnil).2
    | stopped ppnode took quiet =>
      subst took
      obtain rfl : text = [] := (Option.some.inj htext).symm
      exact .stopped ppnode hvars (by rw [hsCp, List.append_nil]) quiet

variable (cfg index clock) in
/-- What a call of a report function does to the items `l` behind the resume pointer. -/
def CallResult (kind : Kind) (vars : List (ExtData R)) (ppnode : Option Nat) (l : List Item) :
    Option (Report R) → Prop
  | none => ∃ a ∈ group Item.apart l, a.fits = false
  | some r => ∃ o, Pass Item.apart (fun a => a.ready = true) l o ∧
      match o with
      | .finished => r.ppnode = none ∧ ∀ a ∈ l, a.fits = true
      | .resumed rest => r.sent.isSome ∧ (∀ a ∈ l, a ∈ rest ∨ a.fits = true) ∧
          ∃ i, r.ppnode = some i ∧ kind.items cfg index clock (r.vars.drop (i + 1)) = rest
      | .idle => r.ppnode = ppnode ∧ r.vars = vars ∧ ∀ a ∈ group Item.apart l, a.fits = true

theorem reportData_spec (kind : Kind) (vars : List (ExtData R)) (ppnode : Option Nat) :
    CallResult cfg index clock kind vars ppnode
      (kind.items cfg index clock (vars.drop (startAt ppnode)))
      (reportData cfg index clock kind vars ppnode) := by
  have hloop := @reportLoop_spec R _ _ cfg index clock kind (vars.length + 1) ppnode
    ⟨vars, ppnode, [], [], true⟩ none (by dsimp only; omega) rfl
  unfold reportData
  cases hb : reportLoop cfg index clock kind (vars.length + 1) ppnode ⟨vars, ppnode, [], [], true⟩ with
  | none =>
    rw [hb] at hloop
    exact hloop
  | some b =>
    rw [hb] at hloop
    rw [Option.bind_eq_bind, Option.bind_some]
    cases hloop with
    | finished hnode all fits => exact ⟨.finished, .finished all, hnode, fits⟩
    | resumed d k rest i cut seen taken fits hnode left sCp =>
      dsimp only at cut seen
      rw [cut]
      rw [cut] at seen
      refine ⟨.resumed rest, .resumed seen taken, ?_, fun a ha => ?_, i, hnode, left⟩
      · rw [if_pos (List.length_pos_iff.mpr sCp)]
        rfl
      · rw [List.append_cons] at ha
        rcases List.mem_append.mp ha with ha | ha
        · exact Or.inr (fits a ha)
        · exact Or.inl ha
    | stopped hnode hvars sCp quiet =>
      obtain ⟨hne, hall⟩ := quiet rfl
      refine ⟨.idle, .idle ⟨hne, fun a ha => ?_⟩, hnode, hvars, fun a ha => (hall a ha).2⟩
      show ¬ a.ready = true
      rw [(hall a ha).1]
      decide

/-! ## A round -/

variable (cfg index clock) in
/-- The calls of a round that comes to an end, each of which takes a variable or leaves the
    resume pointer null. -/
def RoundEnds (kind : Kind) (vars : List (ExtData R)) (node : Option Nat) (fuel : Nat)
    (vars' : List (ExtData R)) (calls : List (Report R)) : Prop :=
  reportWhile (reportData cfg index clock kind) fuel vars node = some (vars', calls) ∧
    ∀ r ∈ calls, r.sent.isSome ∨ r.ppnode = none

theorem mem_group {l : List Item} {a : Item} (h : a ∈ group Item.apart l) : a ∈ l :=
  (group_initial Item.apart l).subset h

/-- A round that has a resume pointer ends only if the items left are chained and fit. -/
theorem chained_of_reportWhile (kind : Kind) {fuel i : Nat} {vars : List (ExtData R)}
    {out : List (ExtData R) × List (Report R)}
    (h : reportWhile (reportData cfg index clock kind) fuel vars (some i) = some out) :
    Chained Item.apart (fun a => a.ready = true) (kind.items cfg index clock (vars.drop (i + 1))) ∧
      ∀ a ∈ kind.items cfg index clock (vars.drop (i + 1)), a.fits = true := by
  induction fuel generalizing vars i out with
  | zero => exact absurd h (by simp [reportWhile])
  | succ fuel ih =>
    rw [reportWhile] at h
    obtain ⟨r, hr, h⟩ := Option.bind_eq_some_iff.mp h
    have hspec := @reportData_spec R _ _ cfg index clock kind vars (some i)
    rw [hr] at hspec
    obtain ⟨o, hpass, ho⟩ := hspec
    cases o with
    | finished => exact ⟨hpass.chained_of_finished, ho.2⟩
    | resumed rest =>
      obtain ⟨-, hfits, j, hj, hrest⟩ := ho
      rw [hj] at h
      obtain ⟨out', hout', -⟩ := Option.bind_eq_some_iff.mp h
      obtain ⟨hchain, hall⟩ := ih hout'
      rw [hrest] at hchain hall
      exact ⟨hpass.chained_iff_of_resumed.mpr hchain, fun a ha =>
        (hfits a ha).elim (hall a) fun h => h⟩
    | idle =>
      -- nothing has changed, so the rest of the round is the same call again
      obtain ⟨hj, hvars, -⟩ := ho
      rw [hj, hvars] at h
      obtain ⟨out', hout', -⟩ := Option.bind_eq_some_iff.mp h
      exact ih hout'

/-- Chained items that fit are all passed, in at most one call more than there are items. -/
theorem roundEnds_of_chained (kind : Kind) {fuel : Nat} {vars : List (ExtData R)}
    {node : Option Nat}
    (hfuel : (kind.items cfg index clock (vars.drop (startAt node))).length < fuel)
    (hchain : Chained Item.apart (fun a => a.ready = true)
      (kind.items cfg index clock (vars.drop (startAt node))))
    (hfits : ∀ a ∈ kind.items cfg index clock (vars.drop (startAt node)), a.fits = true) :
    ∃ vars' calls, RoundEnds cfg index clock kind vars node fuel vars' calls := by
  induction fuel generalizing vars node with
  | zero => exact absurd hfuel (Nat.not_lt_zero _)
  | succ fuel ih =>
    have hspec := @reportData_spec R _ _ cfg index clock kind vars node
    unfold RoundEnds
    rw [reportWhile]
    cases hr : reportData cfg index clock kind vars node with
    | none =>
      rw [hr] at hspec
      obtain ⟨a, ha, hno⟩ := hspec
      rw [hfits a (mem_group ha)] at hno
      exact absurd hno (by decide)
    | some r =>
      rw [hr] at hspec
      obtain ⟨o, hpass, ho⟩ := hspec
      rw [Option.bind_eq_bind, Option.bind_some]
      cases o with
      | finished =>
        rw [ho.1]
        refine ⟨r.vars, [r], rfl, fun x hx => Or.inr ?_⟩
        rw [List.mem_singleton.mp hx]
        exact ho.1
      | resumed rest =>
        obtain ⟨hsent, -, j, hj, hrest⟩ := ho
        have hlt := hpass.length_lt_of_resumed
        have hchain' := hpass.chained_iff_of_resumed.mp hchain
        have hmem : ∀ a ∈ rest, a.fits = true := fun a ha => hfits a (hpass.mem_of_resumed ha)
        rw [← hrest] at hlt hchain' hmem
        obtain ⟨vars', calls, hrun, hgood⟩ := @ih r.vars (some j) (by
          show (kind.items cfg index clock (r.vars.drop (j + 1))).length < fuel
          omega) hchain' hmem
        rw [hj]
        dsimp only
        rw [hrun]
        refine ⟨vars', r :: calls, rfl, fun x hx => ?_⟩
        rcases List.mem_cons.mp hx with rfl | hx
        · exact Or.inl hsent
        · exact hgood x hx
      | idle => exact absurd hchain hpass.quiet_of_idle.not_chained

/-- The condition for a round over the items `l`: nothing in front of the first break is ready,
    or everything in front of a break is; and the texts fit as far as the round goes. -/
def Settles (l : List Item) : Prop :=
  (Quiet Item.apart (fun a => a.ready = true) l ∧ ∀ a ∈ group Item.apart l, a.fits = true) ∨
    (Chained Item.apart (fun a => a.ready = true) l ∧ ∀ a ∈ l, a.fits = true)

theorem settles_of_reportWhile (kind : Kind) {fuel : Nat} {vars : List (ExtData R)}
    {out : List (ExtData R) × List (Report R)}
    (h : reportWhile (reportData cfg index clock kind) fuel vars none = some out) :
    Settles (kind.items cfg index clock vars) := by
  cases fuel with
  | zero => exact absurd h (by simp [reportWhile])
  | succ fuel =>
    rw [reportWhile] at h
    obtain ⟨r, hr, h⟩ := Option.bind_eq_some_iff.mp h
    have hspec := @reportData_spec R _ _ cfg index clock kind vars none
    rw [hr] at hspec
    obtain ⟨o, hpass, ho⟩ := hspec
    cases o with
    | finished => exact Or.inr ⟨hpass.chained_of_finished, ho.2⟩
    | resumed rest =>
      obtain ⟨-, hfits, j, hj, hrest⟩ := ho
      rw [hj] at h
      obtain ⟨out', hout', -⟩ := Option.bind_eq_some_iff.mp h
      obtain ⟨hchain, hall⟩ := chained_of_reportWhile kind hout'
      rw [hrest] at hchain hall
      exact Or.inr ⟨hpass.chained_iff_of_resumed.mpr hchain, fun a ha =>
        (hfits a ha).elim (hall a) fun h => h⟩
    | idle => exact Or.inl ⟨hpass.quiet_of_idle, ho.2.2⟩

theorem roundEnds_of_settles (kind : Kind) {fuel : Nat} {vars : List (ExtData R)}
    (hfuel : (kind.items cfg index clock vars).length < fuel)
    (h : Settles (kind.items cfg index clock vars)) :
    ∃ vars' calls, RoundEnds cfg index clock kind vars none fuel vars' calls := by
  rcases h with ⟨hquiet, hfits⟩ | ⟨hchain, hfits⟩
  · -- the first call takes nothing and leaves the pointer null
    have hspec := @reportData_spec R _ _ cfg index clock kind vars none
    obtain ⟨fuel, rfl⟩ : ∃ m, fuel = m + 1 := ⟨fuel - 1, by omega⟩
    unfold RoundEnds
    rw [reportWhile]
    cases hr : reportData cfg index clock kind vars none with
    | none =>
      rw [hr] at hspec
      obtain ⟨a, ha, hno⟩ := hspec
      have hfit := hfits a ha
      rw [hno] at hfit
      exact absurd hfit (by decide)
    | some r =>
      rw [hr] at hspec
      obtain ⟨o, hpass, ho⟩ := hspec
      cases o with
      | finished => exact absurd hquiet hpass.not_quiet_of_finished
      | resumed rest => exact absurd hquiet hpass.not_quiet_of_resumed
      | idle =>
        rw [Option.bind_eq_bind, Option.bind_some, ho.1]
        refine ⟨r.vars, [r], rfl, fun x hx => Or.inr ?_⟩
        rw [List.mem_singleton.mp hx]
        exact ho.1
  · exact roundEnds_of_chained kind hfuel hchain hfits

/-! ## The rounds do not disturb each other -/

omit [VarReal R] [NumberText R] in
theorem filterMap_modify {α β : Type} {f : α → Option β} {g : α → α} (h : ∀ a, f (g a) = f a)
    (l : List α) (i : Nat) : (l.modify i g).filterMap f = l.filterMap f := by
  induction l generalizing i with
  | nil => rw [List.modify_nil]
  | cons a l ih =>
    cases i with
    | zero => rw [List.modify_zero_cons, List.filterMap_cons, List.filterMap_cons, h]
    | succ i => rw [List.modify_succ_cons, List.filterMap_cons, List.filterMap_cons, ih]

/-- Reporting one accumulator leaves the others as they are. -/
theorem Kind.item_reset {kind other : Kind} (h : other ≠ kind) (node : ExtData R) :
    other.item cfg clock (kind.reset clock node) = other.item cfg clock node := by
  cases kind <;> cases other <;> first | exact absurd rfl h | rfl

theorem Kind.items_modify {kind other : Kind} (h : other ≠ kind) (vars : List (ExtData R))
    (i : Nat) : other.items cfg index clock (vars.modify i (kind.reset clock)) =
      other.items cfg index clock vars := by
  refine filterMap_modify (fun node => ?_) vars i
  have hproto : isUpProto (protoDevNetType index) index.toNat protoHjt212 (kind.reset clock node) =
      isUpProto (protoDevNetType index) index.toNat protoHjt212 node := by
    cases kind <;> rfl
  rw [hproto, item_reset h]

theorem reportLoop_items {kind other : Kind} (h : other ≠ kind) {fuel : Nat} {node : Option Nat}
    {b b' : Batch R} (hb : reportLoop cfg index clock kind fuel node b = some b') :
    other.items cfg index clock b'.vars = other.items cfg index clock b.vars := by
  induction fuel generalizing node b with
  | zero => exact absurd hb (by simp [reportLoop])
  | succ fuel ih =>
    rw [reportLoop] at hb
    split at hb
    · obtain rfl := Option.some.inj hb
      rfl
    · obtain ⟨v, -, hb⟩ := Option.bind_eq_some_iff.mp hb
      split at hb
      · split at hb
        · obtain ⟨mynid, -, hb⟩ := Option.bind_eq_some_iff.mp hb
          split at hb
          · obtain ⟨buf, -, hb⟩ := Option.bind_eq_some_iff.mp hb
            split at hb
            · rw [ih hb, Kind.items_modify h]
            · obtain rfl := Option.some.inj hb
              rfl
          · have hrec := ih hb
            exact hrec
        · obtain rfl := Option.some.inj hb
          rfl
      · have hrec := ih hb
        exact hrec

theorem reportData_items {kind other : Kind} (h : other ≠ kind) {vars : List (ExtData R)}
    {node : Option Nat} {r : Report R} (hr : reportData cfg index clock kind vars node = some r) :
    other.items cfg index clock r.vars = other.items cfg index clock vars := by
  obtain ⟨b, hb, hr⟩ := Option.bind_eq_some_iff.mp hr
  obtain rfl := Option.some.inj hr
  exact reportLoop_items h hb

theorem reportWhile_items {kind other : Kind} (h : other ≠ kind) {fuel : Nat}
    {vars : List (ExtData R)} {node : Option Nat} {out : List (ExtData R) × List (Report R)}
    (hout : reportWhile (reportData cfg index clock kind) fuel vars node = some out) :
    other.items cfg index clock out.1 = other.items cfg index clock vars := by
  induction fuel generalizing vars node out with
  | zero => exact absurd hout (by simp [reportWhile])
  | succ fuel ih =>
    rw [reportWhile] at hout
    obtain ⟨r, hr, hout⟩ := Option.bind_eq_some_iff.mp hout
    split at hout
    · obtain rfl := Option.some.inj hout
      exact reportData_items h hr
    · obtain ⟨out', hout', hout⟩ := Option.bind_eq_some_iff.mp hout
      obtain rfl := Option.some.inj hout
      exact (ih hout').trans (reportData_items h hr)

/-! ## The task -/

variable (cfg index clock) in
/-- The uploads of a turn come to an end, and every call takes a variable or leaves the resume
    pointer null. -/
def Terminates (vars : List (ExtData R)) : Prop :=
  ∃ fuel vars' calls, hjt212WorkTask cfg index clock fuel vars = some (vars', calls) ∧
    ∀ r ∈ calls, r.sent.isSome ∨ r.ppnode = none

variable (cfg index clock) in
/-- The round of one report function, if the connection is set up for it. -/
def roundIf (kind : Kind) (fuel : Nat) (vars : List (ExtData R)) :
    Option (List (ExtData R) × List (Report R)) :=
  if kind.flag cfg then reportWhile (reportData cfg index clock kind) fuel vars none
  else some (vars, [])

theorem hjt212WorkTask_eq (fuel : Nat) (vars : List (ExtData R)) :
    hjt212WorkTask cfg index clock fuel vars =
      (roundIf cfg index clock .real fuel vars).bind fun o₁ =>
        (roundIf cfg index clock .minutes fuel o₁.1).bind fun o₂ =>
          (roundIf cfg index clock .hour fuel o₂.1).bind fun o₃ =>
            some (o₃.1, o₁.2 ++ o₂.2 ++ o₃.2) := by
  unfold hjt212WorkTask roundIf Kind.flag hjt212ReportRealData hjt212ReportMinutesData
    hjt212ReportHourData
  cases cfg.real_flag <;> cases cfg.min_flag <;> cases cfg.hour_flag <;> rfl

theorem roundIf_items {kind other : Kind} (h : other ≠ kind) {fuel : Nat} {vars : List (ExtData R)}
    {out : List (ExtData R) × List (Report R)}
    (hout : roundIf cfg index clock kind fuel vars = some out) :
    other.items cfg index clock out.1 = other.items cfg index clock vars := by
  unfold roundIf at hout
  split at hout
  · exact reportWhile_items h hout
  · obtain rfl := Option.some.inj hout
    rfl

theorem settles_of_roundIf {kind : Kind} {fuel : Nat} {vars : List (ExtData R)}
    {out : List (ExtData R) × List (Report R)}
    (hout : roundIf cfg index clock kind fuel vars = some out) (hflag : kind.flag cfg = true) :
    Settles (kind.items cfg index clock vars) := by
  rw [roundIf, if_pos hflag] at hout
  exact settles_of_reportWhile kind hout

theorem roundIf_of_settles {kind : Kind} {vars : List (ExtData R)} {fuel : Nat}
    (hfuel : (kind.items cfg index clock vars).length < fuel)
    (h : kind.flag cfg = true → Settles (kind.items cfg index clock vars)) :
    ∃ out, roundIf cfg index clock kind fuel vars = some out ∧
      ∀ r ∈ out.2, r.sent.isSome ∨ r.ppnode = none := by
  unfold roundIf
  split
  · next hflag =>
    obtain ⟨vars', calls, hrun, hgood⟩ := roundEnds_of_settles kind hfuel (h hflag)
    exact ⟨(vars', calls), hrun, hgood⟩
  · exact ⟨(vars, []), rfl, fun r hr => absurd hr List.not_mem_nil⟩

theorem settles_of_terminates {vars : List (ExtData R)} (h : Terminates cfg index clock vars)
    (kind : Kind) (hflag : kind.flag cfg = true) :
    Settles (kind.items cfg index clock vars) := by
  obtain ⟨fuel, vars', calls, hrun, -⟩ := h
  rw [hjt212WorkTask_eq] at hrun
  obtain ⟨o₁, h₁, hrun⟩ := Option.bind_eq_some_iff.mp hrun
  obtain ⟨o₂, h₂, hrun⟩ := Option.bind_eq_some_iff.mp hrun
  obtain ⟨o₃, h₃, -⟩ := Option.bind_eq_some_iff.mp hrun
  cases kind with
  | real => exact settles_of_roundIf h₁ hflag
  | minutes =>
    rw [← roundIf_items (by decide) h₁]
    exact settles_of_roundIf h₂ hflag
  | hour =>
    rw [← roundIf_items (by decide) h₁, ← roundIf_items (by decide) h₂]
    exact settles_of_roundIf h₃ hflag

/-- The uploads of a turn come to an end if and only if, for each report the connection is set
    up for, its items settle. -/
theorem hjt212WorkTask_terminates (cfg : Hjt212Cfg) (index : UInt8) (clock : Clock)
    (vars : List (ExtData R)) :
    Terminates cfg index clock vars ↔
      ∀ kind : Kind, kind.flag cfg = true → Settles (kind.items cfg index clock vars) := by
  constructor
  · exact fun h kind hflag => settles_of_terminates h kind hflag
  · intro h
    have hlen : ∀ kind : Kind, (kind.items cfg index clock vars).length < vars.length + 1 :=
      fun kind => Nat.lt_succ_of_le (List.length_filterMap_le _ _)
    obtain ⟨o₁, h₁, hgood₁⟩ := roundIf_of_settles (hlen .real) (h .real)
    have hminutes : Kind.minutes.items cfg index clock o₁.1 = Kind.minutes.items cfg index clock vars :=
      roundIf_items (by decide) h₁
    obtain ⟨o₂, h₂, hgood₂⟩ := roundIf_of_settles (hminutes ▸ hlen .minutes)
      (hminutes ▸ h .minutes)
    have hhour : Kind.hour.items cfg index clock o₂.1 = Kind.hour.items cfg index clock vars :=
      (roundIf_items (by decide) h₂).trans (roundIf_items (by decide) h₁)
    obtain ⟨o₃, h₃, hgood₃⟩ := roundIf_of_settles (hhour ▸ hlen .hour) (hhour ▸ h .hour)
    refine ⟨vars.length + 1, o₃.1, o₁.2 ++ o₂.2 ++ o₃.2, ?_, fun r hr => ?_⟩
    · rw [hjt212WorkTask_eq, h₁, Option.bind_some, h₂, Option.bind_some, h₃, Option.bind_some]
    · rcases List.mem_append.mp hr with hr | hr
      · rcases List.mem_append.mp hr with hr | hr
        · exact hgood₁ r hr
        · exact hgood₂ r hr
      · exact hgood₃ r hr

/-! ## Three stations -/

/-- `%.4f` of a small whole number. -/
instance : NumberText Int where
  ofDouble n := [UInt8.ofNat (48 + n.toNat)] ++ chars ['.', '0', '0', '0', '0']
  ofFloat n := [UInt8.ofNat (48 + n.toNat)] ++ chars ['.', '0', '0', '0', '0']

/-- An accumulator with `count` samples of 7. -/
def samples (count : UInt32) : VarAvg Int where
  time := 0
  count := count
  val_avg := 7 * count.toNat
  val_cur := 7
  val_min := 7
  val_max := 7

/-- A variable of the station `szNid` on the first connection. -/
def stationVar (szNid : List Char) (count : UInt32) : ExtData Int :=
  { ExtData.zero 0 with
    bEnable := true
    szName := chars ['v']
    xUp :=
      { (ExtData.zero 0).xUp with
        bEnable := true
        xAvgUp := samples count
        szNid := some (chars szNid)
        szFid := some (chars ['w', '0', '1'])
        usDevType := 4
        usProtoType := 3 } }

/-- A connection that reports every second. -/
def stationCfg : Hjt212Cfg where
  ST := chars ['3', '2']
  PW := chars ['1', '2', '3', '4', '5', '6']
  MN := chars ['M']
  ulPeriod := 1000
  real_flag := true
  min_flag := false
  hour_flag := false
  no_min := false
  no_max := false
  no_avg := false
  no_cou := false

def stationClock : Clock where
  tick := 1000
  datatime := List.replicate 14 49
  datatime_length := rfl

/-- Station B has no sample: after A was reported the round stays in front of C for ever. -/
theorem hjt212WorkTask_hangs : ¬ ∀ (cfg : Hjt212Cfg) (index : UInt8) (clock : Clock)
    (vars : List (ExtData Int)), Terminates cfg index clock vars := by
  intro h
  have hsettles := settles_of_terminates (h stationCfg 0 stationClock
    [stationVar ['A'] 1, stationVar ['B'] 0, stationVar ['C'] 1]) .real rfl
  have hitems : Kind.real.items stationCfg 0 stationClock
      [stationVar ['A'] 1, stationVar ['B'] 0, stationVar ['C'] 1] =
        [⟨chars ['A'], true, true⟩, ⟨chars ['B'], false, true⟩, ⟨chars ['C'], true, true⟩] := rfl
  rw [hitems] at hsettles
  rcases hsettles with ⟨hquiet, -⟩ | ⟨hchain, -⟩
  · exact hquiet.2 _ List.mem_cons_self rfl
  · have hBC := (List.isChain_cons_cons.mp (List.isChain_cons_cons.mp hchain).2).1
    exact absurd (hBC ⟨by decide, by decide⟩) (by decide)

end K64Gateway.Hjt212
