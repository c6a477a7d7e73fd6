import K64Gateway.External.Mxml
import K64Gateway.Lib.Groups
import K64Gateway.VarManage.Types

/-
  The reporting round of `cc_bjdc_work_task`: the average of each variable whose period is over
  goes into a tree, and its accumulator is reset; `cc_bjdc_send_xml` then writes the tree into a
  buffer of 2048 bytes.

  Proved: exactly when the element of every variable that was reset is in the text handed to
  `cc_bjdc_send_xmlpack` (`reset_carried`).
-/

namespace K64Gateway.CcBjdc

open CString Groups Mxml VarManage

variable {R : Type}

/-! ## The tree -/

/-- A `functionex` element. -/
structure Functionex (R : Type) where
  idex : CStr
  value : R

/-- The tree of a report or reply, with the meters of its `data` element. -/
structure DataXml (R : Type) where
  building_id : CStr
  gateway_id : CStr
  sequence : Int32
  report : Bool
  time : CStr
  meters : List (Group CStr (Functionex R))

/-- `cc_bjdc_data_create_reply_or_report_head`; `time` is the date it prints. -/
def ccBjdcDataCreateReplyOrReportHead (building_id gateway_id : CStr) (sequence : Int32)
    (report : Bool) (time : CStr) : DataXml R where
  building_id := building_id
  gateway_id := gateway_id
  sequence := sequence
  report := report
  time := time
  meters := []

/-- `cc_bjdc_data_add_data`: the search meets the meters in their order. -/
def ccBjdcDataAddData (xml : DataXml R) (meter_id : CStr) (func_idex : Option CStr) (value : R) :
    DataXml R :=
  match func_idex with
  | some idex => { xml with meters := add meter_id ⟨idex, value⟩ xml.meters }
  | none => xml

/-- `?xml version="1.0" encoding="utf-8"?`; 34 is the quote. -/
def tagXml : CStr :=
  chars ['?', 'x', 'm', 'l', ' ', 'v', 'e', 'r', 's', 'i', 'o', 'n', '='] ++ [34] ++
    chars ['1', '.', '0'] ++ [34] ++
      chars [' ', 'e', 'n', 'c', 'o', 'd', 'i', 'n', 'g', '='] ++ [34] ++
        chars ['u', 't', 'f', '-', '8'] ++ [34] ++ chars ['?']
def tagRoot : CStr := chars ['r', 'o', 'o', 't']
def tagCommon : CStr := chars ['c', 'o', 'm', 'm', 'o', 'n']
def tagBuildingId : CStr := chars ['b', 'u', 'i', 'l', 'd', 'i', 'n', 'g', '_', 'i', 'd']
def tagGatewayId : CStr := chars ['g', 'a', 't', 'e', 'w', 'a', 'y', '_', 'i', 'd']
def tagType : CStr := chars ['t', 'y', 'p', 'e']
def tagData : CStr := chars ['d', 'a', 't', 'a']
def tagOperation : CStr := chars ['o', 'p', 'e', 'r', 'a', 't', 'i', 'o', 'n']
def tagSequence : CStr := chars ['s', 'e', 'q', 'u', 'e', 'n', 'c', 'e']
def tagParser : CStr := chars ['p', 'a', 'r', 's', 'e', 'r']
def tagTime : CStr := chars ['t', 'i', 'm', 'e']
def tagMeter : CStr := chars ['m', 'e', 't', 'e', 'r']
def tagId : CStr := chars ['i', 'd']
def tagFunctionex : CStr := chars ['f', 'u', 'n', 'c', 't', 'i', 'o', 'n', 'e', 'x']
def tagIdex : CStr := chars ['i', 'd', 'e', 'x']

/-- `%d` -/
def intText (n : Int32) : CStr :=
  if n < 0 then 45 :: chars (Nat.toDigits 10 n.toInt.natAbs)
  else chars (Nat.toDigits 10 n.toInt.natAbs)

def textElement (name text : CStr) : Xml := .element name [] [.text false text]

/-- `__create_common` -/
def createCommon (type building_id gateway_id : CStr) : Xml :=
  .element tagCommon []
    [textElement tagBuildingId building_id, textElement tagGatewayId gateway_id,
      textElement tagType type]

def DataXml.type (d : DataXml R) : CStr :=
  if d.report then chars ['r', 'e', 'p', 'o', 'r', 't'] else chars ['r', 'e', 'p', 'l', 'y']

/-- The children of `data` in front of the meters. -/
def DataXml.front (d : DataXml R) : List Xml :=
  [.element tagSequence [] [.number (intText d.sequence)],
    textElement tagParser (chars ['y', 'e', 's']), textElement tagTime d.time]

section

/- What `%f` prints. -/
variable (realText : R → CStr)

def functionexXml (f : Functionex R) : Xml :=
  .element tagFunctionex [(tagIdex, f.idex)] [.number (realText f.value)]

def meterXml (m : Group CStr (Functionex R)) : Xml :=
  .element tagMeter [(tagId, m.key)] (m.members.map (functionexXml realText))

def DataXml.toXml (d : DataXml R) : Xml :=
  .element tagXml []
    [.element tagRoot []
      [createCommon d.type d.building_id d.gateway_id,
        .element tagData [(tagOperation, d.type)] (d.front ++ d.meters.map (meterXml realText))]]

end

/-! ## The round -/

/-- `EXT_DATA_GET_NID`; `szId` is that of `g_host_cfg`. -/
def extDataGetNid (szId : CStr) : Option CStr → CStr
  | some (c :: nid) => c :: nid
  | _ => szId

/-- What a round finds: its connection, the interval from `lVarManage_GetExtDataUpInterval`, the
    date of the head, and `rt_tick_get` at the n-th variable, before and behind the average. -/
structure Reporting where
  index : UInt8
  building_id : CStr
  gateway_id : CStr
  szId : CStr
  up_interval : Int32
  time : CStr
  tick : Nat → UInt32
  resetTick : Nat → UInt32

/-- The three conditions before the average of the n-th variable is taken. -/
def Reporting.due (c : Reporting) (n : Nat) (node : ExtData R) : Bool :=
  decide (0 < c.up_interval) &&
    decide (rtTickFromMillisecond (c.up_interval * 1000).toUInt32 ≤
      c.tick n - node.xUp.xAvgUp.time) && decide (0 < node.xUp.xAvgUp.count)

/-- The n-th variable is one of the connection, and its average is taken. -/
def Reporting.takes (c : Reporting) (n : Nat) (node : ExtData R) : Bool :=
  isUpProto (protoDevNetType c.index) c.index.toNat protoCcBjdc node && node.xUp.bEnable &&
    c.due n node

section

variable [VarReal R]

/-- `val_avg / count` -/
def upValue (node : ExtData R) : R :=
  VarReal.div node.xUp.xAvgUp.val_avg (VarReal.ofInt node.xUp.xAvgUp.count.toNat)

def resetUp (tick : UInt32) (node : ExtData R) : ExtData R :=
  { node with
    xUp :=
      { node.xUp with
        xAvgUp :=
          { node.xUp.xAvgUp with
            val_avg := VarReal.ofInt 0
            count := 0
            time := tick } } }

/-- The head of a round, and a variable's average put behind what is in the tree. -/
def Reporting.head (c : Reporting) : DataXml R :=
  ccBjdcDataCreateReplyOrReportHead c.building_id c.gateway_id 1 true c.time

def Reporting.addNode (c : Reporting) (xml : DataXml R) (node : ExtData R) : DataXml R :=
  ccBjdcDataAddData xml (extDataGetNid c.szId node.xUp.szNid) node.xUp.szFid (upValue node)

/-- The loop over the variables, from the n-th on; `xml` is null before the first average. -/
def Reporting.loop (c : Reporting) :
    Nat → List (ExtData R) → Option (DataXml R) → List (ExtData R) × Option (DataXml R)
  | _, [], xml => ([], xml)
  | n, node :: vars, xml =>
      if c.takes n node then
        let rest := c.loop (n + 1) vars (some (c.addNode (xml.getD c.head) node))
        (resetUp (c.resetTick n) node :: rest.1, rest.2)
      else
        let rest := c.loop (n + 1) vars xml
        (node :: rest.1, rest.2)

/-- The round: the variables behind it, and the text handed to `cc_bjdc_send_xmlpack`. -/
def Reporting.round (c : Reporting) (realText : R → CStr) (vars : List (ExtData R)) :
    List (ExtData R) × Option CStr :=
  if 0 < c.up_interval ∧ c.up_interval < 180 * 60 then
    let out := c.loop 0 vars none
    (out.1, out.2.map fun xml => mxmlSaveString (xml.toXml realText) 2048)
  else (vars, none)

end

/-! ## The text up to an element -/

section

variable (realText : R → CStr)

/-- The text in front of the first meter, and its column. -/
def DataXml.frontText (d : DataXml R) : List UInt8 × Nat :=
  let xml := writeStart tagXml [] 0
  let root := writeStart tagRoot [] (xml.2 + 1)
  let common := writeNode false (root.2 + 1) (createCommon d.type d.building_id d.gateway_id)
  let data := writeStart tagData [(tagOperation, d.type)] common.2
  let front := writeNodes false (data.2 + 1) d.front
  (xml.1 ++ 62 :: (root.1 ++ 62 :: (common.1 ++ (data.1 ++ 62 :: front.1))), front.2)

/-- The text up to the last of the elements `fs` of the meter `id`, with `ms` in front of it. -/
def DataXml.textThrough (d : DataXml R) (ms : List (Group CStr (Functionex R))) (id : CStr)
    (fs : List (Functionex R)) : List UInt8 :=
  let meters := writeNodes true d.frontText.2 (ms.map (meterXml realText))
  let start := writeStart tagMeter [(tagId, id)] meters.2
  let functions := writeNodes false (start.2 + 1) (fs.map (functionexXml realText))
  d.frontText.1 ++ (meters.1 ++ (start.1 ++ 62 :: functions.1))

variable {realText}

theorem prefix_frontText (d : DataXml R) :
    d.frontText.1 ++ (writeNodes true d.frontText.2 (d.meters.map (meterXml realText))).1 <+:
      (writeNode false 0 (d.toXml realText)).1 := by
  unfold DataXml.frontText
  simp only [List.append_assoc, List.cons_append]
  apply prefix_writeNode (List.cons_ne_nil _ _)
  apply prefix_writeNodes_cons
  apply prefix_writeNode (List.cons_ne_nil _ _)
  apply (List.prefix_append_right_inj _).mpr
  apply prefix_writeNodes_cons
  apply prefix_writeNode (List.cons_ne_nil _ _)
  apply prefix_writeNodes
  exact List.prefix_rfl

theorem prefix_meters {ms ms' : List (Group CStr (Functionex R))} {id : CStr}
    {fs fs' : List (Functionex R)} (hfs : fs ≠ []) (col : Nat) :
    let meters := writeNodes true col (ms.map (meterXml realText))
    let start := writeStart tagMeter [(tagId, id)] meters.2
    let functions := writeNodes false (start.2 + 1) (fs.map (functionexXml realText))
    meters.1 ++ (start.1 ++ 62 :: functions.1) <+:
      (writeNodes true col ((ms ++ ⟨id, fs ++ fs'⟩ :: ms').map (meterXml realText))).1 := by
  rw [List.map_append, List.map_cons]
  apply prefix_writeNodes
  apply prefix_writeNodes_cons
  apply prefix_writeNode
  · rw [List.map_append]
    exact List.append_ne_nil_of_left_ne_nil (by simpa using hfs) _
  · rw [List.map_append, writeNodes_append]
    exact List.prefix_append _ _

/-- The text up to an element is a part of the whole, as far as the tree goes there. -/
theorem prefix_textThrough {d : DataXml R} {ms ms' : List (Group CStr (Functionex R))} {id : CStr}
    {fs fs' : List (Functionex R)} (hfs : fs ≠ []) (hd : d.meters = ms ++ ⟨id, fs ++ fs'⟩ :: ms') :
    d.textThrough realText ms id fs <+: fullText (d.toXml realText) := by
  have hout : (writeNode false 0 (d.toXml realText)).1 <+: fullText (d.toXml realText) := by
    unfold fullText
    dsimp only
    split
    · exact List.prefix_append _ _
    · exact List.prefix_rfl
  refine List.IsPrefix.trans ?_ ((prefix_frontText d).trans hout)
  unfold DataXml.textThrough
  rw [hd]
  exact (List.prefix_append_right_inj _).mpr (prefix_meters hfs _)

/-! ## Its length -/

/-- `<functionex idex="...">...</functionex>` -/
def functionexLength (realText : R → CStr) (f : Functionex R) : Nat :=
  33 + (writeString f.idex).length + (writeString (realText f.value)).length

/-- `<meter id="..."></meter>` -/
def meterLength (id : CStr) : Nat := 21 + (writeString id).length

/-- The text in front of the first meter. -/
def DataXml.frontLength (d : DataXml R) : Nat :=
  199 + (2 * (writeString d.type).length + (writeString (intText d.sequence)).length) +
    ((writeString d.building_id).length + (writeString d.gateway_id).length +
      (writeString d.time).length)

theorem length_textElement {name : CStr} (hname : special name = false) (text : CStr) (prev : Bool)
    (col : Nat) : (writeNode prev col (textElement name text)).1.length =
      (writeName name).length + (writeString name).length + 5 + (writeString text).length := by
  unfold textElement
  rw [length_writeNode (n := (writeString text).length) (List.cons_ne_nil _ _) hname]
  · rfl
  · intro col
    simp [writeNodes, writeNode]

theorem length_functionexXml (f : Functionex R) (prev : Bool) (col : Nat) :
    (writeNode prev col (functionexXml realText f)).1.length = functionexLength realText f := by
  unfold functionexXml functionexLength
  rw [length_writeNode (n := (writeString (realText f.value)).length) (List.cons_ne_nil _ _) rfl]
  · have htag : (writeName tagFunctionex).length + (writeString tagFunctionex).length = 20 := rfl
    have hidex : (writeName tagIdex).length = 4 := rfl
    simp only [List.map_cons, List.map_nil, List.sum_cons, List.sum_nil, attrLength, hidex]
    omega
  · intro col
    simp [writeNodes, writeNode]

theorem length_functionexs (fs : List (Functionex R)) (prev : Bool) (col : Nat) :
    (writeNodes prev col (fs.map (functionexXml realText))).1.length =
      (fs.map (functionexLength realText)).sum :=
  length_writeNodes (fun f _ => length_functionexXml f) prev col

theorem length_meterStart (id : CStr) (col : Nat) :
    (writeStart tagMeter [(tagId, id)] col).1.length = (writeString id).length + 12 := by
  rw [length_writeStart]
  have htag : (writeName tagMeter).length = 5 := rfl
  have hid : (writeName tagId).length = 2 := rfl
  simp only [List.map_cons, List.map_nil, List.sum_cons, List.sum_nil, attrLength, htag, hid]
  omega

theorem length_meterXml {m : Group CStr (Functionex R)} (h : m.members ≠ []) (prev : Bool)
    (col : Nat) : (writeNode prev col (meterXml realText m)).1.length =
      meterLength m.key + (m.members.map (functionexLength realText)).sum := by
  unfold meterXml meterLength
  rw [writeNode_element (by simpa using h) rfl]
  have htag : (endTag tagMeter).length = 8 := rfl
  simp only [List.length_append, List.length_cons, length_meterStart, length_functionexs, htag]
  omega

theorem length_createCommon (type building_id gateway_id : CStr) (prev : Bool) (col : Nat) :
    (writeNode prev col (createCommon type building_id gateway_id)).1.length =
      82 + (writeString building_id).length + (writeString gateway_id).length +
        (writeString type).length := by
  have hbuilding : (writeName tagBuildingId).length + (writeString tagBuildingId).length = 22 := rfl
  have hgateway : (writeName tagGatewayId).length + (writeString tagGatewayId).length = 20 := rfl
  have htype : (writeName tagType).length + (writeString tagType).length = 8 := rfl
  have htag : (writeName tagCommon).length + (writeString tagCommon).length = 12 := rfl
  unfold createCommon
  rw [length_writeNode (n := 27 + (writeString building_id).length +
    (25 + (writeString gateway_id).length) + (13 + (writeString type).length))
      (List.cons_ne_nil _ _) rfl]
  · rw [htag, List.map_nil, List.sum_nil]
    omega
  · intro col
    simp only [writeNodes, List.length_append, List.length_nil]
    rw [length_textElement rfl, length_textElement rfl, length_textElement rfl]
    omega

theorem length_front (d : DataXml R) (prev : Bool) (col : Nat) :
    (writeNodes prev col d.front).1.length =
      54 + (writeString (intText d.sequence)).length + (writeString d.time).length := by
  have hsequence : (writeName tagSequence).length + (writeString tagSequence).length = 16 := rfl
  have hparser : (writeName tagParser).length + (writeString tagParser).length = 12 := rfl
  have hyes : (writeString (chars ['y', 'e', 's'])).length = 3 := rfl
  have htime : (writeName tagTime).length + (writeString tagTime).length = 8 := rfl
  unfold DataXml.front
  simp only [writeNodes, List.length_append, List.length_nil]
  rw [length_textElement rfl, length_textElement rfl, hparser, hyes, htime,
    length_writeNode (n := (writeString (intText d.sequence)).length) (List.cons_ne_nil _ _) rfl,
    hsequence, List.map_nil, List.sum_nil]
  · omega
  · intro col
    simp [writeNodes, writeNode]

theorem length_frontText (d : DataXml R) : d.frontText.1.length = d.frontLength := by
  have hxml : (writeName tagXml).length = 36 := rfl
  have hroot : (writeName tagRoot).length = 4 := rfl
  have hdata : (writeName tagData).length = 4 := rfl
  have hoperation : (writeName tagOperation).length = 9 := rfl
  unfold DataXml.frontText DataXml.frontLength
  simp only [List.length_append, List.length_cons, length_writeStart, length_createCommon,
    length_front, List.map_cons, List.map_nil, List.sum_cons, List.sum_nil, attrLength, hxml,
    hroot, hdata, hoperation]
  omega

/-- The text up to an element is as long as what is in it, whatever the columns are. -/
theorem length_textThrough (d : DataXml R) {ms : List (Group CStr (Functionex R))}
    (hms : ∀ m ∈ ms, m.members ≠ []) (id : CStr) (fs : List (Functionex R)) :
    (d.textThrough realText ms id fs).length + 8 = d.frontLength +
      (ms.map fun m => meterLength m.key + (m.members.map (functionexLength realText)).sum).sum +
        (meterLength id + (fs.map (functionexLength realText)).sum) := by
  unfold DataXml.textThrough meterLength
  simp only [List.length_append, List.length_cons, length_frontText, length_functionexs,
    length_meterStart, length_writeNodes fun m hm => length_meterXml (hms m hm), meterLength]
  omega

end

/-! ## The variables of a round -/

/-- The variables, from the n-th on, whose averages are taken. -/
def Reporting.taken (c : Reporting) : Nat → List (ExtData R) → List (ExtData R)
  | _, [] => []
  | n, node :: vars =>
      if c.takes n node then node :: c.taken (n + 1) vars else c.taken (n + 1) vars

theorem taken_split (c : Reporting) {node : ExtData R} (back : List (ExtData R)) :
    ∀ {front : List (ExtData R)} {n : Nat}, c.takes (n + front.length) node = true →
      c.taken n (front ++ node :: back) =
        c.taken n front ++ node :: c.taken (n + front.length + 1) back
  | [], n, h => by
      rw [List.length_nil, Nat.add_zero] at h ⊢
      have hnil : c.taken n ([] : List (ExtData R)) = [] := rfl
      rw [hnil, List.nil_append, List.nil_append, Reporting.taken, if_pos h]
  | v :: front, n, h => by
      have hn : n + (v :: front).length = n + 1 + front.length := by
        rw [List.length_cons]
        omega
      rw [hn] at h ⊢
      rw [List.cons_append, Reporting.taken, Reporting.taken, taken_split c back h]
      split <;> rfl

theorem exists_of_taken (c : Reporting) {node : ExtData R} :
    ∀ {vars pre post : List (ExtData R)} {n : Nat}, c.taken n vars = pre ++ node :: post →
      ∃ front back, vars = front ++ node :: back ∧ c.takes (n + front.length) node = true ∧
        c.taken n front = pre
  | [], pre, post, n, h => by
      rw [Reporting.taken] at h
      exact absurd h.symm (by simp)
  | v :: vars, pre, post, n, h => by
      rw [Reporting.taken] at h
      split at h
      · rename_i hv
        cases pre with
        | nil =>
          obtain ⟨rfl, -⟩ := List.cons_eq_cons.mp h
          exact ⟨[], vars, rfl, hv, rfl⟩
        | cons u pre =>
          rw [List.cons_append] at h
          obtain ⟨rfl, htail⟩ := List.cons_eq_cons.mp h
          obtain ⟨front, back, rfl, htakes, htaken⟩ := exists_of_taken c htail
          refine ⟨v :: front, back, rfl, ?_, ?_⟩
          · rw [List.length_cons, show n + (front.length + 1) = n + 1 + front.length by omega]
            exact htakes
          · rw [Reporting.taken, if_pos hv, htaken]
      · rename_i hv
        obtain ⟨front, back, rfl, htakes, htaken⟩ := exists_of_taken c h
        refine ⟨v :: front, back, rfl, ?_, ?_⟩
        · rw [List.length_cons, show n + (front.length + 1) = n + 1 + front.length by omega]
          exact htakes
        · rw [Reporting.taken, if_neg hv, htaken]

section

variable [VarReal R]

/-- Their elements, each with the meter it belongs to. -/
def Reporting.items (c : Reporting) (nodes : List (ExtData R)) : List (CStr × Functionex R) :=
  nodes.filterMap fun node => node.xUp.szFid.map fun fid =>
    (extDataGetNid c.szId node.xUp.szNid, ⟨fid, upValue node⟩)

/-- The tree with these elements. -/
def Reporting.tree (c : Reporting) (items : List (CStr × Functionex R)) : DataXml R :=
  { (c.head : DataXml R) with meters := groups items }

theorem loop_getElem? (c : Reporting) (vars : List (ExtData R)) : ∀ (n i : Nat)
    (xml : Option (DataXml R)), (c.loop n vars xml).1[i]? =
      vars[i]?.map fun node =>
        if c.takes (n + i) node then resetUp (c.resetTick (n + i)) node else node := by
  induction vars with
  | nil => exact fun _ _ _ => rfl
  | cons node vars ih =>
    intro n i xml
    rw [Reporting.loop]
    cases i with
    | zero => split <;> simp [*]
    | succ i =>
      rw [List.getElem?_cons_succ, show n + (i + 1) = n + 1 + i by omega]
      split
      · exact ih (n + 1) i _
      · exact ih (n + 1) i _

theorem loop_xml_some (c : Reporting) (vars : List (ExtData R)) : ∀ (n : Nat) (d : DataXml R),
    (c.loop n vars (some d)).2 = some ((c.taken n vars).foldl c.addNode d) := by
  induction vars with
  | nil => exact fun _ _ => rfl
  | cons node vars ih =>
    intro n d
    rw [Reporting.loop, Reporting.taken]
    split
    · exact ih (n + 1) _
    · exact ih (n + 1) d

theorem loop_xml (c : Reporting) (vars : List (ExtData R)) : ∀ n : Nat,
    (c.loop n vars none).2 = if (c.taken n vars).isEmpty then none
      else some ((c.taken n vars).foldl c.addNode c.head) := by
  induction vars with
  | nil => exact fun _ => rfl
  | cons node vars ih =>
    intro n
    rw [Reporting.loop, Reporting.taken]
    split
    · exact loop_xml_some c vars (n + 1) _
    · exact ih (n + 1)

/-- The meters of the tree are the groups of the elements. -/
theorem foldl_addNode (c : Reporting) (nodes : List (ExtData R)) :
    nodes.foldl c.addNode c.head = c.tree (c.items nodes) := by
  induction nodes using List.reverseRecOn with
  | nil => rfl
  | append_singleton nodes node ih =>
    have happ : c.items (nodes ++ [node]) = c.items nodes ++ c.items [node] :=
      List.filterMap_append
    rw [List.foldl_append, ih, List.foldl_cons, List.foldl_nil, Reporting.addNode, happ]
    unfold ccBjdcDataAddData
    split
    · rename_i fid hfid
      have hitems : c.items [node] =
          [(extDataGetNid c.szId node.xUp.szNid, ⟨fid, upValue node⟩)] := by
        simp [Reporting.items, hfid]
      rw [hitems]
      unfold Reporting.tree
      rw [groups_append_singleton]
    · rename_i hfid
      have hitems : c.items [node] = [] := by simp [Reporting.items, hfid]
      rw [hitems, List.append_nil]

/-! ## What is reset is carried -/

/-- The round reset the accumulator of the i-th variable. -/
def WasReset (before after : List (ExtData R)) (i : Nat) : Prop :=
  ∃ node node', before[i]? = some node ∧ after[i]? = some node' ∧
    node'.xUp.xAvgUp.count ≠ node.xUp.xAvgUp.count

/-- The element of the i-th variable is whole in the text: it stands in the meter with its id,
    behind the elements of the variables before it. -/
def Reporting.Carried (c : Reporting) (realText : R → CStr) (vars : List (ExtData R)) (i : Nat)
    (text : CStr) : Prop :=
  ∃ node idex d ms earlier fs ms', vars[i]? = some node ∧ node.xUp.szFid = some idex ∧
    (c.loop 0 vars none).2 = some d ∧
      earlier = valuesOf (extDataGetNid c.szId node.xUp.szNid)
        (c.items (c.taken 0 (vars.take i))) ∧
      d.meters = ms ++ ⟨extDataGetNid c.szId node.xUp.szNid,
        earlier ++ ⟨idex, upValue node⟩ :: fs⟩ :: ms' ∧
      d.textThrough realText ms (extDataGetNid c.szId node.xUp.szNid)
        (earlier ++ [⟨idex, upValue node⟩]) <+: text

/-- The variables that the round resets. -/
def Reporting.resets (c : Reporting) (vars : List (ExtData R)) : List (ExtData R) :=
  if 0 < c.up_interval ∧ c.up_interval < 180 * 60 then c.taken 0 vars else []

/-- The length of the text up to the last meter's end. -/
def Reporting.textLength (c : Reporting) (realText : R → CStr) (nodes : List (ExtData R)) : Nat :=
  (c.head : DataXml R).frontLength +
    ((((c.items nodes).map Prod.fst).dedup.map meterLength).sum +
      ((c.items nodes).map fun item => functionexLength realText item.2).sum)

theorem wasReset_iff (c : Reporting) (realText : R → CStr) (vars : List (ExtData R)) (i : Nat) :
    WasReset vars (c.round realText vars).1 i ↔
      (0 < c.up_interval ∧ c.up_interval < 180 * 60) ∧
        ∃ node, vars[i]? = some node ∧ c.takes i node = true := by
  unfold WasReset Reporting.round
  by_cases hup : 0 < c.up_interval ∧ c.up_interval < 180 * 60
  · rw [if_pos hup, and_iff_right hup]
    dsimp only
    rw [loop_getElem?, Nat.zero_add]
    constructor
    · rintro ⟨node, node', hnode, hnode', hne⟩
      refine ⟨node, hnode, ?_⟩
      rw [hnode, Option.map_some] at hnode'
      by_contra htakes
      rw [if_neg htakes] at hnode'
      exact hne (by rw [Option.some.inj hnode'])
    · rintro ⟨node, hnode, htakes⟩
      rw [hnode, Option.map_some, if_pos htakes]
      refine ⟨node, _, rfl, rfl, ?_⟩
      have hcount : 0 < node.xUp.xAvgUp.count := by
        simp only [Reporting.takes, Reporting.due, Bool.and_eq_true, decide_eq_true_eq] at htakes
        exact htakes.2.2
      intro heq
      rw [← heq] at hcount
      exact absurd (show (0 : UInt32) < 0 from hcount) (by decide)
  · rw [if_neg hup]
    constructor
    · rintro ⟨node, node', hnode, hnode', hne⟩
      rw [hnode] at hnode'
      exact absurd (by rw [Option.some.inj hnode']) hne
    · exact fun h => absurd h.1 hup

/-- A text that ends with the last element that was put in is as long as the whole, but for the
    end of its meter. -/
theorem length_through_tree (c : Reporting) (realText : R → CStr) (nodes : List (ExtData R))
    {ms : List (Group CStr (Functionex R))} {id : CStr} {fs fs' : List (Functionex R)}
    {ms' : List (Group CStr (Functionex R))}
    (h : groups (c.items nodes) = ms ++ ⟨id, fs ++ fs'⟩ :: ms') :
    ((c.tree (c.items nodes)).textThrough realText ms id fs).length + 8 +
      ((fs'.map (functionexLength realText)).sum +
        (ms'.map fun m => meterLength m.key +
          (m.members.map (functionexLength realText)).sum).sum) = c.textLength realText nodes := by
  have hms : ∀ m ∈ ms, m.members ≠ [] := by
    intro m hm
    have hmem : m ∈ groups (c.items nodes) := by
      rw [h]
      exact List.mem_append_left _ hm
    exact members_ne_nil hmem
  unfold Reporting.textLength
  rw [← sum_groups, h, length_textThrough _ hms, List.map_append, List.sum_append, List.map_cons,
    List.sum_cons, List.map_append, List.sum_append]
  have hfront : (c.tree (c.items nodes)).frontLength = (c.head : DataXml R).frontLength := rfl
  rw [hfront]
  dsimp only
  omega

theorem items_append (c : Reporting) (xs ys : List (ExtData R)) :
    c.items (xs ++ ys) = c.items xs ++ c.items ys := List.filterMap_append

theorem items_cons (c : Reporting) {node : ExtData R} {fid : CStr}
    (hfid : node.xUp.szFid = some fid) (nodes : List (ExtData R)) :
    c.items (node :: nodes) =
      (extDataGetNid c.szId node.xUp.szNid, ⟨fid, upValue node⟩) :: c.items nodes := by
  simp [Reporting.items, hfid]

/-- The last element of the tree belongs to a variable that was reset. -/
theorem exists_last_taken (c : Reporting) {vars : List (ExtData R)}
    (h : c.items (c.taken 0 vars) ≠ []) : ∃ i node fid front,
      vars[i]? = some node ∧ c.takes i node = true ∧ node.xUp.szFid = some fid ∧
        groups (c.items (c.taken 0 vars)) =
          front ++ [⟨extDataGetNid c.szId node.xUp.szNid,
            valuesOf (extDataGetNid c.szId node.xUp.szNid)
              (c.items (c.taken 0 (vars.take i))) ++ [⟨fid, upValue node⟩]⟩] := by
  obtain ⟨pre, key, a, post, front, hitems, hlast⟩ := groups_last h
  obtain ⟨xs, ys, htaken, hxs, hys⟩ := List.filterMap_eq_append_iff.mp hitems
  obtain ⟨zs, node, ws, rfl, hzs, hnode, hws⟩ := List.filterMap_eq_cons_iff.mp hys
  obtain ⟨fid, hfid, hitem⟩ := Option.map_eq_some_iff.mp hnode
  obtain ⟨rfl, rfl⟩ := Prod.mk.inj hitem
  rw [← List.append_assoc] at htaken
  obtain ⟨u, v, rfl, htakes, hu⟩ := exists_of_taken c htaken
  rw [Nat.zero_add] at htakes
  refine ⟨u.length, node, fid, front, by simp, htakes, hfid, ?_⟩
  have hpre : c.items (c.taken 0 u) = pre := by
    rw [hu, items_append, ← hxs]
    have hzs' : c.items zs = [] := List.filterMap_eq_nil_iff.mpr hzs
    rw [hzs', List.append_nil]
    rfl
  rw [List.take_left, hpre]
  exact hlast

theorem length_of_round (c : Reporting) (realText : R → CStr) (vars : List (ExtData R))
    {text : CStr} (h : (c.round realText vars).2 = some text) : text.length ≤ 2047 := by
  unfold Reporting.round at h
  split at h
  · obtain ⟨xml, -, rfl⟩ := Option.map_eq_some_iff.mp h
    unfold mxmlSaveString
    rw [List.length_take]
    exact Nat.min_le_left _ _
  · exact absurd h (Option.some_ne_none text).symm

omit [VarReal R] in
theorem exists_split_of_getElem? {vars : List (ExtData R)} {i : Nat} {node : ExtData R}
    (h : vars[i]? = some node) :
    ∃ back, vars = vars.take i ++ node :: back ∧ (vars.take i).length = i := by
  obtain ⟨hi, hget⟩ := List.getElem?_eq_some_iff.mp h
  refine ⟨vars.drop (i + 1), ?_, List.length_take_of_le hi.le⟩
  rw [← hget, List.getElem_cons_drop, List.take_append_drop]

/-- What is reset is in the text only if the whole tree is. -/
theorem textLength_of_carried (c : Reporting) (realText : R → CStr) (vars : List (ExtData R))
    (h : ∀ i, WasReset vars (c.round realText vars).1 i →
      ∃ text, (c.round realText vars).2 = some text ∧ c.Carried realText vars i text) :
    (∀ node ∈ c.resets vars, node.xUp.szFid ≠ none) ∧
      (c.resets vars = [] ∨ c.textLength realText (c.resets vars) ≤ 2055) := by
  unfold Reporting.resets
  by_cases hup : 0 < c.up_interval ∧ c.up_interval < 180 * 60
  · rw [if_pos hup]
    have hcarried : ∀ i node, vars[i]? = some node → c.takes i node = true →
        ∃ text, (c.round realText vars).2 = some text ∧ c.Carried realText vars i text :=
      fun i node hnode htakes => h i ((wasReset_iff c realText vars i).mpr ⟨hup, node, hnode, htakes⟩)
    have hfid : ∀ node ∈ c.taken 0 vars, node.xUp.szFid ≠ none := by
      intro node hmem
      obtain ⟨pre, post, hsplit⟩ := List.append_of_mem hmem
      obtain ⟨front, back, rfl, htakes, -⟩ := exists_of_taken c hsplit
      rw [Nat.zero_add] at htakes
      obtain ⟨_, _, node', idex, _, _, _, _, _, hnode', hidex, _⟩ :=
        hcarried front.length node (by simp) htakes
      have heq : node = node' := by simpa using hnode'
      rw [heq, hidex]
      exact Option.some_ne_none idex
    refine ⟨hfid, ?_⟩
    rw [or_iff_not_imp_left]
    intro hne
    have hitems : c.items (c.taken 0 vars) ≠ [] := by
      obtain ⟨node, nodes, hnodes⟩ := List.exists_cons_of_ne_nil hne
      rw [hnodes] at hfid ⊢
      obtain ⟨fid, hsome⟩ := Option.ne_none_iff_exists'.mp (hfid node List.mem_cons_self)
      rw [items_cons c hsome]
      exact List.cons_ne_nil _ _
    obtain ⟨i, node, fid, front, hnode, htakes, hidex, hlast⟩ := exists_last_taken c hitems
    obtain ⟨text, htext, node', idex, d, ms, earlier, fs, ms', hnode', hidex', hd, rfl, hmeters,
      hprefix⟩ := hcarried i node hnode htakes
    obtain rfl : node = node' := Option.some.inj (hnode.symm.trans hnode')
    obtain rfl : fid = idex := Option.some.inj (hidex.symm.trans hidex')
    have htree : d = c.tree (c.items (c.taken 0 vars)) := by
      rw [loop_xml, if_neg (by simpa using hne), foldl_addNode] at hd
      exact (Option.some.inj hd).symm
    subst htree
    -- the place of the last element among the groups is the one that is in the text
    have hplace := split_unique (hlast ▸ nodup_keys_groups (c.items (c.taken 0 vars)))
      (by rfl) (hlast.symm.trans hmeters)
    obtain ⟨rfl, -, -⟩ := hplace
    have hend : groups (c.items (c.taken 0 vars)) =
        front ++ ⟨extDataGetNid c.szId node.xUp.szNid,
          valuesOf (extDataGetNid c.szId node.xUp.szNid) (c.items (c.taken 0 (vars.take i))) ++
            [⟨fid, upValue node⟩] ++ []⟩ :: [] := by
      rw [List.append_nil]
      exact hlast
    have hlen := length_through_tree c realText (c.taken 0 vars) hend
    have hle := hprefix.length_le
    have hcut := length_of_round c realText vars htext
    simp only [List.map_nil, List.sum_nil] at hlen
    omega
  · rw [if_neg hup]
    exact ⟨fun node hmem => absurd hmem List.not_mem_nil, Or.inl rfl⟩

/-- Where the whole tree is in the text, each variable that was reset is. -/
theorem carried_of_textLength (c : Reporting) (realText : R → CStr) (vars : List (ExtData R))
    (hfid : ∀ node ∈ c.resets vars, node.xUp.szFid ≠ none)
    (hlen : c.resets vars = [] ∨ c.textLength realText (c.resets vars) ≤ 2055) (i : Nat)
    (h : WasReset vars (c.round realText vars).1 i) :
    ∃ text, (c.round realText vars).2 = some text ∧ c.Carried realText vars i text := by
  obtain ⟨hup, node, hnode, htakes⟩ := (wasReset_iff c realText vars i).mp h
  unfold Reporting.resets at hfid hlen
  rw [if_pos hup] at hfid hlen
  obtain ⟨back, hvars, hi⟩ := exists_split_of_getElem? hnode
  have htaken : c.taken 0 vars =
      c.taken 0 (vars.take i) ++ node :: c.taken (0 + (vars.take i).length + 1) back := by
    nth_rewrite 1 [hvars]
    apply taken_split
    rw [hi, Nat.zero_add]
    exact htakes
  have hmem : node ∈ c.taken 0 vars := by
    rw [htaken]
    exact List.mem_append_right _ List.mem_cons_self
  have hne : c.taken 0 vars ≠ [] := List.ne_nil_of_mem hmem
  obtain ⟨idex, hidex⟩ := Option.ne_none_iff_exists'.mp (hfid node hmem)
  have hitems := congrArg c.items htaken
  rw [items_append, items_cons c hidex] at hitems
  obtain ⟨ms, ms', hgroups⟩ := groups_split hitems
  have hxml : (c.loop 0 vars none).2 = some (c.tree (c.items (c.taken 0 vars))) := by
    rw [loop_xml, if_neg (by simpa using hne), foldl_addNode]
  refine ⟨mxmlSaveString ((c.tree (c.items (c.taken 0 vars))).toXml realText) 2048, ?_, node, idex,
    _, ms, _, _, ms', hnode, hidex, hxml, rfl, hgroups, ?_⟩
  · unfold Reporting.round
    rw [if_pos hup]
    dsimp only
    rw [hxml, Option.map_some]
  · rw [List.append_cons (α := Functionex R)] at hgroups
    have hwhole := length_through_tree c realText (c.taken 0 vars) hgroups
    have hlen := hlen.resolve_left hne
    apply (prefix_mxmlSaveString_iff (prefix_textThrough (by simp) hgroups)).mpr
    omega

/-- Every variable whose accumulator the round resets has its element in the text if and only if
    each has a function id and the text of all of them fits in 2047 characters. -/
theorem reset_carried (c : Reporting) (realText : R → CStr) (vars : List (ExtData R)) :
    (∀ i, WasReset vars (c.round realText vars).1 i →
      ∃ text, (c.round realText vars).2 = some text ∧ c.Carried realText vars i text) ↔
    (∀ node ∈ c.resets vars, node.xUp.szFid ≠ none) ∧
      (c.resets vars = [] ∨ c.textLength realText (c.resets vars) ≤ 2055) :=
  ⟨textLength_of_carried c realText vars,
    fun h => carried_of_textLength c realText vars h.1 h.2⟩

end

/-! ## Fifty variables -/

/-- `%f` of a small whole number. -/
def wholeText (n : Int) : CStr :=
  chars (Nat.toDigits 10 n.natAbs) ++ chars ['.', '0', '0', '0', '0', '0', '0']

/-- The variable "v00", "v01" and so on of the first connection, with one sample of 7. -/
def reportedVar (k : Nat) : ExtData Int :=
  { ExtData.zero 0 with
    bEnable := true
    szName := [118, UInt8.ofNat (48 + k / 10), UInt8.ofNat (48 + k % 10)]
    xUp :=
      { (ExtData.zero 0).xUp with
        bEnable := true
        xAvgUp :=
          { VarAvg.zero 0 with
            count := 1
            val_avg := 7 }
        szNid := some (chars ['m', '1'])
        szFid := some [UInt8.ofNat (48 + k / 10), UInt8.ofNat (48 + k % 10)]
        usDevType := 4
        usProtoType := 1 } }

/-- A round of the first connection a minute after the start. -/
def minuteRound : Reporting where
  index := 0
  building_id := chars ['1', '1', '0', '1', '0', '1', 'A', '0', '0', '1']
  gateway_id := chars ['0', '1']
  szId := chars ['K', '6', '4']
  up_interval := 60
  time := List.replicate 14 49
  tick _ := 60000
  resetTick _ := 60000

/-- The elements of fifty variables do not fit in the buffer. -/
theorem fifty_not_carried : ¬ ∀ (c : Reporting) (realText : Int → CStr) (vars : List (ExtData Int))
    (i : Nat), WasReset vars (c.round realText vars).1 i →
      ∃ text, (c.round realText vars).2 = some text ∧ c.Carried realText vars i text := by
  intro h
  obtain ⟨-, hlen⟩ := textLength_of_carried minuteRound wholeText ((List.range 50).map reportedVar)
    (h minuteRound wholeText ((List.range 50).map reportedVar))
  have hnodes : minuteRound.resets ((List.range 50).map reportedVar) =
      (List.range 50).map reportedVar := rfl
  rw [hnodes] at hlen
  rcases hlen with hnil | hle
  · exact absurd hnil (by simp)
  · have hlong : 2055 < minuteRound.textLength wholeText ((List.range 50).map reportedVar) := by
      decide +kernel
    omega

end K64Gateway.CcBjdc
