import K64Gateway.Sdccp.Hjt212Report

/-
  What a round of uploads delivers. A round calls a report function with a null resume pointer,
  and again with the pointer it left until that is null.

  Proved: exactly when every ready variable of the connection gets into one frame of the round,
  with its own node id, and is reset (`report_once`). A break in front of which nothing is ready
  ends the round at its first call, with the rest of the variables not reported.
-/

namespace K64Gateway.Hjt212

open CString VarManage Resume

variable {R : Type} [VarReal R] [NumberText R] (cfg : Hjt212Cfg) (index : UInt8) (clock : Clock)

/-! ## Rounds -/

/-- The variables whose texts a call puts into its frame. -/
def takenBy (kind : Kind) (vars : List (ExtData R)) (ppnode : Option Nat) : List (Placed R) :=
  match scan cfg clock kind (conn index vars (startAt ppnode)) ⟨vars, ppnode, [], [], true⟩ with
  | none => []
  | some (_, taken) => taken

/-- A call of a report function, with the variables of its frame. -/
structure Call (R : Type) where
  report : Report R
  taken : List (Placed R)

/-- The calls of a round that comes to an end. -/
inductive Round (kind : Kind) :
    List (ExtData R) → Option Nat → List (ExtData R) → List (Call R) → Prop where
  | last {vars : List (ExtData R)} {ppnode : Option Nat} {r : Report R}
      (call : reportData cfg index clock kind vars ppnode = some r) (done : r.ppnode = none) :
      Round kind vars ppnode r.vars [⟨r, takenBy cfg index clock kind vars ppnode⟩]
  | more {vars vars' : List (ExtData R)} {ppnode : Option Nat} {r : Report R} {i : Nat}
      {calls : List (Call R)} (call : reportData cfg index clock kind vars ppnode = some r)
      (next : r.ppnode = some i) (rest : Round kind r.vars (some i) vars' calls) :
      Round kind vars ppnode vars' (⟨r, takenBy cfg index clock kind vars ppnode⟩ :: calls)

/-- The frame of a report with the node id `nid` and the texts `text`. -/
def reportFrame (kind : Kind) (nid : CStr) (text : List UInt8) : List UInt8 :=
  frameOf (encodeField tagST 5 (some cfg.ST) ++ encodeField tagCN 4 (some kind.CN) ++
    encodeField tagPW 6 (some cfg.PW) ++ (tagMN ++ nid ++ [semicolon]) ++
      encodeCP (some text.dropLast))

/-- The call sends the texts of what it takes under the node id of each of them, and nothing if
    it takes nothing. -/
def Call.Carries (kind : Kind) (c : Call R) : Prop :=
  (c.taken = [] → c.report.sent = none) ∧
    ∀ p ∈ c.taken, ∃ text, cpText cfg clock kind true c.taken = some text ∧
      c.report.sent = some (reportFrame cfg kind (nidOf cfg p.1) text)

/-- A round comes to an end; its frames carry the ready variables of the connection, each once
    and no others; and those and no others are reset. -/
def ReportsOnce (kind : Kind) (vars : List (ExtData R)) : Prop :=
  ∃ vars' calls, Round cfg index clock kind vars none vars' calls ∧
    (∀ c ∈ calls, c.Carries cfg clock kind) ∧
    calls.flatMap Call.taken = kind.readyOf cfg clock (conn index vars 0) ∧
    ∀ i, vars'[i]? = if i ∈ (calls.flatMap Call.taken).map Prod.snd then
      vars[i]?.map (kind.reset clock) else vars[i]?

/-- The condition on the items of the connection. Either everything in front of a break is
    ready, the texts fit, a node id that is reported fits its field, and no ready item with an
    empty node id is in front of one with a node id; or there is a break, and nothing is ready
    at all. -/
def Delivers (l : List Item) : Prop :=
  (Chained Item.apart (fun a => a.ready = true) l ∧ (∀ a ∈ l, a.fits = true) ∧
      (∀ a ∈ l, a.ready = true → a.nid.length ≤ 14) ∧
      l.Pairwise fun a b => a.ready = true → a.nid = [] → b.nid = []) ∨
    ((∀ a ∈ l, a.ready = false) ∧ group Item.apart l ≠ l ∧
      ∀ a ∈ group Item.apart l, a.fits = true)

variable {cfg index clock}

theorem round_of_reportWhile {kind : Kind} {fuel : Nat} {vars vars' : List (ExtData R)}
    {node : Option Nat} {rs : List (Report R)}
    (h : reportWhile (reportData cfg index clock kind) fuel vars node = some (vars', rs)) :
    ∃ calls, Round cfg index clock kind vars node vars' calls ∧ calls.map Call.report = rs := by
  induction fuel generalizing vars node rs with
  | zero => exact absurd h (by simp [reportWhile])
  | succ fuel ih =>
    rw [reportWhile] at h
    obtain ⟨r, hr, h⟩ := Option.bind_eq_some_iff.mp h
    split at h
    · next hnone =>
      obtain ⟨rfl, rfl⟩ := Prod.mk.inj (Option.some.inj h)
      exact ⟨_, .last hr hnone, rfl⟩
    · next i hsome =>
      obtain ⟨⟨v, cs⟩, hrest, h⟩ := Option.bind_eq_some_iff.mp h
      obtain ⟨rfl, rfl⟩ := Prod.mk.inj (Option.some.inj h)
      obtain ⟨calls, hround, rfl⟩ := ih hrest
      exact ⟨_, .more hr hsome hround, rfl⟩

theorem reportWhile_of_round {kind : Kind} {vars vars' : List (ExtData R)} {node : Option Nat}
    {calls : List (Call R)} (h : Round cfg index clock kind vars node vars' calls) :
    ∃ fuel, reportWhile (reportData cfg index clock kind) fuel vars node =
      some (vars', calls.map Call.report) := by
  induction h with
  | last call done =>
    refine ⟨1, ?_⟩
    rw [reportWhile, call, Option.bind_eq_bind, Option.bind_some, done]
    rfl
  | more call next rest ih =>
    obtain ⟨fuel, hfuel⟩ := ih
    refine ⟨fuel + 1, ?_⟩
    rw [reportWhile, call, Option.bind_eq_bind, Option.bind_some, next]
    dsimp only
    rw [hfuel]
    rfl

/-! ## The node id of a frame -/

theorem frameOf_inj {d d' : List UInt8} (h : frameOf d = frameOf d') : d = d' := by
  have hlen (d : List UInt8) : (frameOf d).length = d.length + 12 := by
    unfold frameOf
    simp only [List.length_append, length_usCheck]
    have h1 : hjt212Pre.length = 2 := rfl
    have h2 : hjt212Eom.length = 2 := rfl
    have h3 : (encodeLen d.length).length = 4 := rfl
    omega
  have hd : d.length = d'.length := by
    have := congrArg List.length h
    rw [hlen, hlen] at this
    omega
  unfold frameOf at h
  have h1 := List.append_inj_left' h rfl
  have h2 := List.append_inj_left' h1 (by rw [length_usCheck, length_usCheck])
  exact List.append_inj_right' h2 hd

theorem reportFrame_inj {kind : Kind} {nid nid' : CStr} {text : List UInt8}
    (h : reportFrame cfg kind nid text = reportFrame cfg kind nid' text) : nid = nid' := by
  have hdata := List.append_cancel_right (frameOf_inj h)
  have hfield := List.append_cancel_left hdata
  exact List.append_cancel_left (List.append_cancel_right hfield)

/-- `Hjt212Encode` makes the frame with the node id cut at 14 bytes. -/
theorem hjt212Encode_report (kind : Kind) {mynid : CStr} (hnul : (0 : UInt8) ∉ mynid)
    (text : List UInt8) :
    hjt212Encode
        { QN := none
          ST := some cfg.ST
          CN := some kind.CN
          PW := some cfg.PW
          MN := some mynid
          Flag := none
          CP := some text.dropLast } = reportFrame cfg kind (mynid.take 14) text := by
  have hcstr : cstr mynid = mynid := cstr_of_not_mem hnul
  show frameOf _ = frameOf _
  congr 1
  unfold encodeData encodeFlag
  rw [show encodeField tagMN 14 (some mynid) = tagMN ++ mynid.take 14 ++ [semicolon] by
    rw [encodeField, hcstr]]
  simp [encodeField]

/-! ## The node id of a call -/

theorem scan_mynid_mem {kind : Kind} {l : List (Placed R)} {b b' : Batch R}
    {taken : List (Placed R)} (h : scan cfg clock kind l b = some (b', taken)) :
    b'.mynid = b.mynid ∨ ∃ p ∈ l, b'.mynid = nidOf cfg p.1 := by
  induction l generalizing b taken with
  | nil =>
    obtain ⟨rfl, rfl⟩ := Prod.mk.inj (Option.some.inj h)
    exact Or.inl rfl
  | cons p l ih =>
    have hbehind {b₁ : Batch R} {taken₁ : List (Placed R)} (hb₁ : b₁.mynid = nidOf cfg p.1)
        (hrest : scan cfg clock kind l b₁ = some (b', taken₁)) :
        b'.mynid = b.mynid ∨ ∃ q ∈ p :: l, b'.mynid = nidOf cfg q.1 := by
      rcases ih hrest with heq | ⟨q, hq, heq⟩
      · exact Or.inr ⟨p, List.mem_cons_self, heq.trans hb₁⟩
      · exact Or.inr ⟨q, List.mem_cons_of_mem p hq, heq⟩
    cases scan_cons h with
    | passed accept ready rest => exact hbehind rfl rest
    | took accept ready buf behind text rest cons => exact hbehind rfl rest
    | full accept ready batch none => exact Or.inr ⟨p, List.mem_cons_self, by rw [batch]⟩
    | other refuse batch none => exact Or.inl (by rw [batch])

/-- A node id stays the node id of the frame. -/
theorem scan_mynid {kind : Kind} {l : List (Placed R)} {b b' : Batch R} {taken : List (Placed R)}
    (h : scan cfg clock kind l b = some (b', taken)) (hne : b.mynid ≠ []) :
    b'.mynid = b.mynid ∧ ∀ p ∈ taken, nidOf cfg p.1 = b.mynid := by
  induction l generalizing b taken with
  | nil =>
    obtain ⟨rfl, rfl⟩ := Prod.mk.inj (Option.some.inj h)
    exact ⟨rfl, fun p hp => absurd hp List.not_mem_nil⟩
  | cons p l ih =>
    cases scan_cons h with
    | passed accept ready rest =>
      have heq : nidOf cfg p.1 = b.mynid := accept.resolve_left hne
      rw [← heq] at hne ⊢
      have hrec := ih rest hne
      exact hrec
    | took accept ready buf behind text rest cons =>
      have heq : nidOf cfg p.1 = b.mynid := accept.resolve_left hne
      rw [← heq] at hne ⊢
      obtain ⟨hmynid, hall⟩ := ih rest hne
      refine ⟨hmynid, fun q hq => ?_⟩
      rw [cons] at hq
      rcases List.mem_cons.mp hq with rfl | hq
      · rfl
      · exact hall q hq
    | full accept ready batch none =>
      have heq : nidOf cfg p.1 = b.mynid := accept.resolve_left hne
      rw [batch, none]
      exact ⟨heq, fun q hq => absurd hq List.not_mem_nil⟩
    | other refuse batch none =>
      rw [batch, none]
      exact ⟨rfl, fun q hq => absurd hq List.not_mem_nil⟩

variable (cfg clock) in
/-- No ready variable with an empty node id is in front of one with a node id. -/
def Own (kind : Kind) (l : List (Placed R)) : Prop :=
  l.Pairwise fun p q => kind.ready cfg clock p.1 = true → nidOf cfg p.1 = [] → nidOf cfg q.1 = []

/-- Then the frame is under the node id of every variable taken. -/
theorem scan_own {kind : Kind} {l : List (Placed R)} {b b' : Batch R} {taken : List (Placed R)}
    (h : scan cfg clock kind l b = some (b', taken)) (hnil : b.mynid = [])
    (hown : Own cfg clock kind l) : ∀ p ∈ taken, nidOf cfg p.1 = b'.mynid := by
  induction l generalizing b taken with
  | nil =>
    obtain ⟨rfl, rfl⟩ := Prod.mk.inj (Option.some.inj h)
    exact fun p hp => absurd hp List.not_mem_nil
  | cons p l ih =>
    obtain ⟨hhead, htail⟩ := List.pairwise_cons.mp hown
    cases scan_cons h with
    | passed accept ready rest =>
      by_cases hnid : nidOf cfg p.1 = []
      · exact ih rest hnid htail
      · obtain ⟨hmynid, hall⟩ := scan_mynid rest hnid
        exact fun q hq => (hall q hq).trans hmynid.symm
    | took accept ready buf behind text rest cons =>
      intro q hq
      rw [cons] at hq
      by_cases hnid : nidOf cfg p.1 = []
      · rcases List.mem_cons.mp hq with rfl | hq
        · rcases scan_mynid_mem rest with heq | ⟨r, hr, heq⟩
          · exact heq.symm
          · rw [heq, hhead r hr ready hnid, hnid]
        · exact ih rest hnid htail q hq
      · obtain ⟨hmynid, hall⟩ := scan_mynid rest hnid
        rcases List.mem_cons.mp hq with rfl | hq
        · exact hmynid.symm
        · exact (hall q hq).trans hmynid.symm
    | full accept ready batch none =>
      rw [none]
      exact fun q hq => absurd hq List.not_mem_nil
    | other refuse batch none =>
      rw [none]
      exact fun q hq => absurd hq List.not_mem_nil

/-- A call whose frame has no node id has met variables without one only, up to the end or to
    one that found the frame full. -/
theorem scan_mynid_nil {kind : Kind} {l : List (Placed R)} {b b' : Batch R}
    {taken : List (Placed R)} (h : scan cfg clock kind l b = some (b', taken))
    (hnil : b.mynid = []) (hnil' : b'.mynid = []) :
    ∃ s t, l = s ++ t ∧ (∀ p ∈ s, nidOf cfg p.1 = []) ∧ taken = kind.readyOf cfg clock s ∧
      ∀ p ∈ t.head?, nidOf cfg p.1 = [] ∧ kind.ready cfg clock p.1 = true := by
  induction l generalizing b taken with
  | nil =>
    obtain ⟨rfl, rfl⟩ := Prod.mk.inj (Option.some.inj h)
    exact ⟨[], [], rfl, fun p hp => absurd hp List.not_mem_nil, rfl, fun p hp => nomatch hp⟩
  | cons p l ih =>
    have hnid {b₁ : Batch R} {taken₁ : List (Placed R)} (hb₁ : b₁.mynid = nidOf cfg p.1)
        (hrest : scan cfg clock kind l b₁ = some (b', taken₁)) : nidOf cfg p.1 = [] := by
      by_contra hne
      have hmynid := (scan_mynid hrest (by rw [hb₁]; exact hne)).1
      exact hne (by rw [← hb₁, ← hmynid, hnil'])
    have hcons {s : List (Placed R)} (hp : nidOf cfg p.1 = [])
        (hs : ∀ q ∈ s, nidOf cfg q.1 = []) : ∀ q ∈ p :: s, nidOf cfg q.1 = [] := by
      intro q hq
      rcases List.mem_cons.mp hq with rfl | hq
      · exact hp
      · exact hs q hq
    cases scan_cons h with
    | passed accept ready rest =>
      have hp := hnid rfl rest
      obtain ⟨s, t, hl, hs, htaken, ht⟩ := ih rest hp
      refine ⟨p :: s, t, by rw [hl, List.cons_append], hcons hp hs, ?_, ht⟩
      rw [htaken, readyOf_cons_false ready]
    | took accept ready buf behind text rest cons =>
      have hp := hnid rfl rest
      obtain ⟨s, t, hl, hs, htaken, ht⟩ := ih rest hp
      refine ⟨p :: s, t, by rw [hl, List.cons_append], hcons hp hs, ?_, ht⟩
      rw [cons, htaken, readyOf_cons_true ready]
    | full accept ready batch none =>
      refine ⟨[], p :: l, rfl, fun q hq => absurd hq List.not_mem_nil, none, fun q hq => ?_⟩
      obtain rfl := Option.some.inj hq
      rw [batch] at hnil'
      exact ⟨hnil', ready⟩
    | other refuse batch none => exact absurd (Or.inl hnil) refuse

/-! ## A call -/

theorem reportData_scan {kind : Kind} {vars : List (ExtData R)} {ppnode : Option Nat}
    {r : Report R} (h : reportData cfg index clock kind vars ppnode = some r) :
    ∃ b, scan cfg clock kind (conn index vars (startAt ppnode)) ⟨vars, ppnode, [], [], true⟩ =
        some (b, takenBy cfg index clock kind vars ppnode) ∧ r.ppnode = b.ppnode ∧
      r.vars = resetAll clock kind (takenBy cfg index clock kind vars ppnode) vars ∧
      ∃ text, cpText cfg clock kind true (takenBy cfg index clock kind vars ppnode) = some text ∧
        r.sent = if text.length > 0 then
          some (hjt212Encode
            { QN := none
              ST := some cfg.ST
              CN := some kind.CN
              PW := some cfg.PW
              MN := some b.mynid
              Flag := none
              CP := some text.dropLast })
        else none := by
  obtain ⟨b, hb, h⟩ := Option.bind_eq_some_iff.mp h
  obtain rfl := Option.some.inj h
  rw [reportLoop_eq_scan cfg index clock kind (by dsimp only; omega)] at hb
  obtain ⟨⟨b', taken⟩, hscan, rfl⟩ := Option.map_eq_some_iff.mp hb
  have htaken : takenBy cfg index clock kind vars ppnode = taken := by
    unfold takenBy
    rw [hscan]
  obtain ⟨hvars, text, htext, hsCp⟩ := scan_taken hscan
  rw [List.nil_append] at hsCp
  rw [htaken]
  exact ⟨b', hscan, rfl, hvars, text, htext, by rw [hsCp]⟩

/-- A call carries what it takes exactly if all of it has the node id of the frame. -/
theorem carries_iff {kind : Kind} {vars : List (ExtData R)} {ppnode : Option Nat} {r : Report R}
    {b : Batch R} (h : reportData cfg index clock kind vars ppnode = some r)
    (hscan : scan cfg clock kind (conn index vars (startAt ppnode)) ⟨vars, ppnode, [], [], true⟩ =
      some (b, takenBy cfg index clock kind vars ppnode))
    (hnul : ∀ p ∈ conn index vars (startAt ppnode), (0 : UInt8) ∉ nidOf cfg p.1) :
    (⟨r, takenBy cfg index clock kind vars ppnode⟩ : Call R).Carries cfg clock kind ↔
      ∀ p ∈ takenBy cfg index clock kind vars ppnode, nidOf cfg p.1 = b.mynid.take 14 := by
  obtain ⟨b', hscan', -, -, text, htext, hsent⟩ := reportData_scan h
  obtain rfl : b = b' := (Prod.mk.inj (Option.some.inj (hscan.symm.trans hscan'))).1
  have hmynid : (0 : UInt8) ∉ b.mynid := by
    rcases scan_mynid_mem hscan with heq | ⟨p, hp, heq⟩
    · rw [heq]
      exact List.not_mem_nil
    · rw [heq]
      exact hnul p hp
  rw [hjt212Encode_report kind hmynid text] at hsent
  unfold Call.Carries
  constructor
  · intro hcarries p hp
    obtain ⟨text', htext', hsent'⟩ := hcarries.2 p hp
    obtain rfl : text = text' := Option.some.inj (htext.symm.trans htext')
    have hpos : text.length > 0 :=
      List.length_pos_iff.mpr (cpText_ne_nil htext (List.ne_nil_of_mem hp))
    rw [if_pos hpos] at hsent
    exact (reportFrame_inj (Option.some.inj (hsent.symm.trans hsent'))).symm
  · intro hall
    refine ⟨fun hnil => ?_, fun p hp => ⟨text, htext, ?_⟩⟩
    · rw [show takenBy cfg index clock kind vars ppnode = [] from hnil] at htext
      obtain rfl : text = [] := (Option.some.inj htext).symm
      rw [hsent, if_neg (by decide)]
    · have hpos : text.length > 0 :=
        List.length_pos_iff.mpr (cpText_ne_nil htext (List.ne_nil_of_mem hp))
      rw [hsent, if_pos hpos, hall p hp]

variable (cfg index clock) in
/-- How a call ends that has chained items in front of it. -/
inductive CallEnd (kind : Kind) (vars : List (ExtData R)) (ppnode : Option Nat) (r : Report R) :
    Prop where
  | finished (done : r.ppnode = none)
      (took : takenBy cfg index clock kind vars ppnode =
        kind.readyOf cfg clock (conn index vars (startAt ppnode)))
  | resumed (d : List (Placed R)) (p : Placed R) (next : r.ppnode = some p.2)
      (cut : conn index vars (startAt ppnode) = d ++ p :: conn index r.vars (p.2 + 1))
      (ready : kind.ready cfg clock p.1 = true)
      (took : takenBy cfg index clock kind vars ppnode = kind.readyOf cfg clock (d ++ [p]))

theorem reportData_chained {kind : Kind} {vars : List (ExtData R)} {ppnode : Option Nat}
    {r : Report R} (h : reportData cfg index clock kind vars ppnode = some r)
    (hchain : Chained Item.apart (fun a => a.ready = true)
      (kind.placedItems cfg clock (conn index vars (startAt ppnode)))) :
    CallEnd cfg index clock kind vars ppnode r := by
  obtain ⟨b, hscan, hnode, hvars, -⟩ := reportData_scan h
  have hspec := @scan_spec R _ _ cfg clock kind (conn index vars (startAt ppnode))
    ⟨vars, ppnode, [], [], true⟩ none rfl
  rw [hscan] at hspec
  cases hspec with
  | finished done all fits took => exact .finished (hnode.trans done) took
  | resumed d p rest cut seen ready fits next took =>
    have hrest : conn index r.vars (p.2 + 1) = rest := by
      rw [hvars, took, conn_resetAll kind (place_le_of_readyOf cut), (conn_split index cut).2.2]
    exact .resumed d p (hnode.trans next) (by rw [hrest, cut]) ready took
  | stopped next took quiet =>
    obtain ⟨hne, hall⟩ := quiet rfl
    have hquiet : Quiet Item.apart (fun a => a.ready = true)
        (kind.placedItems cfg clock (conn index vars (startAt ppnode))) :=
      ⟨hne, fun a ha => Bool.eq_false_iff.mp (hall a ha).1⟩
    exact absurd hchain hquiet.not_chained

theorem chained_behind {kind : Kind} {d rest : List (Placed R)} {p : Placed R}
    (h : Chained Item.apart (fun a => a.ready = true)
      (kind.placedItems cfg clock (d ++ p :: rest))) :
    Chained Item.apart (fun a => a.ready = true) (kind.placedItems cfg clock rest) := by
  have hsuf : kind.placedItems cfg clock rest <:+ kind.placedItems cfg clock (d ++ p :: rest) :=
    List.IsSuffix.map _ ⟨d ++ [p], by rw [List.append_assoc]; rfl⟩
  exact List.IsChain.suffix h hsuf

/-! ## The calls of a round -/

theorem round_vars {kind : Kind} {vars vars' : List (ExtData R)} {node : Option Nat}
    {calls : List (Call R)} (h : Round cfg index clock kind vars node vars' calls) :
    vars' = resetAll clock kind (calls.flatMap Call.taken) vars := by
  induction h with
  | last call done =>
    obtain ⟨-, -, -, hvars, -⟩ := reportData_scan call
    rw [hvars, List.flatMap_singleton]
  | more call next rest ih =>
    obtain ⟨-, -, -, hvars, -⟩ := reportData_scan call
    rw [List.flatMap_cons, resetAll, List.foldl_append, ih, hvars]
    rfl

omit [VarReal R] [NumberText R] in
theorem readyOf_append (kind : Kind) (l l' : List (Placed R)) :
    kind.readyOf cfg clock (l ++ l') = kind.readyOf cfg clock l ++ kind.readyOf cfg clock l' :=
  List.filter_append _ _

/-- A call that takes nothing sends nothing. -/
theorem carries_of_idle {kind : Kind} {vars vars' : List (ExtData R)} {node : Option Nat}
    {calls : List (Call R)} (h : Round cfg index clock kind vars node vars' calls) {c : Call R}
    (hc : c ∈ calls) (hidle : c.taken = []) : c.Carries cfg clock kind := by
  have hcall {vars : List (ExtData R)} {node : Option Nat} {r : Report R}
      (call : reportData cfg index clock kind vars node = some r)
      (hidle : takenBy cfg index clock kind vars node = []) :
      (⟨r, takenBy cfg index clock kind vars node⟩ : Call R).Carries cfg clock kind := by
    obtain ⟨b, -, -, -, text, htext, hsent⟩ := reportData_scan call
    rw [hidle] at htext
    obtain rfl : text = [] := (Option.some.inj htext).symm
    exact ⟨fun _ => hsent, fun p hp => absurd (hidle ▸ hp) List.not_mem_nil⟩
  induction h with
  | last call done =>
    obtain rfl := List.mem_singleton.mp hc
    exact hcall call hidle
  | more call next rest ih =>
    rcases List.mem_cons.mp hc with rfl | hc
    · exact hcall call hidle
    · exact ih hc

/-- Over chained items the calls take what is ready, in order. -/
theorem round_taken {kind : Kind} {vars vars' : List (ExtData R)} {node : Option Nat}
    {calls : List (Call R)} (h : Round cfg index clock kind vars node vars' calls)
    (hchain : Chained Item.apart (fun a => a.ready = true)
      (kind.placedItems cfg clock (conn index vars (startAt node)))) :
    calls.flatMap Call.taken = kind.readyOf cfg clock (conn index vars (startAt node)) := by
  induction h with
  | last call done =>
    rw [List.flatMap_singleton]
    cases reportData_chained call hchain with
    | finished done' took => exact took
    | resumed d p next => exact absurd (done.symm.trans next) (by simp)
  | more call next rest ih =>
    rw [List.flatMap_cons]
    cases reportData_chained call hchain with
    | finished done => exact absurd (done.symm.trans next) (by simp)
    | resumed d p next' cut ready took =>
      obtain rfl := Option.some.inj (next'.symm.trans next)
      rw [cut] at hchain
      rw [ih (chained_behind hchain), cut, List.append_cons, readyOf_append, ← took]
      rfl

/-- Calls over chained items with their own node ids carry what they take. -/
theorem round_carries {kind : Kind} {vars vars' : List (ExtData R)} {node : Option Nat}
    {calls : List (Call R)} (h : Round cfg index clock kind vars node vars' calls)
    (hnul : ∀ p ∈ conn index vars (startAt node), (0 : UInt8) ∉ nidOf cfg p.1)
    (hchain : Chained Item.apart (fun a => a.ready = true)
      (kind.placedItems cfg clock (conn index vars (startAt node))))
    (hlen : ∀ p ∈ kind.readyOf cfg clock (conn index vars (startAt node)),
      (nidOf cfg p.1).length ≤ 14)
    (hown : Own cfg clock kind (conn index vars (startAt node))) :
    ∀ c ∈ calls, c.Carries cfg clock kind := by
  -- a call that takes variables of the list has their node id
  have hcall {vars : List (ExtData R)} {node : Option Nat} {r : Report R}
      (call : reportData cfg index clock kind vars node = some r)
      (hnul : ∀ p ∈ conn index vars (startAt node), (0 : UInt8) ∉ nidOf cfg p.1)
      (hown : Own cfg clock kind (conn index vars (startAt node)))
      (hlen : ∀ p ∈ takenBy cfg index clock kind vars node, (nidOf cfg p.1).length ≤ 14) :
      (⟨r, takenBy cfg index clock kind vars node⟩ : Call R).Carries cfg clock kind := by
    obtain ⟨b, hscan, -⟩ := reportData_scan call
    refine (carries_iff call hscan hnul).mpr fun p hp => ?_
    have heq := scan_own hscan rfl hown p hp
    rw [← heq, List.take_of_length_le (hlen p hp)]
  induction h with
  | last call done =>
    intro c hc
    obtain rfl := List.mem_singleton.mp hc
    refine hcall call hnul hown fun p hp => hlen p ?_
    cases reportData_chained call hchain with
    | finished done' took => exact took ▸ hp
    | resumed d q next => exact absurd (done.symm.trans next) (by simp)
  | more call next rest ih =>
    cases reportData_chained call hchain with
    | finished done => exact absurd (done.symm.trans next) (by simp)
    | resumed d q next' cut ready took =>
      obtain rfl := Option.some.inj (next'.symm.trans next)
      intro c hc
      rcases List.mem_cons.mp hc with rfl | hc
      · refine hcall call hnul hown fun p hp => hlen p ?_
        rw [cut, List.append_cons, readyOf_append, ← took]
        exact List.mem_append_left _ hp
      · have hown' := hown
        rw [cut] at hchain hnul hlen hown'
        rw [Own, List.append_cons, List.pairwise_append] at hown'
        refine ih (fun p hp => hnul p ?_) (chained_behind hchain) (fun p hp => hlen p ?_)
          hown'.2.1 c hc
        · exact List.mem_append_right _ (List.mem_cons_of_mem _ hp)
        · rw [List.append_cons, readyOf_append]
          exact List.mem_append_right _ hp

/-- A call that took what is ready in `s₀`, under the node id of its frame. -/
theorem own_of_scan {kind : Kind} {l s₀ rest : List (Placed R)} {b b' : Batch R}
    (hscan : scan cfg clock kind l b = some (b', kind.readyOf cfg clock s₀))
    (hall : ∀ p ∈ kind.readyOf cfg clock s₀, nidOf cfg p.1 = b'.mynid.take 14)
    (hl : l = s₀ ++ rest) (hrest : Own cfg clock kind rest) (hnil : b.mynid = [] := by rfl) :
    Own cfg clock kind l := by
  by_cases hmynid : b'.mynid = []
  · -- then no variable of the list has a node id
    obtain ⟨s, t, hst, hs, htaken, ht⟩ := scan_mynid_nil hscan hnil hmynid
    have hsplit : ∃ a, s = s₀ ++ a ∧ rest = a ++ t := by
      rcases List.append_eq_append_iff.mp (hl.symm.trans hst) with h | ⟨a, rfl, rfl⟩
      · exact h
      · rw [readyOf_append, List.append_right_eq_self] at htaken
        cases a with
        | nil => exact ⟨[], by simp, rfl⟩
        | cons q a =>
          have hq := (ht q rfl).2
          rw [readyOf_cons_true hq] at htaken
          exact absurd htaken (List.cons_ne_nil _ _)
    obtain ⟨a, rfl, rfl⟩ := hsplit
    have htail : ∀ p ∈ t, nidOf cfg p.1 = [] := by
      cases t with
      | nil => exact fun p hp => absurd hp List.not_mem_nil
      | cons q t =>
        obtain ⟨hq, hready⟩ := ht q rfl
        intro p hp
        rcases List.mem_cons.mp hp with rfl | hp
        · exact hq
        · exact (List.pairwise_cons.mp (List.pairwise_append.mp hrest).2.1).1 p hp hready hq
    have hempty : ∀ p ∈ l, nidOf cfg p.1 = [] := by
      intro p hp
      rw [hst] at hp
      rcases List.mem_append.mp hp with hp | hp
      · exact hs p hp
      · exact htail p hp
    exact List.pairwise_of_forall_mem_list fun p _ q hq _ _ => hempty q hq
  · -- then every ready variable of `s₀` has one
    have hne : ∀ p ∈ s₀, kind.ready cfg clock p.1 = true → nidOf cfg p.1 ≠ [] := by
      intro p hp hready hnid
      have heq := hall p (List.mem_filter.mpr ⟨hp, hready⟩)
      rw [hnid] at heq
      exact hmynid ((List.take_eq_nil_iff.mp heq.symm).resolve_left (by decide))
    rw [hl, Own, List.pairwise_append]
    refine ⟨?_, hrest, fun p hp q _ hready hnid => absurd hnid (hne p hp hready)⟩
    exact List.pairwise_of_forall_mem_list fun p hp q _ hready hnid =>
      absurd hnid (hne p hp hready)

/-- Over chained items the calls carry what they take only if it has its own node ids. -/
theorem own_of_round {kind : Kind} {vars vars' : List (ExtData R)} {node : Option Nat}
    {calls : List (Call R)} (h : Round cfg index clock kind vars node vars' calls)
    (hnul : ∀ p ∈ conn index vars (startAt node), (0 : UInt8) ∉ nidOf cfg p.1)
    (hchain : Chained Item.apart (fun a => a.ready = true)
      (kind.placedItems cfg clock (conn index vars (startAt node))))
    (hcarries : ∀ c ∈ calls, c.Carries cfg clock kind) :
    (∀ p ∈ kind.readyOf cfg clock (conn index vars (startAt node)),
        (nidOf cfg p.1).length ≤ 14) ∧ Own cfg clock kind (conn index vars (startAt node)) := by
  induction h with
  | last call done =>
    obtain ⟨b, hscan, -⟩ := reportData_scan call
    have hall := (carries_iff call hscan hnul).mp (hcarries _ List.mem_cons_self)
    cases reportData_chained call hchain with
    | finished done' took =>
      rw [took] at hall hscan
      refine ⟨fun p hp => by rw [hall p hp]; exact List.length_take_le _ _, ?_⟩
      exact own_of_scan hscan hall (List.append_nil _).symm List.Pairwise.nil
    | resumed d q next => exact absurd (done.symm.trans next) (by simp)
  | more call next rest ih =>
    obtain ⟨b, hscan, -⟩ := reportData_scan call
    have hall := (carries_iff call hscan hnul).mp (hcarries _ List.mem_cons_self)
    cases reportData_chained call hchain with
    | finished done => exact absurd (done.symm.trans next) (by simp)
    | resumed d q next' cut ready took =>
      obtain rfl := Option.some.inj (next'.symm.trans next)
      have hchain' := hchain
      rw [cut] at hchain'
      obtain ⟨hlen, hown⟩ := ih
        (fun p hp => hnul p (cut ▸ List.mem_append_right _ (List.mem_cons_of_mem _ hp)))
        (chained_behind hchain') (fun c hc => hcarries c (List.mem_cons_of_mem _ hc))
      rw [took] at hall hscan
      constructor
      · intro p hp
        rw [cut, List.append_cons, readyOf_append] at hp
        rcases List.mem_append.mp hp with hp | hp
        · rw [hall p hp]
          exact List.length_take_le _ _
        · exact hlen p hp
      · exact own_of_scan hscan hall (by rw [cut, List.append_cons]; rfl) hown

/-! ## What a round delivers -/

omit [NumberText R] in
/-- A variable is reset if it is taken, and stays as it is otherwise. -/
theorem resetAll_getElem? (kind : Kind) {taken : List (Placed R)}
    (hnodup : (taken.map Prod.snd).Nodup) (vars : List (ExtData R)) (i : Nat) :
    (resetAll clock kind taken vars)[i]? =
      if i ∈ taken.map Prod.snd then vars[i]?.map (kind.reset clock) else vars[i]? := by
  induction taken generalizing vars with
  | nil => rfl
  | cons p taken ih =>
    rw [List.map_cons, List.nodup_cons] at hnodup
    show (resetAll clock kind taken (vars.modify p.2 _))[i]? = _
    rw [ih hnodup.2, List.getElem?_modify, List.map_cons]
    by_cases hp : p.2 = i
    · subst hp
      rw [if_neg hnodup.1, if_pos List.mem_cons_self]
      simp only [if_true, Option.map_eq_map]
    · have hmem : i ∈ p.2 :: taken.map Prod.snd ↔ i ∈ taken.map Prod.snd :=
        ⟨fun h => (List.mem_cons.mp h).resolve_left fun he => hp he.symm, List.mem_cons_of_mem _⟩
      simp only [hmem, if_neg hp, Option.map_eq_map, Option.map_id']

omit [VarReal R] [NumberText R] in
theorem readyOf_places_nodup (kind : Kind) (vars : List (ExtData R)) (n : Nat) :
    ((kind.readyOf cfg clock (conn index vars n)).map Prod.snd).Nodup := by
  have hsub : (kind.readyOf cfg clock (conn index vars n)).Sublist ((vars.drop n).zipIdx n) :=
    List.filter_sublist.trans List.filter_sublist
  refine (hsub.map Prod.snd).nodup ?_
  rw [List.zipIdx_map_snd]
  exact List.nodup_range'

omit [VarReal R] [NumberText R] in
theorem mem_of_mem_conn {vars : List (ExtData R)} {n : Nat} {p : Placed R}
    (h : p ∈ conn index vars n) : p.1 ∈ vars :=
  List.mem_of_mem_drop (List.fst_mem_of_mem_zipIdx (List.mem_of_mem_filter h))

theorem items_eq (kind : Kind) (vars : List (ExtData R)) :
    kind.items cfg index clock vars = kind.placedItems cfg clock (conn index vars 0) :=
  items_drop cfg index clock kind vars 0

/-- A break in front of which nothing is ready ends the round at once. -/
theorem round_quiet {kind : Kind} {vars vars' : List (ExtData R)} {calls : List (Call R)}
    (h : Round cfg index clock kind vars none vars' calls)
    (hquiet : Quiet Item.apart (fun a => a.ready = true)
      (kind.placedItems cfg clock (conn index vars 0))) : calls.flatMap Call.taken = [] := by
  have hcall {r : Report R} (call : reportData cfg index clock kind vars none = some r) :
      r.ppnode = none ∧ takenBy cfg index clock kind vars none = [] := by
    obtain ⟨b, hscan, hnode, -⟩ := reportData_scan call
    have hspec := @scan_spec R _ _ cfg clock kind (conn index vars 0) ⟨vars, none, [], [], true⟩
      none rfl
    rw [show conn index vars 0 = conn index vars (startAt none) from rfl, hscan] at hspec
    cases hspec with
    | finished done all fits took => exact absurd all hquiet.1
    | resumed d p rest cut seen ready =>
      have hmem : kind.item cfg clock p.1 ∈ kind.placedItems cfg clock (d ++ [p]) :=
        List.mem_map_of_mem (List.mem_append_right d List.mem_cons_self)
      exact absurd ready (hquiet.2 _ (seen.subset hmem))
    | stopped next took => exact ⟨hnode.trans next, took⟩
  cases h with
  | last call done => rw [List.flatMap_singleton]; exact (hcall call).2
  | more call next rest => exact absurd ((hcall call).1.symm.trans next) (by simp)

theorem delivers_of_reportsOnce {kind : Kind} {vars : List (ExtData R)}
    (hnul : ∀ v ∈ vars, (0 : UInt8) ∉ nidOf cfg v) (h : ReportsOnce cfg index clock kind vars) :
    Delivers (kind.items cfg index clock vars) := by
  obtain ⟨vars', calls, hround, hcarries, htaken, -⟩ := h
  obtain ⟨fuel, hrun⟩ := reportWhile_of_round hround
  have hsettles := settles_of_reportWhile kind hrun
  rw [items_eq] at hsettles ⊢
  rcases hsettles with ⟨hquiet, hfits⟩ | ⟨hchain, hfits⟩
  · refine Or.inr ⟨fun a ha => ?_, hquiet.1, hfits⟩
    rw [round_quiet hround hquiet] at htaken
    obtain ⟨p, hp, rfl⟩ := List.mem_map.mp ha
    exact Bool.eq_false_iff.mpr (List.filter_eq_nil_iff.mp htaken.symm p hp)
  · obtain ⟨hlen, hown⟩ := own_of_round hround (fun p hp => hnul _ (mem_of_mem_conn hp)) hchain
      hcarries
    refine Or.inl ⟨hchain, hfits, fun a ha hready => ?_, List.pairwise_map.mpr hown⟩
    obtain ⟨p, hp, rfl⟩ := List.mem_map.mp ha
    exact hlen p (List.mem_filter.mpr ⟨hp, hready⟩)

theorem reportsOnce_of_delivers {kind : Kind} {vars : List (ExtData R)}
    (hnul : ∀ v ∈ vars, (0 : UInt8) ∉ nidOf cfg v)
    (h : Delivers (kind.items cfg index clock vars)) : ReportsOnce cfg index clock kind vars := by
  have hsettles : Settles (kind.items cfg index clock vars) := by
    rcases h with ⟨hchain, hfits, -⟩ | ⟨hidle, hbreak, hfits⟩
    · exact Or.inr ⟨hchain, hfits⟩
    · refine Or.inl ⟨⟨hbreak, fun a ha => ?_⟩, hfits⟩
      exact Bool.eq_false_iff.mp (hidle a (mem_group ha))
  obtain ⟨vars', rs, hrun, -⟩ := roundEnds_of_settles kind (Nat.lt_succ_self _) hsettles
  obtain ⟨calls, hround, -⟩ := round_of_reportWhile hrun
  have hmem : ∀ p ∈ conn index vars (startAt none), (0 : UInt8) ∉ nidOf cfg p.1 :=
    fun p hp => hnul _ (mem_of_mem_conn hp)
  rw [items_eq] at h
  have hdone : (∀ c ∈ calls, c.Carries cfg clock kind) ∧
      calls.flatMap Call.taken = kind.readyOf cfg clock (conn index vars 0) := by
    rcases h with ⟨hchain, hfits, hlen, hown⟩ | ⟨hidle, hbreak, hfits⟩
    · refine ⟨round_carries hround hmem hchain (fun p hp => ?_) (List.pairwise_map.mp hown),
        round_taken hround hchain⟩
      obtain ⟨hp, hready⟩ := List.mem_filter.mp hp
      exact hlen _ (List.mem_map_of_mem hp) hready
    · have hquiet : Quiet Item.apart (fun a => a.ready = true)
          (kind.placedItems cfg clock (conn index vars 0)) :=
        ⟨hbreak, fun a ha => Bool.eq_false_iff.mp (hidle a (mem_group ha))⟩
      have hnil := round_quiet hround hquiet
      have hready : kind.readyOf cfg clock (conn index vars 0) = [] :=
        List.filter_eq_nil_iff.mpr fun p hp =>
          Bool.eq_false_iff.mp (hidle _ (List.mem_map_of_mem hp))
      refine ⟨fun c hc => ?_, hnil.trans hready.symm⟩
      have htaken : c.taken = [] := List.flatMap_eq_nil_iff.mp hnil c hc
      exact carries_of_idle hround hc htaken
  refine ⟨vars', calls, hround, hdone.1, hdone.2, fun i => ?_⟩
  rw [round_vars hround]
  refine resetAll_getElem? kind ?_ vars i
  rw [hdone.2]
  exact readyOf_places_nodup kind vars 0

/-- A round reports every ready variable once, under its own node id, if and only if the items
    of the connection are delivered. The node ids are C strings. -/
theorem report_once (cfg : Hjt212Cfg) (index : UInt8) (clock : Clock) (kind : Kind)
    (vars : List (ExtData R)) (hnul : ∀ v ∈ vars, (0 : UInt8) ∉ nidOf cfg v) :
    ReportsOnce cfg index clock kind vars ↔ Delivers (kind.items cfg index clock vars) :=
  ⟨delivers_of_reportsOnce hnul, reportsOnce_of_delivers hnul⟩

/-- Two stations with a sample each: two frames. -/
theorem report_once_stations : ReportsOnce stationCfg 0 stationClock .real
    [stationVar ['A'] 1, stationVar ['B'] 1] := by
  refine (report_once stationCfg 0 stationClock .real
    [stationVar ['A'] 1, stationVar ['B'] 1] ?_).mpr (Or.inl ⟨?_, ?_, ?_, ?_⟩)
  · intro v hv
    rcases List.mem_pair.mp hv with rfl | rfl <;> decide
  · exact List.isChain_cons_cons.mpr ⟨fun _ => rfl, List.isChain_singleton _⟩
  · intro a ha
    rcases List.mem_pair.mp ha with rfl | rfl <;> rfl
  · intro a ha _
    rcases List.mem_pair.mp ha with rfl | rfl <;> decide
  · exact List.pairwise_pair.mpr fun _ hnil => absurd hnil (by decide)

/-- Station A has no sample: the round is over before it comes to B. -/
theorem report_once_starves : ¬ ∀ (cfg : Hjt212Cfg) (index : UInt8) (clock : Clock) (kind : Kind)
    (vars : List (ExtData Int)), (∀ v ∈ vars, (0 : UInt8) ∉ nidOf cfg v) →
      ReportsOnce cfg index clock kind vars := by
  intro h
  have hnul : ∀ v ∈ [stationVar ['A'] 0, stationVar ['B'] 1],
      (0 : UInt8) ∉ nidOf stationCfg v := by
    intro v hv
    rcases List.mem_pair.mp hv with rfl | rfl <;> decide
  rcases delivers_of_reportsOnce hnul (h stationCfg 0 stationClock .real _ hnul) with
    ⟨hchain, -⟩ | ⟨hidle, -⟩
  · have hAB := (List.isChain_cons_cons.mp hchain).1
    exact absurd (hAB ⟨by decide, by decide⟩) (by decide)
  · exact absurd (hidle _ (List.mem_cons_of_mem _ List.mem_cons_self)) (by decide)

end K64Gateway.Hjt212
