import K64Gateway.Lib.CString

/-
  The writer of `rt-thread/components/external/mxml/mxml-file.c`: `mxmlSaveString` without a
  whitespace callback. The column is carried along, since an attribute that would pass column 72
  is set off by a line break and not by a blank.
-/

namespace K64Gateway.Mxml

open CString

/-- A node. The string of a `number` is what `sprintf` makes of an `MXML_INTEGER` or an
    `MXML_REAL`. -/
inductive Xml where
  | element (name : List UInt8) (attrs : List (List UInt8 × List UInt8)) (children : List Xml)
  | text (whitespace : Bool) (string : List UInt8)
  | number (string : List UInt8)

/-! ## The writer -/

/-- `mxmlEntityGetName`, between `&` and `;`. -/
def mxmlEntity (c : UInt8) : List UInt8 :=
  if c = 38 then chars ['&', 'a', 'm', 'p', ';']
  else if c = 60 then chars ['&', 'l', 't', ';']
  else if c = 62 then chars ['&', 'g', 't', ';']
  else if c = 34 then chars ['&', 'q', 'u', 'o', 't', ';']
  else [c]

/-- `mxml_write_string`. -/
def writeString (s : List UInt8) : List UInt8 := s.flatMap mxmlEntity

/-- `mxml_write_name`: a name in quotes ends at the second one. -/
def writeName : List UInt8 → List UInt8
  | [] => []
  | c :: s =>
      if c = 34 ∨ c = 39 then c :: writeString (s.takeWhile (· != c)) ++ [c]
      else c :: s

/-- `global->wrap`. -/
def wrap : Nat := 72

/-- What is put before something that ends at column `reach`: the text and the new column. -/
def separator (reach col : Nat) : List UInt8 × Nat :=
  if wrap < reach then ([10], 0) else ([32], col + 1)

def writeAttrs : List (List UInt8 × List UInt8) → Nat → List UInt8 × Nat
  | [], col => ([], col)
  | (name, value) :: attrs, col =>
      let width := name.length + (value.length + 3)
      let sep := separator (col + width) col
      let rest := writeAttrs attrs (sep.2 + width)
      (sep.1 ++ (writeName name ++ ([61, 34] ++ (writeString value ++ 34 :: rest.1))), rest.2)

/-- An element up to its last attribute. -/
def writeStart (name : List UInt8) (attrs : List (List UInt8 × List UInt8)) (col : Nat) :
    List UInt8 × Nat :=
  let rest := writeAttrs attrs (col + (name.length + 1))
  (60 :: (writeName name ++ rest.1), rest.2)

/-- The `?` and `!` elements have no end tags. -/
def special (name : List UInt8) : Bool :=
  name.head? == some 33 || name.head? == some 63

def endTag (name : List UInt8) : List UInt8 := [60, 47] ++ (writeString name ++ [62])

mutual

/-- `mxml_write_node`; `prev` tells whether the node has one before it. -/
def writeNode (prev : Bool) (col : Nat) : Xml → List UInt8 × Nat
  | .element name attrs children =>
      let start := writeStart name attrs col
      let inner := writeNodes false (start.2 + 1) children
      if children.isEmpty then
        if special name then (start.1 ++ [62], start.2 + 1)
        else (start.1 ++ [32, 47, 62], start.2 + 3)
      else
        if special name then (start.1 ++ 62 :: inner.1, inner.2)
        else (start.1 ++ 62 :: (inner.1 ++ endTag name), inner.2 + (name.length + 3))
  | .text whitespace string =>
      if whitespace && decide (0 < col) then
        let sep := separator col col
        (sep.1 ++ writeString string, sep.2 + string.length)
      else (writeString string, col + string.length)
  | .number string =>
      if prev then
        let sep := separator col col
        (sep.1 ++ writeString string, sep.2 + string.length)
      else (writeString string, col + string.length)

/-- The nodes of a list of children one behind the other. -/
def writeNodes (prev : Bool) (col : Nat) : List Xml → List UInt8 × Nat
  | [] => ([], col)
  | node :: nodes =>
      let first := writeNode prev col node
      let rest := writeNodes true first.2 nodes
      (first.1 ++ rest.1, rest.2)

end

/-- The text that `mxmlSaveString` would write into a buffer without an end. -/
def fullText (node : Xml) : List UInt8 :=
  let out := writeNode false 0 node
  if 0 < out.2 then out.1 ++ [10] else out.1

/-- `mxmlSaveString`: the string that is in the buffer afterwards. -/
def mxmlSaveString (node : Xml) (bufsize : Nat) : List UInt8 := (fullText node).take (bufsize - 1)

/-! ## Texts one behind the other -/

theorem writeNodes_append (xs ys : List Xml) : ∀ (prev : Bool) (col : Nat),
    writeNodes prev col (xs ++ ys) =
      ((writeNodes prev col xs).1 ++
        (writeNodes (prev || !xs.isEmpty) (writeNodes prev col xs).2 ys).1,
        (writeNodes (prev || !xs.isEmpty) (writeNodes prev col xs).2 ys).2) := by
  induction xs with
  | nil =>
    intro prev col
    simp [writeNodes]
  | cons x xs ih =>
    intro prev col
    rw [List.cons_append, writeNodes, writeNodes, ih]
    simp

theorem writeNode_element {name : List UInt8} {attrs : List (List UInt8 × List UInt8)}
    {children : List Xml} (hchildren : children ≠ []) (hname : special name = false) (prev : Bool)
    (col : Nat) : writeNode prev col (.element name attrs children) =
      ((writeStart name attrs col).1 ++
        62 :: ((writeNodes false ((writeStart name attrs col).2 + 1) children).1 ++ endTag name),
        (writeNodes false ((writeStart name attrs col).2 + 1) children).2 + (name.length + 3)) := by
  have hempty : children.isEmpty = false := by
    rw [List.isEmpty_eq_false_iff]
    exact hchildren
  rw [writeNode]
  simp only [hempty, hname]
  rfl

/-- What the children begin with stands behind the start tag. -/
theorem prefix_writeNode {name : List UInt8} {attrs : List (List UInt8 × List UInt8)}
    {children : List Xml} (hchildren : children ≠ []) {col : Nat} {t : List UInt8}
    (ht : t <+: (writeNodes false ((writeStart name attrs col).2 + 1) children).1) (prev : Bool) :
    (writeStart name attrs col).1 ++ 62 :: t <+:
      (writeNode prev col (.element name attrs children)).1 := by
  have hempty : children.isEmpty = false := by
    rw [List.isEmpty_eq_false_iff]
    exact hchildren
  have hstart : (writeStart name attrs col).1 ++ 62 :: t <+: (writeStart name attrs col).1 ++
      62 :: (writeNodes false ((writeStart name attrs col).2 + 1) children).1 :=
    (List.prefix_append_right_inj _).mpr (List.cons_prefix_cons.mpr ⟨rfl, ht⟩)
  rw [writeNode]
  simp only [hempty, Bool.false_eq_true, if_false]
  split
  · exact hstart
  · apply hstart.trans
    apply (List.prefix_append_right_inj _).mpr
    apply List.cons_prefix_cons.mpr
    exact ⟨rfl, List.prefix_append _ _⟩

/-- What a node begins with stands behind the nodes in front of it. -/
theorem prefix_writeNodes {xs ys : List Xml} {prev : Bool} {col : Nat} {t : List UInt8}
    (ht : t <+: (writeNodes (prev || !xs.isEmpty) (writeNodes prev col xs).2 ys).1) :
    (writeNodes prev col xs).1 ++ t <+: (writeNodes prev col (xs ++ ys)).1 := by
  rw [writeNodes_append]
  exact (List.prefix_append_right_inj _).mpr ht

theorem prefix_writeNodes_cons {x : Xml} {xs : List Xml} {prev : Bool} {col : Nat}
    {t : List UInt8} (ht : t <+: (writeNode prev col x).1) :
    t <+: (writeNodes prev col (x :: xs)).1 := by
  rw [writeNodes]
  exact ht.trans (List.prefix_append _ _)

/-! ## The text grows with the tree, whatever the column -/

theorem length_separator (reach col : Nat) : (separator reach col).1.length = 1 := by
  unfold separator
  split <;> rfl

def attrLength (attr : List UInt8 × List UInt8) : Nat :=
  (writeName attr.1).length + (writeString attr.2).length + 4

theorem length_writeAttrs (attrs : List (List UInt8 × List UInt8)) : ∀ col : Nat,
    (writeAttrs attrs col).1.length = (attrs.map attrLength).sum := by
  induction attrs with
  | nil => exact fun _ => rfl
  | cons attr attrs ih =>
    intro col
    obtain ⟨name, value⟩ := attr
    simp only [writeAttrs, List.length_append, List.length_cons, List.length_nil, ih,
      length_separator, List.map_cons, List.sum_cons, attrLength]
    omega

theorem length_writeStart (name : List UInt8) (attrs : List (List UInt8 × List UInt8))
    (col : Nat) : (writeStart name attrs col).1.length =
      (writeName name).length + (attrs.map attrLength).sum + 1 := by
  simp only [writeStart, List.length_cons, List.length_append, length_writeAttrs]

theorem length_endTag (name : List UInt8) :
    (endTag name).length = (writeString name).length + 3 := by
  simp only [endTag, List.length_append, List.length_cons, List.length_nil]
  omega

/-- An element whose children take `n` characters wherever they stand. -/
theorem length_writeNode {name : List UInt8} {attrs : List (List UInt8 × List UInt8)}
    {children : List Xml} (hchildren : children ≠ []) (hname : special name = false) {n : Nat}
    (h : ∀ col, (writeNodes false col children).1.length = n) (prev : Bool) (col : Nat) :
    (writeNode prev col (.element name attrs children)).1.length =
      (writeName name).length + (writeString name).length + 5 + (attrs.map attrLength).sum + n := by
  rw [writeNode_element hchildren hname]
  simp only [List.length_append, List.length_cons, length_writeStart, length_endTag, h]
  omega

/-- Children of a length of their own each are together as long as the sum of these. -/
theorem length_writeNodes {ι : Type} {f : ι → Xml} {size : ι → Nat} : ∀ {xs : List ι},
    (∀ x ∈ xs, ∀ prev col, (writeNode prev col (f x)).1.length = size x) → ∀ prev col,
      (writeNodes prev col (xs.map f)).1.length = (xs.map size).sum
  | [], _, _, _ => rfl
  | x :: xs, h, prev, col => by
      rw [List.map_cons, writeNodes, List.length_append, h x List.mem_cons_self,
        length_writeNodes (fun y hy => h y (List.mem_cons_of_mem x hy)), List.map_cons,
        List.sum_cons]

/-- A text in a buffer is whole exactly if its length is less than the buffer's. -/
theorem prefix_mxmlSaveString_iff {node : Xml} {bufsize : Nat} {t : List UInt8}
    (ht : t <+: fullText node) : t <+: mxmlSaveString node bufsize ↔ t.length ≤ bufsize - 1 := by
  unfold mxmlSaveString
  rw [List.prefix_take_iff]
  exact and_iff_right ht

end K64Gateway.Mxml
