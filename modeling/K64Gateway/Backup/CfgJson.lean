import K64Gateway.External.Cjson

/-
  The numbers and strings in the objects of the configuration, as the setters of `board/cfg` read
  them: a missing number is -1, and a negative one leaves the field as it is.
-/

namespace K64Gateway.Backup

open CString Cjson

variable {R : Type} [CNumber R]

/-- `cJSON_GetInt(item, key, -1)` -/
def intAt (item : Item R) (key : List UInt8) : Int := (getInt item key (-1)).toInt

/-- `if (v >= 0) field = v;` -/
def setIf {α : Type} (v : Int) (f : Nat → α) (field : α) : α := if 0 ≤ v then f v.toNat else field

/-- A flag, `if (v >= 0) field = (v != 0);` -/
def setFlag (v : Int) (field : Bool) : Bool := setIf v (fun n => n ≠ 0) field

/-- The string at a key, up to its end. -/
def strAt (item : Item R) (key : List UInt8) : Option (List UInt8) := (getString item key).map cstr

@[simp] theorem setIf_natCast {α : Type} (n : Nat) (f : Nat → α) (field : α) :
    setIf (n : Int) f field = f n := if_pos (Int.natCast_nonneg n)

@[simp] theorem setFlag_toNat (b field : Bool) : setFlag (b.toNat : Int) field = b := by
  unfold setFlag
  rw [setIf_natCast]
  cases b <;> rfl

theorem intAt_number {item : Item R} {key : List UInt8} {n : Nat} (hn : n < 2147483648)
    (h : getObjectItem item key = some (number (n : Int))) : intAt item key = n := by
  have hint : CNumber.toInt (CNumber.ofInt (R := R) (n : Int)) = Int32.ofInt n :=
    CNumber.toInt_ofInt _ (by omega) (by omega)
  unfold intAt getInt
  rw [h]
  show (CNumber.toInt (CNumber.ofInt (R := R) (n : Int))).toInt = n
  rw [hint, Int32.toInt_ofInt_of_le (by omega) (by omega)]

/-- A number beyond `int` is read as the largest one. -/
theorem intAt_number_large {item : Item R} {key : List UInt8} {n : Nat} (hn : 2147483648 ≤ n)
    (hlt : n < 4294967296) (h : getObjectItem item key = some (number (n : Int))) :
    intAt item key = 2147483647 := by
  have hint : CNumber.toInt (CNumber.ofInt (R := R) (n : Int)) = Int32.ofInt 2147483647 :=
    CNumber.toInt_ofInt_large _ (by omega) (by omega)
  unfold intAt getInt
  rw [h]
  show (CNumber.toInt (CNumber.ofInt (R := R) (n : Int))).toInt = 2147483647
  rw [hint]
  rfl

omit [CNumber R] in
theorem strAt_string {item : Item R} {key s : List UInt8}
    (h : getObjectItem item key = some (.string s)) : strAt item key = some (cstr s) := by
  unfold strAt getString
  rw [h]
  rfl

/-- A text in parts has no zero if its parts have none. -/
theorem zero_not_mem_intercalate {sep : UInt8} (hsep : sep ≠ 0) {parts : List (List UInt8)}
    (h : ∀ s ∈ parts, (0 : UInt8) ∉ s) : (0 : UInt8) ∉ [sep].intercalate parts := by
  induction parts with
  | nil => exact List.not_mem_nil
  | cons s parts ih =>
    have htail := ih fun t ht => h t (List.mem_cons_of_mem s ht)
    cases parts with
    | nil =>
      rw [List.intercalate_singleton]
      exact h s List.mem_cons_self
    | cons t parts =>
      rw [List.intercalate_cons_cons]
      simp only [List.mem_append, List.mem_singleton]
      rintro ((hmem | hzero) | hmem)
      · exact h s List.mem_cons_self hmem
      · exact hsep hzero.symm
      · exact htail hmem

/-- What a field keeps below `int` is kept by every setting. -/
theorem setIf_lt {v : Int} {field : UInt32} {bound : Nat} (h : field.toNat < bound)
    (hv : v < bound) (hbound : bound ≤ 4294967296) :
    (setIf v UInt32.ofNat field).toNat < bound := by
  unfold setIf
  split
  · rw [UInt32.toNat_ofNat_of_lt' (by show v.toNat < 4294967296; omega)]
    omega
  · exact h

theorem intAt_lt (item : Item R) (key : List UInt8) : intAt item key < 2147483648 :=
  Int32.toInt_lt _

/-- A `double` has every number of 32 bits. -/
class ExactNumber (R : Type) [CNumber R] : Prop where
  ofInt_inj : ∀ m n : Nat, m < 4294967296 → n < 4294967296 →
    CNumber.ofInt (R := R) (m : Int) = CNumber.ofInt (n : Int) → m = n

instance : ExactNumber Int := ⟨fun _ _ _ _ h => Int.ofNat.inj h⟩

/-- The numbers of an object are told apart. -/
theorem number_inj [ExactNumber R] {m n : Nat} (hm : m < 4294967296) (hn : n < 4294967296) :
    (number (m : Int) : Item R) = number (n : Int) ↔ m = n :=
  ⟨fun h => ExactNumber.ofInt_inj m n hm hn (Item.number.inj h), fun h => by rw [h]⟩

theorem number_flag_inj [ExactNumber R] {p q : Bool} :
    (number (p.toNat : Int) : Item R) = number (q.toNat : Int) ↔ p = q := by
  have hp := p.toNat_le
  have hq := q.toNat_le
  rw [number_inj (by omega) (by omega)]
  cases p <;> cases q <;> decide

end K64Gateway.Backup
