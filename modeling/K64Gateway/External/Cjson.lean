import K64Gateway.Lib.CString

/-
  The trees of `drivers/cjson/cJSON.c`, and the lookups and constructors that the gateway's
  configuration code uses. A node has its `valuestring`, `valueint` and `valuedouble` whatever
  its type is; keys are compared without case.

  The numbers of type `double` are an abstract type; what the code relies on in the conversions
  from and to it is the class `CNumber`.
-/

namespace K64Gateway.Cjson

open CString

/-- The conversions of a `double`. A value that is out of the range of `int` is converted to
    the nearest one that is not. -/
class CNumber (R : Type) where
  ofInt : Int → R
  /-- `(int)x` -/
  toInt : R → Int32
  /-- `(float)x` -/
  toFloat : R → R
  toInt_ofInt : ∀ n : Int, -2147483648 ≤ n → n < 2147483648 → toInt (ofInt n) = Int32.ofInt n
  toInt_ofInt_large : ∀ n : Int, 2147483648 ≤ n → n < 4294967296 →
    toInt (ofInt n) = Int32.ofInt 2147483647
  toFloat_zero : toFloat (ofInt 0) = ofInt 0
  toFloat_toFloat : ∀ x, toFloat (toFloat x) = toFloat x

/-- Whole numbers, for closed examples. -/
instance : CNumber Int where
  ofInt := id
  toInt n := Int32.ofInt (max (-2147483648) (min 2147483647 n))
  toFloat := id
  toInt_ofInt n h1 h2 := by
    show Int32.ofInt (max (-2147483648) (min 2147483647 n)) = _
    rw [show max (-2147483648) (min 2147483647 n) = n by omega]
  toInt_ofInt_large n h1 h2 := by
    show Int32.ofInt (max (-2147483648) (min 2147483647 n)) = _
    rw [show max (-2147483648) (min 2147483647 n) = 2147483647 by omega]
  toFloat_zero := rfl
  toFloat_toFloat _ := rfl

/-- `cJSON`. The `string` of a child of an object is its key. -/
inductive Item (R : Type) where
  | null
  | false
  | true
  | number (valuedouble : R)
  | string (valuestring : List UInt8)
  | array (child : List (Item R))
  | object (child : List (List UInt8 × Item R))

variable {R : Type} [CNumber R]

def Item.valueint : Item R → Int32
  | .true => 1
  | .number valuedouble => CNumber.toInt valuedouble
  | _ => 0

def Item.valuedouble : Item R → R
  | .number valuedouble => valuedouble
  | _ => CNumber.ofInt 0

omit [CNumber R] in
def Item.valuestring : Item R → Option (List UInt8)
  | .string valuestring => some valuestring
  | _ => none

/-! ## Lookup -/

def tolower (c : UInt8) : UInt8 := if 65 ≤ c ∧ c ≤ 90 then c + 32 else c

/-- `cJSON_strcasecmp(s1, s2) == 0` -/
def strcaseeq (s1 s2 : List UInt8) : Bool := s1.map tolower == s2.map tolower

/-- The first of the children with this key. -/
def member (key : List UInt8) (child : List (List UInt8 × Item R)) : Option (Item R) :=
  (child.find? fun c => strcaseeq c.1 key).map Prod.snd

/-- `cJSON_GetObjectItem`. The children of an array have no key. -/
def getObjectItem (object : Item R) (key : List UInt8) : Option (Item R) :=
  match object with
  | .object child => member key child
  | _ => none

/-- `cJSON_GetInt` -/
def getInt (object : Item R) (key : List UInt8) (dflt : Int32) : Int32 :=
  match getObjectItem object key with
  | some c => c.valueint
  | none => dflt

/-- `cJSON_GetString`, with `VAR_NULL` for a missing item. -/
def getString (object : Item R) (key : List UInt8) : Option (List UInt8) :=
  match getObjectItem object key with
  | some c => c.valuestring
  | none => none

/-- `cJSON_GetDouble` -/
def getDouble (object : Item R) (key : List UInt8) (dflt : R) : R :=
  match getObjectItem object key with
  | some c => c.valuedouble
  | none => dflt

/-! ## Construction -/

/-- `cJSON_AddNumberToObject` of an integer. -/
def number (n : Int) : Item R := .number (CNumber.ofInt n)

/-- The children that are added if `b` holds. -/
def addIf (b : Bool) (key : List UInt8) (c : Item R) : List (List UInt8 × Item R) :=
  if b then [(key, c)] else []

omit [CNumber R]

theorem member_cons (key k : List UInt8) (c : Item R) (l : List (List UInt8 × Item R)) :
    member key ((k, c) :: l) = if strcaseeq k key then some c else member key l := by
  unfold member
  rw [List.find?_cons]
  cases strcaseeq k key <;> rfl

theorem member_append (key : List UInt8) (l m : List (List UInt8 × Item R)) :
    member key (l ++ m) = (member key l).or (member key m) := by
  unfold member
  rw [List.find?_append]
  cases l.find? _ <;> rfl

theorem member_addIf (key k : List UInt8) (b : Bool) (c : Item R) :
    member key (addIf b k c) = if strcaseeq k key && b then some c else none := by
  cases b with
  | false => rw [Bool.and_false]; rfl
  | true =>
    rw [Bool.and_true]
    exact member_cons key k c []

end K64Gateway.Cjson
