import Liangshi.MessagePack.Encode
import Mathlib.Data.List.Basic

/-!
# Converting objects to values

A `Codec` packs the values of a type as objects and converts objects back, failing where the C++
library throws a type error; that a packed value converts back to itself is a field.  The codecs
below are the library's for integers, booleans, doubles, strings and vectors.

A record packs as the array of its fields.  Converting an array to a record reads the fields by
position with `Codec.field`: a field past the end of the array keeps its default, and further
items are ignored.
-/

namespace MessagePack

open Wire

/-- Packing the values of a type as objects, and converting objects back. -/
structure Codec (α : Type) where
  toObj : α → Obj
  convert : Obj → Option α
  convert_toObj : ∀ a, convert (toObj a) = some a

namespace Codec

attribute [simp] Codec.convert_toObj

variable {α : Type}

/-- The items of an array object; converting anything else is a type error. -/
def items : Obj → Option (List Obj)
  | .array items => some items
  | _ => none

/-- The items of an array. -/
@[simp] lemma items_array (objs : List Obj) : items (.array objs) = some objs := rfl

/-- The field at position `i` of a record, or its default where the array is too short. -/
def field (c : Codec α) (objs : List Obj) (i : Nat) (default : α) : Option α :=
  match objs[i]? with
  | some o => c.convert o
  | none => some default

/-- The first field. -/
@[simp] lemma field_cons_zero (c : Codec α) (a : α) (objs : List Obj) (default : α) :
    c.field (c.toObj a :: objs) 0 default = some a := by
  simp [field]

/-- A field further behind. -/
@[simp] lemma field_cons_succ (c : Codec α) (o : Obj) (objs : List Obj) (i : Nat) (default : α) :
    c.field (o :: objs) (i + 1) default = c.field objs i default := by
  simp [field]

/-! ## The library's codecs -/

/-- Convert to a signed integer between `lo` and `hi`. -/
def convertInteger (lo hi : Int) : Obj → Option Int
  | .posInt n => if (n : Int) ≤ hi then some n else none
  | .negInt i => if lo ≤ i then some i else none
  | _ => none

/-- An integer within the bounds converts back to itself. -/
lemma convertInteger_ofInt {lo hi i : Int} (hlo : lo ≤ i) (hhi : i ≤ hi) :
    convertInteger lo hi (.ofInt i) = some i := by
  unfold Obj.ofInt
  split
  · have hcast : (i.toNat : Int) = i := Int.toNat_of_nonneg ‹_›
    simp only [convertInteger, hcast, if_pos hhi]
  · simp only [convertInteger, if_pos hlo]

/-- A 32-bit integer. -/
def int32 : Codec Int32 where
  toObj i := .ofInt i.toInt
  convert o := (convertInteger (-2 ^ 31) (2 ^ 31 - 1) o).map Int32.ofInt
  convert_toObj i := by
    have hlo := Int32.le_toInt i
    have hhi := Int32.toInt_lt i
    rw [convertInteger_ofInt (by omega) (by omega), Option.map_some, Int32.ofInt_toInt]

/-- An integer that is not negative converts when it fits. -/
lemma int32_convert_posInt (n : Nat) :
    int32.convert (.posInt n) = if n < 2 ^ 31 then some (Int32.ofInt n) else none := by
  simp only [int32, convertInteger]
  by_cases h : n < 2 ^ 31
  · rw [if_pos h, if_pos (by omega), Option.map_some]
  · rw [if_neg h, if_neg (by omega), Option.map_none]

/-- An 8-bit integer. -/
def int8 : Codec Int8 where
  toObj i := .ofInt i.toInt
  convert o := (convertInteger (-2 ^ 7) (2 ^ 7 - 1) o).map Int8.ofInt
  convert_toObj i := by
    have hlo := Int8.le_toInt i
    have hhi := Int8.toInt_lt i
    rw [convertInteger_ofInt (by omega) (by omega), Option.map_some, Int8.ofInt_toInt]

/-- A boolean. -/
def bool : Codec Bool where
  toObj b := .boolean b
  convert
    | .boolean b => some b
    | _ => none
  convert_toObj _ := rfl

/-- A double, by its bits. -/
def double : Codec UInt64 where
  toObj bits := .double bits
  convert
    | .double bits => some bits
    | _ => none
  convert_toObj _ := rfl

/-- A string, by its bytes. -/
def string : Codec Bytes where
  toObj bytes := .raw bytes
  convert
    | .raw bytes => some bytes
    | _ => none
  convert_toObj _ := rfl

/-- Packed values convert back one by one. -/
lemma mapM_convert_map_toObj (c : Codec α) (values : List α) :
    (values.map c.toObj).mapM c.convert = some values := by
  induction values with
  | nil => rfl
  | cons value values ih => simp [ih]

/-- A vector. -/
def vector (c : Codec α) : Codec (List α) where
  toObj values := .array (values.map c.toObj)
  convert o := (items o).bind fun objs => objs.mapM c.convert
  convert_toObj values := c.mapM_convert_map_toObj values

end Codec

end MessagePack
