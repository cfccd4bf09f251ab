import NanoMQ.Rest.Config

/-! cJSON values with the doubles and the member names that they hold, as the handlers of
MQTT requests read them.
-/

namespace NanoMQ.Rest

open Bytes

/-- A double as cJSON parses it; a number that is too large becomes infinite. -/
inductive Double where
  | finite (value : ℚ)
  | infinite (negative : Bool)
  deriving DecidableEq

namespace Double

/-- The integer part. -/
def truncate : Double → Option Int
  | .finite value => some (if 0 ≤ value then ⌊value⌋ else ⌈value⌉)
  | .infinite _ => none

/-- `valueint`, which cJSON keeps in the range of `int`. -/
def valueint : Double → Int
  | .finite value =>
      if 2 ^ 31 - 1 ≤ value then 2 ^ 31 - 1
      else if value ≤ -2 ^ 31 then -2 ^ 31
      else if 0 ≤ value then ⌊value⌋ else ⌈value⌉
  | .infinite negative => if negative then -2 ^ 31 else 2 ^ 31 - 1

/-- The conversion to an unsigned type. Outside of its range the machine gives some value. -/
def toUnsigned (wild : Double → Nat) (bits : Nat) (double : Double) : Nat :=
  match double.truncate with
  | some part => if 0 ≤ part ∧ part < 2 ^ bits then part.toNat else wild double % 2 ^ bits
  | none => wild double % 2 ^ bits

/-- The number that a double denotes, where it is a natural number. -/
def toNat (double : Double) : Nat :=
  (double.truncate.getD 0).toNat

theorem truncate_natCast (n : Nat) : (Double.finite n).truncate = some (n : Int) := by
  simp [truncate]

theorem toNat_natCast (n : Nat) : (Double.finite n).toNat = n := by
  simp [toNat, truncate_natCast]

theorem toUnsigned_natCast (wild : Double → Nat) {bits n : Nat} (inRange : n < 2 ^ bits)
    : (Double.finite n).toUnsigned wild bits = n := by
  have bound : (n : Int) < 2 ^ bits := by exact_mod_cast inRange
  simp [toUnsigned, truncate_natCast, bound]

end Double

inductive CJson where
  | null
  | bool (value : Bool)
  | number (valuedouble : Double)
  | string (valuestring : Text)
  | array (items : List CJson)
  | object (members : List (Text × CJson))

namespace CJson

def lowerByte (byte : UInt8) : UInt8 :=
  if 65 ≤ byte.toNat ∧ byte.toNat ≤ 90 then byte + 32 else byte

/-- `cJSON_GetObjectItem`: the first member of this name, without regard to case. -/
def getObjectItem (json : CJson) (name : Text) : Option CJson :=
  match json with
  | .object members =>
      (members.find? fun member => member.1.map lowerByte == name.map lowerByte).map Prod.snd
  | _ => none

/-- `getNumberValue`: the value, where `rv` is 0. -/
def getNumberValue (json : CJson) (name : Text) : Option Double :=
  match json.getObjectItem name with
  | some (.number valuedouble) => some valuedouble
  | _ => none

/-- `getStringValue`: the value, where `rv` is 0. -/
def getStringValue (json : CJson) (name : Text) : Option Text :=
  match json.getObjectItem name with
  | some (.string valuestring) => some valuestring
  | _ => none

/-- What `cJSON_ArrayForEach` visits, with the name that each item has; the items of an array
have none.
-/
def children : Option CJson → List (Option Text × CJson)
  | some (.array items) => items.map fun item => (none, item)
  | some (.object members) => members.map fun member => (some member.1, member.2)
  | _ => []

/-- The members of an object. -/
def members : Option CJson → List (Text × CJson)
  | some (.object members) => members
  | _ => []

end CJson

end NanoMQ.Rest
