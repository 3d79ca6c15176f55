import Pmx.Library.Cxx
import Pmx.Library.PodBuilder

/-!
# Pods

A pod is a value with its type and size; a struct pod holds pods one after the
other, and an object pod holds pods under keys.  Every pod has a header of eight
bytes and a body that is padded to eight.  A string ends at the NUL that closes
its body, so that reading one gives the bytes up to the first NUL.

Floats are values of any two types `F` and `D`: they are only copied.
-/

namespace SpaPod

open Cxx PodBuilder

/-- `string`: the body in front of its closing NUL.  `other`: any other type,
with its number. -/
inductive Pod (F D : Type)
  | none
  | bool (value : Bool)
  | int (value : Int32)
  | long (value : Int64)
  | float (value : F)
  | double (value : D)
  | string (body : Str)
  | struct (fields : List (Pod F D))
  | other (type : ℕ) (body : Str)

variable {F D : Type}

namespace Pod

/-- `spa_pod_get_string`.  Another pod leaves the pointer as it was. -/
def getString : Pod F D → Except Fault Str
  | .string body => .ok (cStr body)
  | _ => .error .indexOutOfBounds

/-- The pods that `SPA_POD_STRUCT_FOREACH` visits.  Of a pod that is no struct it
takes the body for pods. -/
def fields : Pod F D → Except Fault (List (Pod F D))
  | .struct fields => .ok fields
  | _ => .error .indexOutOfBounds

mutual

/-- The bytes of a body, without its padding. -/
def bodySize : Pod F D → ℕ
  | .none => 0
  | .bool _ => 4
  | .int _ => 4
  | .long _ => 8
  | .float _ => 4
  | .double _ => 8
  | .string body => body.length + 1
  | .struct fields => fieldsSize fields
  | .other _ body => body.length

def fieldsSize : List (Pod F D) → ℕ
  | [] => 0
  | field :: rest => podSize (bodySize field) + fieldsSize rest

end

end Pod

/-- The keys of properties. -/
inductive PropertyKey
  | params
  | other (key : ℕ)
  deriving DecidableEq

/-- An object pod. -/
structure Object (F D : Type) where
  properties : List (PropertyKey × Pod F D)

namespace Object

/-- `spa_pod_find_prop` from the start of the object. -/
def findProp (object : Object F D) (key : PropertyKey) : Option (Pod F D) :=
  object.properties.lookup key

/-- The bytes of an object: its header, its type and id, and a key with flags in
front of every value. -/
def size (object : Object F D) : ℕ :=
  podSize (8 + (object.properties.map fun property => 8 + podSize property.2.bodySize).sum)

/-- `spa_pod_builder_pop` of the outermost frame: the object, if all of it was
written. -/
def pop (bufferSize : ℕ) (object : Object F D) : Option (Object F D) :=
  if object.size ≤ bufferSize then some object else none

end Object

end SpaPod
