import Mathlib.Data.List.Induction
import Pmx.ConnectOscPorts
import Pmx.Library.Cxx

/-!
# `ProxyCollection` and `LinkCollection`

The console keeps the nodes and ports, and the links, that WirePlumber has told it
of.  Both collections only grow: what is removed from the graph stays in them.
-/

namespace Pmx.ProxyCollection

open Cxx

/-- `wpcpp::proxy_type`. -/
inductive ProxyType
  | port
  | node
  | unknown
  deriving DecidableEq, Repr

/-- `wpcpp::proxy`. -/
structure Proxy where
  objectId : ℕ
  name : Str
  path : Str
  type : ProxyType
  nodeId : Option ℕ
  deriving DecidableEq, Repr

/-- `wpcpp::link`. -/
structure Link where
  objectId : ℕ
  outputPortId : ℕ
  inputPortId : ℕ
  outputNodeId : ℕ
  inputNodeId : ℕ
  deriving DecidableEq, Repr

/-- A node or a port that is added, with those of its properties that are read; the
collection has no interest in other objects. -/
inductive GlobalObject
  | node (objectId : ℕ) (nodeName path : Option Str)
  | port (objectId nodeId : ℕ) (portName path : Option Str)
      (direction : Direction)
  deriving DecidableEq, Repr

def GlobalObject.objectId : GlobalObject → ℕ
  | .node objectId _ _ => objectId
  | .port objectId _ _ _ _ => objectId

def GlobalObject.direction : GlobalObject → Option Direction
  | .node _ _ _ => none
  | .port _ _ _ _ direction => some direction

/-- `safe_string`. -/
def safeString (str : Option Str) : Str :=
  str.getD []

/-- `proxy_added_callback`: the proxy that is pushed back. -/
def proxyAdded : GlobalObject → Proxy
  | .node objectId nodeName path => ⟨objectId, safeString nodeName, safeString path, .node, none⟩
  | .port objectId nodeId portName path _ =>
      ⟨objectId, safeString portName, safeString path, .port, some nodeId⟩

/-- `get_proxies`, after some objects have been added. -/
def getProxies (added : List GlobalObject) : List Proxy :=
  added.map proxyAdded

/-! ## What is in the collection -/

@[simp] theorem objectId_proxyAdded (object : GlobalObject) :
    (proxyAdded object).objectId = object.objectId := by
  cases object <;> rfl

end Pmx.ProxyCollection
