import Pmx.Library.BoundedFifo
import Pmx.Osc.Message
import Pmx.Osc.Path

/-!
# pmx-filter-chain-ctrl

The signal processor reads OSC packets and queues, for every packet with an
accepted address, the node id of the filter chain the packet is for together
with its value.  `filter_controller_thread` pops the queue and sets the control
that the message names on that node.

The queue's `push` result is not looked at, and an OSC argument of the wrong
type raises; both are in the model.
-/

namespace Pmx.FilterChainCtrl

open Cxx Osc

/-- `pwcpp::property::property_value_type`. -/
inductive PropertyValue
  | int (value : ℤ)
  | long (value : ℤ)
  | float (value : ℚ)
  | double (value : ℚ)
  | string (value : Str)
  | bool (value : Bool)
  | none

def PropertyValue.asInt : PropertyValue → Option ℤ
  | .int value => some value
  | _ => Option.none

def PropertyValue.asLong : PropertyValue → Option ℤ
  | .long value => some value
  | _ => Option.none

/-- `tools::get_from_collection<T>`, where `alternative` is the alternative `T`
of the variant.  The iterator is read without a test for the end. -/
def getFromCollection {T : Type*} (alternative : PropertyValue → Option T) (name : Str)
    (parameters : List (Str × PropertyValue)) : Except Fault (Option T) :=
  match parameters.find? fun parameter => parameter.1 = name with
  | some parameter => .ok (alternative parameter.2)
  | none => .error .indexOutOfBounds

/-- What the signal processor hands to the thread, `queue_message`. -/
structure QueueMessage where
  path : OscPath
  filterChainId : ℤ
  value : ℚ

/-- The conversion of a `long` to `int`. -/
def intOfLong (value : ℤ) : ℤ :=
  value.bmod 4294967296

/-- The node id under `name`: an `int`, or a `long` converted to one. -/
def filterChainId (name : Str) (parameters : List (Str × PropertyValue)) :
    Except Fault (Option ℤ) := do
  match ← getFromCollection PropertyValue.asInt name parameters with
  | some id => return some id
  | none => do
      let fcLong ← getFromCollection PropertyValue.asLong name parameters
      return fcLong.map intOfLong

variable {capacity : ℕ}

/-- `get_filter_chain_id_and_add_to_queue`. -/
def getFilterChainIdAndAddToQueue (queue : BoundedFifo capacity QueueMessage) (name : Str)
    (parameters : List (Str × PropertyValue)) (oscPath : OscPath) (message : OscMessage) :
    Except Fault (Bool × BoundedFifo capacity QueueMessage) := do
  match ← filterChainId name parameters with
  | some id => do
      let value ← message.float32
      return (true, (queue.push ⟨oscPath, id, value⟩).2)
  | none => return (false, queue)

/-- The node parameter of the chain a path is for. -/
def nodeParameterName (oscPath : OscPath) : Option Str :=
  match oscPath.channelType with
  | .input => some (lit "inputChannels")
  | .group =>
      match oscPath.layer with
      | .A => some (lit "groupChannelsA")
      | .B => some (lit "groupChannelsB")
  | .layer => some (lit "layerChannels")
  | .none => none

/-- What the packet loop carries: the queue, whether the consumer is to be woken
up, and the invalid paths it has logged. -/
structure LoopState (capacity : ℕ) where
  queue : BoundedFifo capacity QueueMessage
  wakeupConsumer : Bool
  log : List Str

/-- The log entry of an address that the parser rejects. -/
def LoopState.logInvalidPath (state : LoopState capacity) (error : Error) : LoopState capacity :=
  { state with log := state.log ++ [lit "Invalid OSC path, " ++ error.message] }

/-- One packet of the loop. -/
def handlePacket (parameters : List (Str × PropertyValue)) (state : LoopState capacity)
    (message : OscMessage) : Except Fault (LoopState capacity) := do
  match ← parseOscPath message.address with
  | .ok oscPath =>
      match nodeParameterName oscPath with
      | some name => do
          let (added, queue) ←
            getFilterChainIdAndAddToQueue state.queue name parameters oscPath message
          return { state with queue, wakeupConsumer := state.wakeupConsumer || added }
      | none => return state
  | .error error => return state.logInvalidPath error

/-- The packet loop of the signal processor. -/
def packetLoop (parameters : List (Str × PropertyValue)) (state : LoopState capacity)
    (packets : List OscMessage) : Except Fault (LoopState capacity) :=
  packets.foldlM (handlePacket parameters) state

/-! ## The control of a message -/

/-- `device_number`: a `uint8_t`. -/
def deviceNumber (path : OscPath) : UInt8 :=
  match path.layer with
  | .A => path.channelId.toUInt8
  | .B => (16 + path.channelId).toUInt8

/-- The node of the filter graph that `parameter_name` starts with. -/
def nodeName (path : OscPath) : Option Str :=
  match path.channelType with
  | .input => some (path.parameter.deviceName ++ lit "-" ++ decimal (deviceNumber path).toNat)
  | .group => some (path.parameter.deviceName ++ lit "-G" ++ decimal path.channelId)
  | .layer =>
      match path.layer with
      | .A => some (path.parameter.deviceName ++ lit "-A")
      | .B => some (path.parameter.deviceName ++ lit "-B")
  | .none => none

/-- `parameter_name` of `filter_controller_thread`. -/
def parameterName (path : OscPath) : Option Str :=
  (nodeName path).map fun node => node ++ lit ":" ++ path.parameter.name

end Pmx.FilterChainCtrl
