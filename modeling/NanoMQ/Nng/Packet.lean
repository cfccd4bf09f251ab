import NanoMQ.Library.Bytes

/-! Packet-level data shared by the handlers: reason codes, properties, topic lists. -/

namespace NanoMQ

/-- A topic name or filter as the stores see it: the bytes of a C string. -/
abbrev Topic := List UInt8

/-- Pipe ids; zero is not a pipe. -/
abbrev Pid := Nat

/-- The identity of an `nng_msg` object: clones of a message share it. -/
abbrev MsgId := Nat

/-- Return values and reason codes share one C integer type. -/
abbrev ReasonCode := Int

def SUCCESS : ReasonCode := 0
def GRANTED_QOS_2 : ReasonCode := 2
def UNSPECIFIED_ERROR : ReasonCode := 0x80
def PROTOCOL_ERROR : ReasonCode := 0x82
def TOPIC_FILTER_INVALID : ReasonCode := 0x8F
def PACKET_IDENTIFIER_IN_USE : ReasonCode := 0x91

def MQTT_PROTOCOL_VERSION_v311 : Nat := 4
def MQTT_PROTOCOL_VERSION_v5 : Nat := 5

-- MQTT 5 properties

/-- The value of a property; the constructor is the wire type of its identifier. -/
inductive PropertyValue where
  | u8 (value : Nat)
  | u16 (value : Nat)
  | u32 (value : Nat)
  | varint (value : Nat)
  | str (text : List UInt8)
  | binary (data : List UInt8)
  | pair (key value : List UInt8)
  deriving DecidableEq, Repr

structure Property where
  id : Nat
  value : PropertyValue
  deriving DecidableEq, Repr

def MESSAGE_EXPIRY_INTERVAL : Nat := 2
def SUBSCRIPTION_IDENTIFIER : Nat := 11
def TOPIC_ALIAS : Nat := 35

/-- `p_value.u16`: the low 16 bits of a numeric value. -/
def PropertyValue.asU16 : PropertyValue → Nat
  | .u8 value | .u16 value | .u32 value | .varint value => value % 65536
  | .str _ | .binary _ | .pair _ _ => 0

/-- The value of the first property with an identifier; a NULL list has none. -/
def propertyGetValue (properties : Option (List Property)) (id : Nat)
    : Option PropertyValue :=
  ((properties.getD []).find? (fun property => property.id == id)).map Property.value

-- Topic lists of SUBSCRIBE and UNSUBSCRIBE

/-- The subscription options: the bit fields in the first byte of a topic node. -/
structure TopicOptions where
  qos : Nat
  noLocal : Bool
  rap : Bool
  retainHandling : Nat
  deriving DecidableEq, Repr

def TopicOptions.zeroed : TopicOptions :=
  { qos := 0, noLocal := false, rap := false, retainHandling := 0 }

/-- One entry of a topic list; `topicLen` is the 32-bit length next to the (possibly NULL)
body.
-/
structure TopicNode where
  options : TopicOptions
  topicBody : Option (List UInt8)
  topicLen : Nat
  reasonCode : ReasonCode
  deriving DecidableEq, Repr

/-- A node as `nng_zalloc` returns it. -/
def TopicNode.zeroed : TopicNode :=
  { options := .zeroed, topicBody := none, topicLen := 0, reasonCode := 0 }

/-- A decoded SUBSCRIBE or UNSUBSCRIBE: packet id, properties and the linked topic list.
The NULL list is the empty one.
-/
structure TopicPacket where
  packetId : Nat
  properties : Option (List Property)
  propLen : Nat
  node : List TopicNode
  deriving DecidableEq, Repr

/-- A packet structure after `memset` with zero. -/
def TopicPacket.zeroed : TopicPacket :=
  { packetId := 0, properties := none, propLen := 0, node := [] }

/-- The C string behind a topic body. -/
def TopicNode.topicStr (node : TopicNode) : Option Topic :=
  node.topicBody.map Bytes.cstr

end NanoMQ
