import NanoMQ.Library.Reading
import NanoMQ.Nng.Packet

/-! Messages of nng and the functions of `mqtt_parser.h` that the handlers call.
The sources of nng are not part of this repository. Its parsing functions are the fields
of `MqttParser`; what a caller relies on is a hypothesis about them.
-/

namespace NanoMQ

open Bytes Reading

-- Messages

/-- The command types the broker distinguishes. -/
inductive CmdType where
  | CONNACK
  | PUBLISH
  | PUBLISH_V5
  | PUBACK
  | PUBREC
  | PUBREL
  | PUBCOMP
  | SUBSCRIBE
  | SUBACK
  | UNSUBSCRIBE
  | UNSUBACK
  | DISCONNECT_EV
  | other (code : UInt8)
  deriving DecidableEq, Repr

/-- The fixed header byte of an acknowledgement. -/
def CMD_SUBACK_BYTE : UInt8 := 0x90
def CMD_UNSUBACK_BYTE : UInt8 := 0xB0

/-- The control packet types of the fixed header. -/
def CONNACK : BitVec 4 := 2
def PUBLISH : BitVec 4 := 3
def PUBACK : BitVec 4 := 4
def PUBREC : BitVec 4 := 5
def PUBREL : BitVec 4 := 6
def PUBCOMP : BitVec 4 := 7

/-- The connection parameters that the broker reads; clones share the identity. -/
structure ConnParam where
  id : Nat
  protover : Nat
  willFlag : Bool
  willTopic : Option (List UInt8)
  willMsg : Option (List UInt8)
  willQos : BitVec 2
  willRetain : Bool
  willProperty : Option (List Property)
  deriving DecidableEq, Repr

/-- The contents of an `nng_msg`. The payload pointer is an offset into the body. -/
structure NngMsg where
  header : List UInt8
  body : List UInt8
  remainingLen : Nat
  cmdType : CmdType
  pipe : Pid
  payloadPtr : Nat
  timestamp : Nat
  protoProperty : Option (List Property)
  connParam : ConnParam
  deriving DecidableEq, Repr

/-- The type that `nng_msg_get_type` reports: the upper half of the first header byte. -/
def NngMsg.type (msg : NngMsg) : BitVec 4 :=
  (msg.header.headD 0).toBitVec.extractLsb' 4 4

/-- The message addressed to a pipe. -/
def NngMsg.setPipe (msg : NngMsg) (pipe : Pid) : NngMsg :=
  { msg with pipe }

/-- The message marked with a command type. -/
def NngMsg.setCmdType (msg : NngMsg) (cmdType : CmdType) : NngMsg :=
  { msg with cmdType }

/-- The message with properties attached to it, next to its bytes. -/
def NngMsg.protoSetProperty (msg : NngMsg) (properties : Option (List Property)) : NngMsg :=
  { msg with protoProperty := properties }

-- mqtt_parser.h

/-- A property section at some position of a body: its list (NULL when it is empty), the
property length and the number of bytes it takes.
-/
structure PropertySection where
  properties : Option (List Property)
  propLen : Nat
  consumed : Nat
  deriving DecidableEq, Repr

/-- The parsing functions of nng. -/
structure MqttParser where
  /-- Whether `utf8_check` reports success. -/
  utf8Check : List UInt8 → Bool
  /-- How far `copyn_utf8_str` advances when it rejects a string of this length. -/
  copynRejectSkip : Nat → Nat
  /-- How far `copy_utf8_str` advances when it rejects a string of this length. -/
  copyRejectSkip : Nat → Nat
  /-- The property section at the start of these bytes, if there is a valid one. -/
  propertySection : List UInt8 → Option PropertySection
  /-- How far `decode_properties` advances when there is none. -/
  badSectionSkip : List UInt8 → Nat
  /-- Whether `check_properties` returns 0. -/
  checkProperties : Option (List Property) → Bool
  /-- The bytes `encode_properties` appends, unless it fails. -/
  encodeProperties : Option (List Property) → CmdType → Option (List UInt8)
  /-- The bit fields of an option byte. -/
  topicOptions : UInt8 → TopicOptions

/-- A pointer and length pair as the string readers return it, and how far they advance;
length -1 marks a rejection.
-/
structure StrResult where
  body : Option (List UInt8)
  len : Int
  used : Nat
  deriving DecidableEq, Repr

section Parser

variable (nng : MqttParser) (buffer : Buffer)

/-- Copy a string that ends within the limit. -/
def copynUtf8Str (pos limit : Nat) : Reader StrResult := do
  let count ← buffer.get16 pos
  if count = 0 then
    return { body := none, len := 0, used := 2 }
  else if pos + 2 + count ≤ limit then do
    let text ← buffer.span (pos + 2) count
    if nng.utf8Check text then
      return { body := some text, len := count, used := 2 + count }
    else
      return { body := none, len := -1, used := nng.copynRejectSkip count }
  else
    return { body := none, len := -1, used := nng.copynRejectSkip count }

/-- Copy a string, however long it says it is. -/
def copyUtf8Str (pos : Nat) : Reader StrResult := do
  let text ← buffer.getString pos
  if text = [] then
    return { body := none, len := 0, used := 2 }
  else if nng.utf8Check text then
    return { body := some text, len := text.length, used := 2 + text.length }
  else
    return { body := none, len := -1, used := nng.copyRejectSkip text.length }

/-- Point at a string inside the message. For the empty string the pointer keeps what it
held before.
-/
def getUtf8Str (old : Option (List UInt8)) (pos : Nat) : Reader StrResult := do
  let text ← buffer.getString pos
  if text = [] then
    return { body := old, len := 0, used := 2 }
  else if nng.utf8Check text then
    return { body := some text, len := text.length, used := 2 + text.length }
  else
    return { body := none, len := -1, used := 2 }

/-- The property section at a position. Its decoding does not read outside of the body.
-/
def decodeProperties (body : List UInt8) (pos : Nat) : PropertySection :=
  match nng.propertySection (body.drop pos) with
  | some found => found
  | none =>
      { properties := none, propLen := 0, consumed := nng.badSectionSkip (body.drop pos) }

end Parser

end NanoMQ
