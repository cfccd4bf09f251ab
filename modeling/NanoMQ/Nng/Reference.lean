import NanoMQ.Nng.Message

/-! A small instance of the parser interface, for concrete packets: ASCII strings, and
properties whose values have a fixed width.
-/

namespace NanoMQ

open Bytes

/-- The width in bytes of a property value, for identifiers with a fixed one. -/
def fixedWidth (id : Nat) : Option Nat :=
  if id ∈ [1, 23, 25, 36, 37, 40, 41, 42] then some 1
  else if id ∈ [19, 33, 34, 35] then some 2
  else if id ∈ [2, 17, 24, 39] then some 4
  else none

/-- The big-endian value of some bytes. -/
def bigEndian (bytes : List UInt8) : Nat :=
  bytes.foldl (fun value byte => value * 256 + byte.toNat) 0

/-- A value of this width. -/
def fixedValue (width value : Nat) : PropertyValue :=
  if width = 1 then .u8 value else if width = 2 then .u16 value else .u32 value

/-- Read properties of fixed width, with one unit of fuel for each. -/
def readFixed : Nat → List UInt8 → Option (List Property)
  | _, [] => some []
  | 0, _ :: _ => none
  | fuel + 1, id :: rest =>
      match fixedWidth id.toNat with
      | none => none
      | some width =>
          if rest.length < width then none
          else
            (readFixed fuel (rest.drop width)).map
              (fun properties =>
                { id := id.toNat, value := fixedValue width (bigEndian (rest.take width)) }
                :: properties)

/-- The bytes of a property of fixed width. -/
def writeFixed (property : Property) : Option (List UInt8) :=
  match property.value with
  | .u8 value => some [UInt8.ofNat property.id, UInt8.ofNat value]
  | .u16 value => some (UInt8.ofNat property.id :: putU16 value)
  | .u32 value =>
      some (UInt8.ofNat property.id :: (putU16 (value / 65536) ++ putU16 (value % 65536)))
  | .varint _ | .str _ | .binary _ | .pair _ _ => none

/-- A property section: its length, then the properties. -/
def readSection (bytes : List UInt8) : Option PropertySection :=
  match getVarint 4 bytes with
  | none => none
  | some (len, rest) =>
      if rest.length < len then none
      else
        (readFixed len (rest.take len)).map
          (fun properties =>
            {
              properties := if len = 0 then none else some properties
              propLen := len
              consumed := bytes.length - rest.length + len
            })

theorem readSection_append {content rest : List UInt8} {properties : List Property}
    (fits : content.length < 128 ^ 4)
    (parsed : readFixed content.length content = some properties)
    : readSection (putVarint 4 content.length ++ content ++ rest)
      = some {
          properties := if content.length = 0 then none else some properties
          propLen := content.length
          consumed := (putVarint 4 content.length ++ content).length
        } := by
  have enough : ¬(content ++ rest).length < content.length := by simp
  unfold readSection
  rw [List.append_assoc, getVarint_putVarint 3 _ _ fits]
  have consumed
      : (putVarint 4 content.length ++ (content ++ rest)).length - (content ++ rest).length
          + content.length
        = (putVarint 4 content.length ++ content).length := by
    simp only [List.length_append]
    omega
  simp only [enough, if_false, List.take_left, parsed, Option.map_some, consumed]

def writeSection (properties : Option (List Property)) : Option (List UInt8) :=
  ((properties.getD []).mapM writeFixed).map
    (fun parts => putVarint 4 parts.flatten.length ++ parts.flatten)

/-- The parser on ASCII strings and properties of fixed width. A rejected string is
skipped by its length field only.
-/
def referenceParser : MqttParser :=
  {
    utf8Check := fun text => text.all (fun byte => byte != 0 && byte.toNat < 128)
    copynRejectSkip := fun _ => 2
    copyRejectSkip := fun _ => 2
    propertySection := readSection
    badSectionSkip := fun _ => 0
    checkProperties := fun _ => true
    encodeProperties := fun properties _ => writeSection properties
    topicOptions := fun byte =>
      {
        qos := byte.toNat % 4
        noLocal := byte.toNat / 4 % 2 == 1
        rap := byte.toNat / 8 % 2 == 1
        retainHandling := byte.toNat / 16
      }
  }

/-- A connection of this protocol version without a will. -/
def ConnParam.plain (protover : Nat) : ConnParam :=
  {
    id := 0
    protover
    willFlag := false
    willTopic := none
    willMsg := none
    willQos := 0
    willRetain := false
    willProperty := none
  }

/-- A message as the transport delivers it: the remaining length is the body length. -/
def NngMsg.received (cmdType : CmdType) (header body : List UInt8) (pipe : Pid)
    (connParam : ConnParam)
    : NngMsg :=
  {
    header
    body
    remainingLen := body.length
    cmdType
    pipe
    payloadPtr := 2
    timestamp := 0
    protoProperty := none
    connParam
  }

end NanoMQ
