import NanoMQ.Nng.Packet

/-! The frame that carries an MQTT message over the inproc socket, from the REST interface to
the broker: header, body and client id, each behind its length, and the protocol version.
-/

namespace NanoMQ.Inproc

open Bytes

/-- A message in its encoded form. -/
structure Wire where
  header : List UInt8
  body : List UInt8
  deriving DecidableEq, Repr

/-- The codecs of the library. -/
inductive Codec where
  | mqtt
  | mqttv5
  deriving DecidableEq, Repr

/-- Both functions select the codec by the protocol version. -/
def codecOf (protoVer : UInt8) : Codec :=
  if protoVer.toNat = MQTT_PROTOCOL_VERSION_v5 then .mqttv5 else .mqtt

/-- The connection parameters that `create_cparam` sets. -/
structure ConnParam where
  clientid : List UInt8
  protoVer : UInt8
  deriving DecidableEq, Repr

/-- A read behind the frame, or a copy that is longer than its buffer. -/
inductive Fault where
  | pastFrame
  | pastBuffer
  deriving DecidableEq, Repr

/-- What `decode_common_mqtt_msg` makes of a frame: the message as copied and as decoded, the
codec and the connection parameters. The bytes behind the last read are left.
-/
structure Received (Msg : Type) where
  wire : Wire
  codec : Codec
  msg : Msg
  cparam : ConnParam
  unread : List UInt8
  deriving DecidableEq, Repr

section Frame

variable {Msg : Type} (encode : Codec → Msg → Wire) (decode : Codec → Wire → Msg)

def encodeCommonMqttMsg (src : Msg) (clientid : CString) (protoVer : UInt8) : List UInt8 :=
  let wire := encode (codecOf protoVer) src
  putU32 wire.header.length ++ wire.header
  ++ (putU32 wire.body.length ++ wire.body)
  ++ (putU32 clientid.bytes.length ++ clientid.bytes)
  ++ [protoVer]

/-- Read a length, then as many bytes. -/
def readField (ptr : List UInt8) : Except Fault (List UInt8 × List UInt8) :=
  match takeU32 ptr with
  | none => .error .pastFrame
  | some (size, rest) =>
      if size ≤ rest.length then .ok (rest.take size, rest.drop size) else .error .pastFrame

/-- The client id as a C string, in a buffer of `clientid_sz + 1` bytes. The size is computed
in 32 bits.
-/
def copyClientid (bytes : List UInt8) : Except Fault (List UInt8) :=
  if bytes.length ≤ (bytes.length + 1) % 2 ^ 32 then .ok (cstr bytes) else .error .pastBuffer

def readVersion : List UInt8 → Except Fault (UInt8 × List UInt8)
  | [] => .error .pastFrame
  | protoVer :: rest => .ok (protoVer, rest)

/-- The second half of `decode_common_mqtt_msg`, behind header and body. -/
def decodeConnection (wire : Wire) (ptr : List UInt8) : Except Fault (Received Msg) := do
  let (bytes, ptr) ← readField ptr
  let clientid ← copyClientid bytes
  let (protoVer, unread) ← readVersion ptr
  let codec := codecOf protoVer
  return { wire, codec, msg := decode codec wire, cparam := { clientid, protoVer }, unread }

def decodeCommonMqttMsg (src : List UInt8) : Except Fault (Received Msg) := do
  let (header, ptr) ← readField src
  let (body, ptr) ← readField ptr
  decodeConnection decode { header, body } ptr

-- Reading back

theorem readField_put (field rest : List UInt8)
    : readField (putU32 field.length ++ field ++ rest)
      = .ok (field.take (field.length % 2 ^ 32), field.drop (field.length % 2 ^ 32) ++ rest) := by
  have bound : field.length % 2 ^ 32 ≤ field.length := Nat.mod_le _ _
  have inFrame : field.length % 2 ^ 32 ≤ (field ++ rest).length := by
    rw [List.length_append]
    omega
  rw [List.append_assoc, readField, takeU32_putU32]
  dsimp only
  rw [if_pos inFrame, List.take_append_of_le_length bound, List.drop_append_of_le_length bound]

theorem readField_put_of_lt {field : List UInt8} (rest : List UInt8)
    (fits : field.length < 2 ^ 32)
    : readField (putU32 field.length ++ field ++ rest) = .ok (field, rest) := by
  rw [readField_put, Nat.mod_eq_of_lt fits, List.take_length, List.drop_length, List.nil_append]

theorem decode_header_body {wire : Wire} (rest : List UInt8)
    (headerFits : wire.header.length < 2 ^ 32) (bodyFits : wire.body.length < 2 ^ 32)
    : decodeCommonMqttMsg decode
        (putU32 wire.header.length ++ wire.header ++ (putU32 wire.body.length ++ wire.body) ++ rest)
      = decodeConnection decode wire rest := by
  rw [decodeCommonMqttMsg, List.append_assoc, readField_put_of_lt _ headerFits]
  simp only [bind, Except.bind]
  rw [readField_put_of_lt _ bodyFits]

theorem copyClientid_eq {bytes : List UInt8} (fits : bytes.length < 2 ^ 32)
    : copyClientid bytes
      = if bytes.length < 2 ^ 32 - 1 then .ok (cstr bytes) else .error .pastBuffer := by
  unfold copyClientid
  by_cases short : bytes.length < 2 ^ 32 - 1
  · rw [if_pos short, if_pos]
    omega
  · rw [if_neg short, if_neg]
    omega

theorem decodeConnection_short (wire : Wire) {clientid : CString} (protoVer : UInt8)
    (short : clientid.bytes.length < 2 ^ 32 - 1)
    : decodeConnection decode wire
        (putU32 clientid.bytes.length ++ clientid.bytes ++ [protoVer])
      = .ok
          {
            wire
            codec := codecOf protoVer
            msg := decode (codecOf protoVer) wire
            cparam := { clientid := clientid.bytes, protoVer }
            unread := []
          } := by
  rw [decodeConnection, readField_put_of_lt _ (by omega)]
  simp only [bind, Except.bind]
  rw [copyClientid_eq (by omega), if_pos short, cstr_of_not_mem clientid.nulFree]
  rfl

theorem decodeConnection_longest (wire : Wire) {clientid : CString} (protoVer : UInt8)
    (longest : clientid.bytes.length = 2 ^ 32 - 1)
    : decodeConnection decode wire
        (putU32 clientid.bytes.length ++ clientid.bytes ++ [protoVer])
      = .error .pastBuffer := by
  rw [decodeConnection, readField_put_of_lt _ (by omega)]
  simp only [bind, Except.bind]
  rw [copyClientid_eq (by omega), if_neg (by omega)]

/-- Of a longer one a part is left unread, if the copy succeeds at all. -/
theorem decodeConnection_long (wire : Wire) {clientid : CString} (protoVer : UInt8)
    (long : 2 ^ 32 ≤ clientid.bytes.length) {received : Received Msg}
    (success
      : decodeConnection decode wire
          (putU32 clientid.bytes.length ++ clientid.bytes ++ [protoVer])
        = .ok received)
    : received.unread ≠ [] := by
  have inside : clientid.bytes.length % 2 ^ 32 < clientid.bytes.length :=
    (Nat.mod_lt _ (by decide)).trans_le long
  obtain ⟨byte, more, left⟩ :=
    List.exists_cons_of_ne_nil (mt List.drop_eq_nil_iff.mp (Nat.not_le.mpr inside))
  rw [decodeConnection, readField_put, left] at success
  simp only [bind, Except.bind] at success
  cases copied : copyClientid (clientid.bytes.take (clientid.bytes.length % 2 ^ 32)) with
  | error fault =>
      rw [copied] at success
      cases success
  | ok copy =>
      rw [copied] at success
      obtain rfl := Except.ok.inj success
      simp

/-- A message, its client id and its protocol version survive the frame, which is read to its
end and no further, exactly if the client id is shorter than the largest length of 32 bits.
-/
theorem inproc_frame_iff (inverse : ∀ codec msg, decode codec (encode codec msg) = msg)
    (src : Msg) (clientid : CString) (protoVer : UInt8)
    (headerFits : (encode (codecOf protoVer) src).header.length < 2 ^ 32)
    (bodyFits : (encode (codecOf protoVer) src).body.length < 2 ^ 32)
    : decodeCommonMqttMsg decode (encodeCommonMqttMsg encode src clientid protoVer)
        = .ok
            {
              wire := encode (codecOf protoVer) src
              codec := codecOf protoVer
              msg := src
              cparam := { clientid := clientid.bytes, protoVer }
              unread := []
            }
      ↔ clientid.bytes.length < 2 ^ 32 - 1 := by
  rw [encodeCommonMqttMsg, List.append_assoc, decode_header_body decode _ headerFits bodyFits]
  constructor
  · intro back
    by_contra notShort
    rcases Nat.lt_or_ge clientid.bytes.length (2 ^ 32) with fits | long
    · rw [decodeConnection_longest decode _ protoVer (by omega)] at back
      cases back
    · exact decodeConnection_long decode _ protoVer long back rfl
  · intro short
    rw [decodeConnection_short decode _ protoVer short, inverse]

end Frame

/-- A publish of client `c` crosses the frame. -/
theorem inproc_frame_publish
    : let wire : Wire := { header := [48, 5], body := [0, 1, 97, 104, 105] }
      let clientid := CString.ofBytes (ascii ['c'])
      decodeCommonMqttMsg (fun _ wire => wire)
          (encodeCommonMqttMsg (fun _ wire => wire) wire clientid 4)
        = .ok
            {
              wire
              codec := .mqtt
              msg := wire
              cparam := { clientid := ascii ['c'], protoVer := 4 }
              unread := []
            } :=
  (inproc_frame_iff (fun _ wire => wire) (fun _ wire => wire) (fun _ _ => rfl) _ _ _ (by decide)
    (by decide)).mpr (by decide)

theorem zero_not_mem_replicate (length : Nat) : (0 : UInt8) ∉ List.replicate length 97 := by
  intro member
  cases List.eq_of_mem_replicate member

/-- A client id of this length. -/
def longClientid (length : Nat) : CString :=
  { bytes := List.replicate length 97, nulFree := zero_not_mem_replicate length }

/-- A client id of `2 ^ 32 - 1` bytes: the size of its buffer wraps around to zero. -/
theorem inproc_frame_overruns
    : decodeCommonMqttMsg (fun _ wire => wire)
          (encodeCommonMqttMsg (fun _ wire => wire) { header := [48, 0], body := [] }
            (longClientid (2 ^ 32 - 1)) 4)
        = .error .pastBuffer := by
  have length : (longClientid (2 ^ 32 - 1)).bytes.length = 2 ^ 32 - 1 := List.length_replicate
  rw [encodeCommonMqttMsg, List.append_assoc,
    decode_header_body _ _ (by decide) (by decide), decodeConnection_longest _ _ _ length]

end NanoMQ.Inproc
