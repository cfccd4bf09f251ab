import NanoMQ.Publish.Acceptance
import NanoMQ.Subscriptions.Decode

/-! Where the decoders of PUBLISH, SUBSCRIBE and UNSUBSCRIBE read.
Each of them reads before it knows that the bytes are there. The conditions here say for
which bodies every read and every subtraction stays inside.
-/

namespace NanoMQ

open Bytes Reading

-- PUBLISH

section Publish

variable {nng : MqttParser} {buffer : Buffer} {proto : Nat}

theorem decodePayload_inside (packet : PubPacket) (pos : Nat)
    : (decodePayload buffer packet pos).Always (Access.Inside buffer.bytes.length) := by
  unfold decodePayload
  split
  · exact Traced.always_pure _ _
  · rename_i inside
    dsimp only
    split
    · rw [Traced.always_bind, always_span]
      have := Nat.mod_le (buffer.bytes.length - pos) (2 ^ 32)
      exact ⟨Or.inr (by omega), Traced.always_pure _ _⟩
    · exact Traced.always_pure _ _

theorem decodePropertiesAndPayload_inside (packet : PubPacket) (pos : Nat)
    : (decodePropertiesAndPayload nng buffer proto packet pos).Always
        (Access.Inside buffer.bytes.length) := by
  unfold decodePropertiesAndPayload
  dsimp only
  split
  · split
    · exact decodePayload_inside _ _
    · exact Traced.always_pure _ _
  · exact decodePayload_inside _ _

theorem decodeAfterTopic_inside (packet : PubPacket) (pos : Nat)
    : (decodeAfterTopic nng buffer proto packet pos).Always
        (Access.Inside buffer.bytes.length)
      ↔ packet.fixedHeader.qos = 0 ∨ pos + 2 ≤ buffer.bytes.length := by
  unfold decodeAfterTopic
  split
  · rename_i noId
    exact iff_of_true (decodePropertiesAndPayload_inside _ _) (Or.inl noId)
  · rename_i present
    rw [Traced.always_bind, always_get16, or_iff_right present]
    exact and_iff_left (decodePropertiesAndPayload_inside _ _)

/-- The limit keeps the copy of the topic inside, but not the read of its length. -/
theorem copynUtf8Str_inside
    : (copynUtf8Str nng buffer 0 buffer.bytes.length).Always
        (Access.Inside buffer.bytes.length)
      ↔ 2 ≤ buffer.bytes.length := by
  unfold copynUtf8Str
  rw [Traced.always_bind, always_get16, Nat.zero_add]
  refine and_iff_left ?_
  split
  · exact Traced.always_pure _ _
  · split
    · rename_i fits
      rw [Traced.always_bind, always_span]
      refine ⟨Or.inr fits, ?_⟩
      split
      · exact Traced.always_pure _ _
      · exact Traced.always_pure _ _
    · exact Traced.always_pure _ _

/-- The body has a topic length and, unless a wildcard ends the decoding, a packet id where
the decoder looks for one.
-/
def PublishInside (nng : MqttParser) (buffer : Buffer) (qos : BitVec 2) : Prop :=
  2 ≤ buffer.bytes.length
  ∧ (qos ≠ 0
    → (TopicRejected nng buffer
        → nng.copynRejectSkip (announcedLength buffer) + 2 ≤ buffer.bytes.length)
      ∧ (¬TopicRejected nng buffer
        → ¬VisibleWildcard (announcedTopic buffer)
        → 2 + announcedLength buffer + 2 ≤ buffer.bytes.length))

theorem decodePublish_inside_iff (packet : PubPacket)
    : (decodePublish nng buffer proto packet).Always (Access.Inside buffer.bytes.length)
      ↔ PublishInside nng buffer packet.fixedHeader.qos := by
  unfold decodePublish PublishInside
  rw [Traced.always_bind, always_get16, Traced.always_bind, copynUtf8Str_inside, Nat.zero_add,
    ← and_assoc, and_self]
  refine and_congr_right (fun _ => ?_)
  by_cases rejected : TopicRejected nng buffer
  · rw [decodeWithTopic_rejected packet _ rejected, decodeAfterTopic_inside]
    simp only [rejected, not_true_eq_false, false_implies, and_true, true_implies]
    exact or_iff_not_imp_left
  · rw [decodeWithTopic_read packet _ rejected]
    simp only [rejected, not_false_eq_true, false_implies, true_and, true_implies]
    split
    · rename_i wildcard
      have visible := (hasWildcard_storedTopic _).mp wildcard
      exact iff_of_true (Traced.always_pure _ _) (fun _ hidden => absurd visible hidden)
    · rename_i plain
      have hidden := mt (hasWildcard_storedTopic _).mpr plain
      rw [decodeAfterTopic_inside]
      constructor
      · rintro (noId | inside) present _
        · exact absurd noId present
        · exact inside
      · intro inside
        exact or_iff_not_imp_left.mpr (fun present => inside present hidden)

end Publish

-- The loop over the entries of a topic list

/-- From this offset on every entry that the loop starts on is complete, and the guard does
not wrap: the loop stops at an entry that refuses the packet, or at one that reaches the
end, or goes on behind a complete entry.
-/
inductive EntriesInside (EntryAt : Nat → Option Nat → Prop) (size vpos : Nat)
    : Nat → Prop where
  | refused {bpos} (entry : EntryAt bpos none) : EntriesInside EntryAt size vpos bpos
  | last {bpos used} (entry : EntryAt bpos (some used)) (noWrap : vpos ≤ size)
      (done : size - vpos ≤ bpos + used)
    : EntriesInside EntryAt size vpos bpos
  | more {bpos used} (entry : EntryAt bpos (some used)) (noWrap : vpos ≤ size)
      (left : bpos + used < size - vpos)
      (rest : EntriesInside EntryAt size vpos (bpos + used))
    : EntriesInside EntryAt size vpos bpos

/-- What a loop body does: it stays inside exactly at a complete entry, it takes the offset
that the entry determines, and it always advances.
-/
structure EntrySpec (entry : Nat → Nat → Reader DecodedEntry)
    (EntryAt : Nat → Option Nat → Prop) (size : Nat)
    : Prop where
  inside
    : ∀ index bpos,
        (entry index bpos).Always (Access.Inside size) ↔ ∃ outcome, EntryAt bpos outcome
  next
    : ∀ {bpos outcome},
        EntryAt bpos outcome
        → ∀ index, (entry index bpos).value.next = outcome.map (fun used => bpos + used)
  advances : ∀ {bpos used}, EntryAt bpos (some used) → 0 < used

/-- The loop stays inside exactly when the entries do. Witness: induction on the fuel, which
exceeds the distance from the offset to the end.
-/
theorem EntrySpec.entryLoop_inside {entry : Nat → Nat → Reader DecodedEntry}
    {EntryAt : Nat → Option Nat → Prop} {size : Nat} (spec : EntrySpec entry EntryAt size)
    (vpos : Nat) {fuel : Nat} (index : Nat) {bpos : Nat} (running : 0 < fuel)
    (enough : (sizeMinus size vpos).value < fuel + bpos)
    : (entryLoop entry size vpos fuel index bpos).Always (Access.Inside size)
      ↔ EntriesInside EntryAt size vpos bpos := by
  induction fuel generalizing index bpos with
  | zero => exact absurd running (Nat.lt_irrefl 0)
  | succ fuel ih =>
      rw [entryLoop, Traced.always_bind, spec.inside]
      constructor
      · rintro ⟨⟨outcome, at_⟩, rest⟩
        rw [spec.next at_ index] at rest
        cases outcome with
        | none => exact .refused at_
        | some used =>
            have advances := spec.advances at_
            simp only [Option.map_some, Traced.always_bind, always_sizeMinus] at rest
            obtain ⟨noWrap, rest⟩ := rest
            rw [value_sizeMinus noWrap] at enough rest
            split at rest
            · rename_i left
              rw [Traced.always_bind, ih _ (by omega) (by rw [value_sizeMinus noWrap]; omega)]
                at rest
              exact .more at_ noWrap left rest.1
            · exact .last at_ noWrap (by omega)
      · intro complete
        cases complete with
        | refused at_ =>
            refine ⟨⟨none, at_⟩, ?_⟩
            rw [spec.next at_ index]
            exact Traced.always_pure _ _
        | @last _ used at_ noWrap done =>
            refine ⟨⟨some used, at_⟩, ?_⟩
            rw [spec.next at_ index]
            simp only [Option.map_some, Traced.always_bind, always_sizeMinus]
            refine ⟨noWrap, ?_⟩
            rw [value_sizeMinus noWrap, if_neg (by omega)]
            exact Traced.always_pure _ _
        | @more _ used at_ noWrap left rest =>
            have advances := spec.advances at_
            refine ⟨⟨some used, at_⟩, ?_⟩
            rw [spec.next at_ index]
            simp only [Option.map_some, Traced.always_bind, always_sizeMinus]
            refine ⟨noWrap, ?_⟩
            rw [value_sizeMinus noWrap] at enough
            rw [value_sizeMinus noWrap, if_pos left, Traced.always_bind,
              ih _ (by omega) (by rw [value_sizeMinus noWrap]; omega)]
            exact ⟨rest, Traced.always_pure _ _⟩

-- SUBSCRIBE and UNSUBSCRIBE

/-- The bytes begin with a complete SUBSCRIBE entry. The index is how far the decoder goes
behind it, or nothing when its options refuse the packet. Of an empty or invalid filter
the option byte is skipped without a look.
-/
inductive SubEntryAt (nng : MqttParser) (protoVer : Nat) (bytes : List UInt8)
    : Option Nat → Prop where
  | empty {rest} (field : StringField bytes [] rest)
    : SubEntryAt nng protoVer bytes (some (2 + 1))
  | invalid {text rest} (field : StringField bytes text rest) (nonempty : text ≠ [])
      (invalid : nng.utf8Check text = false)
    : SubEntryAt nng protoVer bytes (some (nng.copyRejectSkip text.length + 1))
  | filter {text option rest} (field : StringField bytes text (option :: rest))
      (nonempty : text ≠ []) (valid : nng.utf8Check text = true)
      (granted : optionsRefused protoVer text (nng.topicOptions option) = false)
    : SubEntryAt nng protoVer bytes (some (2 + text.length + 1))
  | refused {text option rest} (field : StringField bytes text (option :: rest))
      (nonempty : text ≠ []) (valid : nng.utf8Check text = true)
      (refused : optionsRefused protoVer text (nng.topicOptions option) = true)
    : SubEntryAt nng protoVer bytes none

/-- The bytes begin with a complete UNSUBSCRIBE entry; an invalid filter refuses the
packet.
-/
inductive UnsubEntryAt (nng : MqttParser) (bytes : List UInt8) : Option Nat → Prop where
  | filter {text rest} (field : StringField bytes text rest)
      (valid : text = [] ∨ nng.utf8Check text = true)
    : UnsubEntryAt nng bytes (some (2 + text.length))
  | invalid {text rest} (field : StringField bytes text rest) (nonempty : text ≠ [])
      (invalid : nng.utf8Check text = false)
    : UnsubEntryAt nng bytes none

theorem text_cases (nng : MqttParser) (text : List UInt8)
    : text = []
      ∨ (text ≠ [] ∧ nng.utf8Check text = true)
      ∨ (text ≠ [] ∧ nng.utf8Check text = false) := by
  cases text with
  | nil => exact Or.inl rfl
  | cons byte rest =>
      cases nng.utf8Check (byte :: rest) with
      | true => exact Or.inr (Or.inl ⟨List.cons_ne_nil _ _, rfl⟩)
      | false => exact Or.inr (Or.inr ⟨List.cons_ne_nil _ _, rfl⟩)

section Entries

variable {nng : MqttParser} {buffer : Buffer} {pos : Nat} {text rest : List UInt8}

theorem copyUtf8Str_inside
    : (copyUtf8Str nng buffer pos).Always (Access.Inside buffer.bytes.length)
      ↔ ∃ text rest, StringField (buffer.bytes.drop pos) text rest := by
  unfold copyUtf8Str
  rw [Traced.always_bind, always_getString]
  refine and_iff_left ?_
  split
  · exact Traced.always_pure _ _
  · split
    · exact Traced.always_pure _ _
    · exact Traced.always_pure _ _

theorem copyUtf8Str_value (field : StringField (buffer.bytes.drop pos) text rest)
    : (copyUtf8Str nng buffer pos).value
      = if text = [] then { body := none, len := 0, used := 2 }
        else if nng.utf8Check text then
          { body := some text, len := text.length, used := 2 + text.length }
        else { body := none, len := -1, used := nng.copyRejectSkip text.length } := by
  unfold copyUtf8Str
  rw [Traced.value_bind, field.value_getString]
  split
  · rfl
  · split
    · rfl
    · rfl

theorem getUtf8Str_inside (old : Option (List UInt8))
    : (getUtf8Str nng buffer old pos).Always (Access.Inside buffer.bytes.length)
      ↔ ∃ text rest, StringField (buffer.bytes.drop pos) text rest := by
  unfold getUtf8Str
  rw [Traced.always_bind, always_getString]
  refine and_iff_left ?_
  split
  · exact Traced.always_pure _ _
  · split
    · exact Traced.always_pure _ _
    · exact Traced.always_pure _ _

theorem getUtf8Str_value (old : Option (List UInt8))
    (field : StringField (buffer.bytes.drop pos) text rest)
    : (getUtf8Str nng buffer old pos).value
      = if text = [] then { body := old, len := 0, used := 2 }
        else if nng.utf8Check text then
          { body := some text, len := text.length, used := 2 + text.length }
        else { body := none, len := -1, used := 2 } := by
  unfold getUtf8Str
  rw [Traced.value_bind, field.value_getString]
  split
  · rfl
  · split
    · rfl
    · rfl

variable {payloadPtr protoVer bpos : Nat}

/-- The entry at a string that is there: an empty or invalid filter is skipped, and a valid
one is judged by its option byte.
-/
theorem decodeSubEntry_next {outcome : Option Nat}
    (entry : SubEntryAt nng protoVer (buffer.bytes.drop (payloadPtr + bpos)) outcome)
    : (decodeSubEntry nng buffer payloadPtr protoVer bpos).Always
          (Access.Inside buffer.bytes.length)
      ∧ (decodeSubEntry nng buffer payloadPtr protoVer bpos).value.next
        = outcome.map (fun used => bpos + used) := by
  unfold decodeSubEntry
  rw [Traced.always_bind, Traced.value_bind, copyUtf8Str_inside]
  cases entry with
  | empty field =>
      rw [copyUtf8Str_value field]
      exact ⟨⟨⟨_, _, field⟩, Traced.always_pure _ _⟩, rfl⟩
  | invalid field nonempty invalid =>
      rw [copyUtf8Str_value field, if_neg nonempty, if_neg (by rw [invalid]; decide)]
      exact ⟨⟨⟨_, _, field⟩, Traced.always_pure _ _⟩, rfl⟩
  | filter field nonempty valid judged | refused field nonempty valid judged =>
      have optionAt := field.drop_text
      have size := field.length_eq
      rw [Nat.add_assoc] at optionAt
      rw [copyUtf8Str_value field, if_neg nonempty, if_pos valid]
      simp only [decodeSubOptions, Traced.always_bind, Traced.value_bind, always_get8,
        value_get8 optionAt, judged]
      simp only [List.length_cons] at size
      exact ⟨⟨⟨_, _, field⟩, by omega, Traced.always_pure _ _⟩, rfl⟩

theorem exists_subEntryAt
    (inside
      : (decodeSubEntry nng buffer payloadPtr protoVer bpos).Always
          (Access.Inside buffer.bytes.length))
    : ∃ outcome, SubEntryAt nng protoVer (buffer.bytes.drop (payloadPtr + bpos)) outcome := by
  unfold decodeSubEntry at inside
  rw [Traced.always_bind, copyUtf8Str_inside] at inside
  obtain ⟨⟨text, rest, field⟩, optionInside⟩ := inside
  rw [copyUtf8Str_value field] at optionInside
  rcases text_cases nng text with rfl | ⟨nonempty, valid⟩ | ⟨nonempty, invalid⟩
  · exact ⟨_, .empty field⟩
  · rw [if_neg nonempty, if_pos valid] at optionInside
    simp only [decodeSubOptions, Traced.always_bind, always_get8] at optionInside
    have size := field.length_eq
    cases rest with
    | nil =>
        simp only [List.length_nil] at size
        have := optionInside.1
        omega
    | cons option rest =>
        cases refused : optionsRefused protoVer text (nng.topicOptions option) with
        | true => exact ⟨_, .refused field nonempty valid refused⟩
        | false => exact ⟨_, .filter field nonempty valid refused⟩
  · exact ⟨_, .invalid field nonempty invalid⟩

theorem subEntrySpec (nng : MqttParser) (buffer : Buffer) (payloadPtr protoVer : Nat)
    : EntrySpec (fun _ => decodeSubEntry nng buffer payloadPtr protoVer)
        (fun bpos => SubEntryAt nng protoVer (buffer.bytes.drop (payloadPtr + bpos)))
        buffer.bytes.length :=
  {
    inside := fun _ _ =>
      ⟨exists_subEntryAt, fun ⟨_, entry⟩ => (decodeSubEntry_next entry).1⟩
    next := fun entry _ => (decodeSubEntry_next entry).2
    advances := by
      intro bpos used entry
      cases entry with
      | empty | invalid | filter => omega
  }

theorem decodeUnsubEntry_next {outcome : Option Nat} (fresh : Nat → TopicNode) (index : Nat)
    (entry : UnsubEntryAt nng (buffer.bytes.drop (payloadPtr + bpos)) outcome)
    : (decodeUnsubEntry nng buffer payloadPtr fresh index bpos).value.next
      = outcome.map (fun used => bpos + used) := by
  unfold decodeUnsubEntry
  rw [Traced.value_bind, Traced.value_pure]
  cases entry with
  | @filter text rest field valid =>
      rw [getUtf8Str_value _ field]
      rcases valid with rfl | valid
      · rfl
      · cases text with
        | nil => rfl
        | cons byte rest =>
            have counted : ((byte :: rest).length : Int) ≠ -1 := by omega
            rw [if_neg (List.cons_ne_nil _ _), if_pos valid, decodeUnsubFilter, if_neg counted]
            rfl
  | invalid field nonempty invalid =>
      rw [getUtf8Str_value _ field, if_neg nonempty, if_neg (by rw [invalid]; decide)]
      rfl

theorem unsubEntrySpec (nng : MqttParser) (buffer : Buffer) (payloadPtr : Nat)
    (fresh : Nat → TopicNode)
    : EntrySpec (decodeUnsubEntry nng buffer payloadPtr fresh)
        (fun bpos => UnsubEntryAt nng (buffer.bytes.drop (payloadPtr + bpos)))
        buffer.bytes.length :=
  {
    inside := by
      intro index bpos
      rw [decodeUnsubEntry, Traced.always_bind, getUtf8Str_inside,
        and_iff_left (Traced.always_pure _ _)]
      constructor
      · rintro ⟨text, rest, field⟩
        rcases text_cases nng text with empty | ⟨_, valid⟩ | ⟨nonempty, invalid⟩
        · exact ⟨_, .filter field (Or.inl empty)⟩
        · exact ⟨_, .filter field (Or.inr valid)⟩
        · exact ⟨_, .invalid field nonempty invalid⟩
      · rintro ⟨outcome, entry⟩
        cases entry with
        | filter field valid => exact ⟨_, _, field⟩
        | invalid field nonempty invalid => exact ⟨_, _, field⟩
    next := fun entry index => decodeUnsubEntry_next fresh index entry
    advances := by
      intro bpos used entry
      cases entry with
      | filter => omega
  }

end Entries

-- Whole messages

/-- The offset behind the packet id and, for version 5, the properties. -/
def payloadOffset (nng : MqttParser) (protoVer : Nat) (body : List UInt8) : Nat :=
  2 + (decodeTopicProperties nng protoVer body).consumed

/-- A SUBSCRIBE body has a packet id, and behind it the decoder either stops early or finds
only complete entries.
-/
def SubscribeInside (nng : MqttParser) (buffer : Buffer) (payloadPtr protoVer : Nat) : Prop :=
  2 ≤ buffer.bytes.length
  ∧ ((buffer.get16 0).value = 0
    ∨ topicPropertiesRefused nng protoVer buffer.bytes = true
    ∨ EntriesInside
        (fun bpos => SubEntryAt nng protoVer (buffer.bytes.drop (payloadPtr + bpos)))
        buffer.bytes.length (payloadOffset nng protoVer buffer.bytes) 0)

/-- The same for an UNSUBSCRIBE, whose packet id is not looked at. -/
def UnsubscribeInside (nng : MqttParser) (buffer : Buffer) (payloadPtr protoVer : Nat)
    : Prop :=
  2 ≤ buffer.bytes.length
  ∧ (topicPropertiesRefused nng protoVer buffer.bytes = true
    ∨ EntriesInside (fun bpos => UnsubEntryAt nng (buffer.bytes.drop (payloadPtr + bpos)))
        buffer.bytes.length (payloadOffset nng protoVer buffer.bytes) 0)

theorem decodeSubMsg_inside_iff {nng : MqttParser} {stray : Nat → UInt8} {msg : NngMsg}
    (protoVer : Nat) (packet : TopicPacket) (whole : msg.remainingLen = msg.body.length)
    : (decodeSubMsg nng stray msg protoVer packet).Always (Access.Inside msg.body.length)
      ↔ SubscribeInside nng { bytes := msg.body, stray } msg.payloadPtr protoVer := by
  unfold decodeSubMsg SubscribeInside
  rw [Traced.always_bind, always_get16]
  refine and_congr_right (fun _ => ?_)
  split
  · rename_i zero
    exact iff_of_true (Traced.always_pure _ _) (Or.inl zero)
  · rename_i nonzero
    rw [or_iff_right nonzero]
    dsimp only
    split
    · rename_i refused
      exact iff_of_true (Traced.always_pure _ _) (Or.inl refused)
    · rename_i accepted
      rw [or_iff_right accepted, Traced.always_bind, and_iff_left (Traced.always_pure _ _),
        whole]
      exact (subEntrySpec nng { bytes := msg.body, stray } msg.payloadPtr
        protoVer).entryLoop_inside _ 0 (Nat.succ_pos _) (Nat.lt_succ_self _)

theorem decodeUnsubMsg_inside_iff {nng : MqttParser} {stray : Nat → UInt8} {msg : NngMsg}
    (fresh : Nat → TopicNode) (protoVer : Nat) (packet : TopicPacket)
    (whole : msg.remainingLen = msg.body.length)
    : (decodeUnsubMsg nng stray fresh msg protoVer packet).Always
        (Access.Inside msg.body.length)
      ↔ UnsubscribeInside nng { bytes := msg.body, stray } msg.payloadPtr protoVer := by
  unfold decodeUnsubMsg UnsubscribeInside
  rw [Traced.always_bind, always_get16]
  refine and_congr_right (fun _ => ?_)
  dsimp only
  split
  · rename_i refused
    exact iff_of_true (Traced.always_pure _ _) (Or.inl refused)
  · rename_i accepted
    rw [or_iff_right accepted, Traced.always_bind, and_iff_left (Traced.always_pure _ _),
      whole]
    exact (unsubEntrySpec nng { bytes := msg.body, stray } msg.payloadPtr
      fresh).entryLoop_inside _ 0 (Nat.succ_pos _) (Nat.lt_succ_self _)

/-- For messages whose remaining length is the body length, the three decoders stay inside
the body, and their guards do not wrap, exactly under these conditions on the body.
-/
theorem decoders_inside_iff (nng : MqttParser) (stray : Nat → UInt8) (msg : NngMsg)
    (whole : msg.remainingLen = msg.body.length)
    : (msg.type = PUBLISH
        → ∀ packet proto,
            (decodePubMessage nng stray msg packet proto).Always
                (Access.Inside msg.body.length)
            ↔ PublishInside nng { bytes := msg.body, stray } msg.fixedHeader.qos)
      ∧ (∀ packet protoVer,
          (decodeSubMsg nng stray msg protoVer packet).Always (Access.Inside msg.body.length)
          ↔ SubscribeInside nng { bytes := msg.body, stray } msg.payloadPtr protoVer)
      ∧ (∀ packet fresh protoVer,
          (decodeUnsubMsg nng stray fresh msg protoVer packet).Always
              (Access.Inside msg.body.length)
          ↔ UnsubscribeInside nng { bytes := msg.body, stray } msg.payloadPtr protoVer) := by
  refine ⟨?_, ?_, ?_⟩
  · intro publish packet proto
    rw [decodePubMessage_publish packet publish (Nat.le_of_eq whole)]
    exact decodePublish_inside_iff _
  · intro packet protoVer
    exact decodeSubMsg_inside_iff protoVer packet whole
  · intro packet fresh protoVer
    exact decodeUnsubMsg_inside_iff fresh protoVer packet whole

/-- A SUBSCRIBE with packet id 7 to the one filter `a` of QoS 0 stays inside. -/
theorem single_filter_inside
    : let msg := NngMsg.received .SUBSCRIBE [0x82, 6] [0, 7, 0, 1, 97, 0] 1 (.plain 4)
      msg.remainingLen = msg.body.length
      ∧ (decodeSubMsg referenceParser (fun _ => 0) msg 4 .zeroed).Always
          (Access.Inside msg.body.length) := by
  refine ⟨rfl, ?_⟩
  have inside := decoders_inside_iff referenceParser (fun _ => 0)
    (NngMsg.received .SUBSCRIBE [0x82, 6] [0, 7, 0, 1, 97, 0] 1 (.plain 4)) rfl
  refine (inside.2.1 .zeroed 4).mpr ⟨by decide, Or.inr (Or.inr ?_)⟩
  have field : StringField [0, 1, 97, 0] [97] [0] := { bytes_eq := rfl, short := by decide }
  have entry : SubEntryAt referenceParser 4 [0, 1, 97, 0] (some 4) :=
    .filter field (by decide) (by decide) (by decide)
  exact .last entry (by decide) (by decide)

/-- Memory behind a packet: an empty filter, then one with reserved option bits. -/
def strayEntries (offset : Nat) : UInt8 :=
  if offset = 6 then 1 else if offset = 7 then 97 else if offset = 8 then 0xF0 else 0

/-- Bodies that are too short: an empty PUBLISH is read at offset 0, a SUBSCRIBE of just a
packet id at offset 2, an empty UNSUBSCRIBE at offset 0, and the guard of a SUBSCRIBE of
one byte subtracts 2 from 1.
-/
theorem short_bodies_overrun
    : let publish := NngMsg.received .PUBLISH [0x30, 0] [] 1 (.plain 4)
      let subscribe := NngMsg.received .SUBSCRIBE [0x82, 2] [0, 7] 1 (.plain 4)
      let tiny := NngMsg.received .SUBSCRIBE [0x82, 1] [1] 1 (.plain 4)
      let unsubscribe := NngMsg.received .UNSUBSCRIBE [0xA2, 0] [] 1 (.plain 4)
      ¬(decodePubMessage referenceParser strayEntries publish .zeroed 4).Always
          (Access.Inside publish.body.length)
      ∧ ¬(decodeSubMsg referenceParser strayEntries subscribe 4 .zeroed).Always
          (Access.Inside subscribe.body.length)
      ∧ ¬(decodeUnsubMsg referenceParser strayEntries (fun _ => .zeroed) unsubscribe 4
            .zeroed).Always
          (Access.Inside unsubscribe.body.length)
      ∧ Access.minus 1 2
        ∈ (decodeSubMsg referenceParser strayEntries tiny 4 .zeroed).events := by
  intro publish subscribe tiny unsubscribe
  refine ⟨?_, ?_, ?_, ?_⟩
  · intro inside
    exact Nat.lt_irrefl 0 (inside (.read 0) (by decide))
  · intro inside
    exact Nat.lt_irrefl 2 (inside (.read 2) (by decide))
  · intro inside
    exact Nat.lt_irrefl 0 (inside (.read 0) (by decide))
  · decide

end NanoMQ
