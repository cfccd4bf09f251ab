import NanoMQ.Nng.Packet
import NanoMQ.Rest.CJson

/-! The properties of a publish over the REST interface: the list that `properties_parse`
builds, against the list that the members of the JSON object call for.
-/

namespace NanoMQ.Rest

open Bytes

def PAYLOAD_FORMAT_INDICATOR : Nat := 1
def CONTENT_TYPE : Nat := 3
def RESPONSE_TOPIC : Nat := 8
def CORRELATION_DATA : Nat := 9
def USER_PROPERTY : Nat := 38

-- properties_parse

section Parse

-- Conversions of doubles outside of a type's range, and the output of "%ld" and "%lf".
variable (wild : Double → Nat) (printLong : Int → Text) (printDouble : Double → Text)

/-- A block that reads a number into a variable of so many bits and appends a property. -/
def numberProperty (name : Text) (bits : Nat) (id : Nat) (value : Nat → PropertyValue)
    (json : CJson)
    : List Property :=
  ((json.getNumberValue name).map fun given =>
    { id, value := value (given.toUnsigned wild bits) }).toList

/-- A block that reads a string and appends a property. -/
def stringProperty (name : Text) (id : Nat) (value : Text → PropertyValue) (json : CJson)
    : List Property :=
  ((json.getStringValue name).map fun given => { id, value := value given }).toList

def payloadFormatIndicator : CJson → List Property :=
  numberProperty wild (lit "payload_format_indicator") 8 PAYLOAD_FORMAT_INDICATOR .u8

def messageExpiryInterval : CJson → List Property :=
  numberProperty wild (lit "message_expiry_interval") 16 MESSAGE_EXPIRY_INTERVAL .u16

def responseTopic : CJson → List Property :=
  stringProperty (lit "response_topic") RESPONSE_TOPIC .str

def correlationData : CJson → List Property :=
  stringProperty (lit "correlation_data") CORRELATION_DATA .binary

/-- The name in the source ends with a tab. -/
def subscriptionIdentifier : CJson → List Property :=
  numberProperty wild (lit "subscription_identifier\t") 32 SUBSCRIPTION_IDENTIFIER .varint

def contentType : CJson → List Property :=
  stringProperty (lit "content_type") CORRELATION_DATA .str

/-- The text of a number, as far as it fits into `number_str`. -/
def numberText (given : Double) : Text :=
  (if given = .finite given.valueint then printLong given.valueint else printDouble given).take 49

/-- The text of a user property; other types are skipped. -/
def userText : CJson → Option Text
  | .number given => some (numberText printLong printDouble given)
  | .bool given => some (if given then lit "true" else lit "false")
  | .string given => some given
  | .null | .array _ | .object _ => none

/-- One round of the loop over `user_properties`: nothing for an item that is skipped, and
`strlen(NULL)` for another one without a name.
-/
def userProperty (name : Option Text) (item : CJson) : Option (List Property) :=
  match userText printLong printDouble item with
  | none => some []
  | some text => name.map fun key => [{ id := USER_PROPERTY, value := .pair key text }]

def userProperties : List (Option Text × CJson) → Option (List Property)
  | [] => some []
  | (name, item) :: rest =>
      (userProperty printLong printDouble name item).bind fun first =>
        (userProperties rest).map (first ++ ·)

/-- The list of properties; none where a NULL is followed. -/
def propertiesParse (json : CJson) : Option (List Property) :=
  let named :=
    payloadFormatIndicator wild json
    ++ messageExpiryInterval wild json
    ++ responseTopic json
    ++ correlationData json
    ++ subscriptionIdentifier wild json
    ++ contentType json
  let items := CJson.children (json.getObjectItem (lit "user_properties"))
  (userProperties printLong printDouble items).map (named ++ ·)

-- What the members call for

/-- A number under a name calls for a property with that number. -/
def callsForNumber (name : Text) (id : Nat) (value : Nat → PropertyValue) (json : CJson)
    : List Property :=
  ((json.getNumberValue name).map fun given => { id, value := value given.toNat }).toList

/-- A number in full: an integer that an `int` holds without decimals, any other with them. -/
def spelled (given : Double) : Text :=
  if given = .finite given.valueint then printLong given.valueint else printDouble given

/-- The text that a member of `user_properties` stands for. -/
def memberText : CJson → Option Text
  | .number given => some (spelled printLong printDouble given)
  | .bool given => some (if given then lit "true" else lit "false")
  | .string given => some given
  | .null | .array _ | .object _ => none

/-- One pair for each member that has a text. -/
def userPairs (text : CJson → Option Text) (listed : List (Text × CJson)) : List Property :=
  listed.filterMap fun member =>
    (text member.2).map fun given => { id := USER_PROPERTY, value := .pair member.1 given }

/-- The properties with their MQTT identifiers and types, and one pair for each member of
`user_properties` that has a text.
-/
def callsFor (json : CJson) : List Property :=
  callsForNumber (lit "payload_format_indicator") PAYLOAD_FORMAT_INDICATOR .u8 json
  ++ callsForNumber (lit "message_expiry_interval") MESSAGE_EXPIRY_INTERVAL .u32 json
  ++ stringProperty (lit "response_topic") RESPONSE_TOPIC .str json
  ++ stringProperty (lit "correlation_data") CORRELATION_DATA .binary json
  ++ callsForNumber (lit "subscription_identifier") SUBSCRIPTION_IDENTIFIER .varint json
  ++ stringProperty (lit "content_type") CONTENT_TYPE .str json
  ++ userPairs (memberText printLong printDouble)
      (CJson.members (json.getObjectItem (lit "user_properties")))

/-- Two lists have the same properties under every identifier, in the same order. -/
def SameProperties (left right : List Property) : Prop :=
  ∀ id, left.filter (fun property => property.id == id)
    = right.filter (fun property => property.id == id)

/-- `properties_parse` builds the properties that the object calls for. -/
def Translated (json : CJson) : Prop :=
  ∃ properties,
    propertiesParse wild printLong printDouble json = some properties
    ∧ SameProperties properties (callsFor printLong printDouble json)

/-- The object has nothing that the blocks of `properties_parse` mistranslate: no expiry
interval and no content type, the same subscription identifier under both spellings, no array
in place of the user properties with an item that would be one, and among them no number that
is longer than `number_str`.
-/
structure Translatable (json : CJson) : Prop where
  noExpiry : json.getNumberValue (lit "message_expiry_interval") = none
  noContentType : json.getStringValue (lit "content_type") = none
  identifier
    : (json.getNumberValue (lit "subscription_identifier\t")).map (·.toUnsigned wild 32)
      = (json.getNumberValue (lit "subscription_identifier")).map Double.toNat
  named
    : ∀ items,
        json.getObjectItem (lit "user_properties") = some (.array items)
        → ∀ item ∈ items, memberText printLong printDouble item = none
  short
    : ∀ name given,
        (name, .number given) ∈ CJson.members (json.getObjectItem (lit "user_properties"))
        → (spelled printLong printDouble given).length ≤ 49

-- Single blocks

theorem filter_block {Given : Type} (given : Option Given) (value : Given → PropertyValue)
    (id selected : Nat)
    : (given.map fun x => ({ id, value := value x } : Property)).toList.filter
        (fun property => property.id == selected)
      = if id = selected then (given.map fun x => { id, value := value x }).toList else [] := by
  cases given with
  | none => simp
  | some x =>
      by_cases same : id = selected
      · simp [same]
      · simp [same]

theorem block_inj {Left Right : Type} {left : Option Left} {right : Option Right}
    {leftValue : Left → PropertyValue} {rightValue : Right → PropertyValue} {id : Nat}
    (same
      : (left.map fun x => ({ id, value := leftValue x } : Property)).toList
        = (right.map fun x => { id, value := rightValue x }).toList)
    : left.map leftValue = right.map rightValue := by
  cases left <;> cases right <;> simp_all

theorem userText_eq_none (item : CJson)
    : userText printLong printDouble item = none
      ↔ memberText printLong printDouble item = none := by
  cases item <;> simp [userText, memberText]

theorem userText_eq_iff (item : CJson)
    : userText printLong printDouble item = memberText printLong printDouble item
      ↔ ∀ given, item = .number given → (spelled printLong printDouble given).length ≤ 49 := by
  cases item with
  | number given =>
      simp only [userText, memberText, Option.some.injEq, CJson.number.injEq, forall_eq']
      exact List.take_eq_self_iff _
  | bool | string | null | array | object => simp [userText, memberText]

/-- Two texts give the same pairs exactly if they are the same for every member. By induction
on the members.
-/
theorem userPairs_eq_iff {listed : List (Text × CJson)} {left right : CJson → Option Text}
    (alike : ∀ item, left item = none ↔ right item = none)
    : userPairs left listed = userPairs right listed
      ↔ ∀ member ∈ listed, left member.2 = right member.2 := by
  induction listed with
  | nil => simp [userPairs]
  | cons member rest ih =>
      unfold userPairs at ih ⊢
      rw [List.forall_mem_cons]
      cases leftText : left member.2 with
      | none =>
          have rightText := (alike member.2).mp leftText
          simp [leftText, rightText, ih]
      | some text =>
          cases rightText : right member.2 with
          | none =>
              have missing := (alike member.2).mpr rightText
              cases leftText.symm.trans missing
          | some other => simp [leftText, rightText, ih]

/-- The pairs of a loop over an object's members. By induction on the members. -/
theorem userProperties_members (listed : List (Text × CJson))
    : userProperties printLong printDouble (listed.map fun member => (some member.1, member.2))
      = some (userPairs (userText printLong printDouble) listed) := by
  unfold userPairs
  induction listed with
  | nil => rfl
  | cons member rest ih =>
      rw [List.map_cons, userProperties, ih, userProperty]
      cases found : userText printLong printDouble member.2 <;> simp [found]

/-- The loop over an array ends well exactly if it skips all items. By induction on them. -/
theorem userProperties_items (items : List CJson)
    : userProperties printLong printDouble (items.map fun item => (none, item))
      = if ∀ item ∈ items, memberText printLong printDouble item = none then some []
        else none := by
  induction items with
  | nil => rfl
  | cons item rest ih =>
      have alike := userText_eq_none printLong printDouble item
      rw [List.map_cons, userProperties, ih, userProperty]
      cases found : userText printLong printDouble item with
      | none =>
          simp only [List.forall_mem_cons, alike.mp found, true_and]
          split_ifs <;> rfl
      | some text =>
          have missing : ¬memberText printLong printDouble item = none := by
            rw [← alike, found]
            exact Option.some_ne_none text
          simp [missing]

/-- The loop builds pairs only. By induction on what it visits. -/
theorem userProperties_id {visited : List (Option Text × CJson)} {built : List Property}
    (result : userProperties printLong printDouble visited = some built)
    : ∀ property ∈ built, property.id = USER_PROPERTY := by
  induction visited generalizing built with
  | nil =>
      obtain rfl : [] = built := Option.some.inj result
      simp
  | cons first rest ih =>
      obtain ⟨name, item⟩ := first
      obtain ⟨here, isHere, later⟩ := Option.bind_eq_some_iff.mp result
      obtain ⟨more, isMore, rfl⟩ := Option.map_eq_some_iff.mp later
      have pair : ∀ property ∈ here, property.id = USER_PROPERTY := by
        unfold userProperty at isHere
        split at isHere
        · obtain rfl := Option.some.inj isHere
          simp
        · obtain ⟨key, _, rfl⟩ := Option.map_eq_some_iff.mp isHere
          simp
      exact List.forall_mem_append.mpr ⟨pair, ih isMore⟩

theorem userPairs_id (text : CJson → Option Text) (listed : List (Text × CJson))
    : ∀ property ∈ userPairs text listed, property.id = USER_PROPERTY := by
  intro property member
  obtain ⟨_, _, isPair⟩ := List.mem_filterMap.mp member
  obtain ⟨_, _, rfl⟩ := Option.map_eq_some_iff.mp isPair
  rfl

theorem keepsPairs {built : List Property}
    (pairs : ∀ property ∈ built, property.id = USER_PROPERTY)
    : ∀ property ∈ built, (property.id == USER_PROPERTY) = true := by
  intro property member
  simp [pairs property member]

theorem filter_pairs {built : List Property}
    (pairs : ∀ property ∈ built, property.id = USER_PROPERTY) {selected : Nat}
    (other : selected ≠ USER_PROPERTY)
    : built.filter (fun property => property.id == selected) = [] := by
  apply List.filter_eq_nil_iff.mpr
  intro property member
  simpa [pairs property member] using Ne.symm other

-- The whole list

theorem userProperties_eq (given : Option CJson)
    (named
      : ∀ items,
          given = some (.array items)
          → ∀ item ∈ items, memberText printLong printDouble item = none)
    : userProperties printLong printDouble (CJson.children given)
      = some (userPairs (userText printLong printDouble) (CJson.members given)) := by
  cases given with
  | none => rfl
  | some item =>
      cases item with
      | array items =>
          rw [CJson.children, userProperties_items, if_pos (named items rfl)]
          rfl
      | object listed => exact userProperties_members printLong printDouble listed
      | _ => rfl

theorem named_of_userProperties {given : Option CJson} {built : List Property}
    (result : userProperties printLong printDouble (CJson.children given) = some built)
    : ∀ items,
        given = some (.array items)
        → ∀ item ∈ items, memberText printLong printDouble item = none := by
  rintro items rfl
  rw [CJson.children, userProperties_items] at result
  by_contra notAll
  rw [if_neg notAll] at result
  cases result

/-- Nothing mistranslated is nothing lost: the list is the one called for. -/
theorem Translatable.parse_eq {json : CJson}
    (translatable : Translatable wild printLong printDouble json)
    (inRange
      : ∀ given,
          json.getNumberValue (lit "payload_format_indicator") = some given
          → ∃ n : Nat, n < 256 ∧ given = .finite n)
    : propertiesParse wild printLong printDouble json
      = some (callsFor printLong printDouble json) := by
  have payload
      : payloadFormatIndicator wild json
        = callsForNumber (lit "payload_format_indicator") PAYLOAD_FORMAT_INDICATOR .u8 json := by
    unfold payloadFormatIndicator numberProperty callsForNumber
    cases found : json.getNumberValue (lit "payload_format_indicator") with
    | none => rfl
    | some given =>
        obtain ⟨n, bound, rfl⟩ := inRange given found
        have kept : (Double.finite n).toUnsigned wild 8 = n := Double.toUnsigned_natCast wild bound
        simp [kept, Double.toNat_natCast]
  have expiry : messageExpiryInterval wild json = [] := by
    simp [messageExpiryInterval, numberProperty, translatable.noExpiry]
  have content : contentType json = [] := by
    simp [contentType, stringProperty, translatable.noContentType]
  have identifier
      : subscriptionIdentifier wild json
        = callsForNumber (lit "subscription_identifier") SUBSCRIPTION_IDENTIFIER .varint json := by
    have same := congrArg
      (Option.map fun n => ({ id := SUBSCRIPTION_IDENTIFIER, value := .varint n } : Property))
      translatable.identifier
    simp only [Option.map_map] at same
    exact congrArg Option.toList same
  have texts
      : userPairs (userText printLong printDouble)
          (CJson.members (json.getObjectItem (lit "user_properties")))
        = userPairs (memberText printLong printDouble)
          (CJson.members (json.getObjectItem (lit "user_properties"))) := by
    refine (userPairs_eq_iff (userText_eq_none printLong printDouble)).mpr ?_
    rintro ⟨name, item⟩ member
    refine (userText_eq_iff printLong printDouble item).mpr ?_
    rintro given rfl
    exact translatable.short name given member
  rw [propertiesParse, userProperties_eq printLong printDouble _ translatable.named, texts]
  simp [payload, expiry, content, identifier, callsFor, callsForNumber, stringProperty,
    translatable.noExpiry, translatable.noContentType, responseTopic, correlationData]

/-- The two lists differ in one of the named properties unless nothing is mistranslated.
Witness: compare what each of three identifiers selects.
-/
theorem Translatable.of_same {json : CJson} {built : List Property}
    (result : propertiesParse wild printLong printDouble json = some built)
    (same : SameProperties built (callsFor printLong printDouble json))
    : Translatable wild printLong printDouble json := by
  obtain ⟨pairs, isPairs, rfl⟩ := Option.map_eq_some_iff.mp result
  have builtPairs := userProperties_id printLong printDouble isPairs
  have calledPairs := userPairs_id (memberText printLong printDouble)
    (CJson.members (json.getObjectItem (lit "user_properties")))
  have named := named_of_userProperties printLong printDouble isPairs
  have texts
      : pairs
        = userPairs (memberText printLong printDouble)
          (CJson.members (json.getObjectItem (lit "user_properties"))) := by
    have here := same USER_PROPERTY
    simp only [callsFor, List.filter_append, List.filter_eq_self.mpr (keepsPairs builtPairs),
      List.filter_eq_self.mpr (keepsPairs calledPairs), payloadFormatIndicator,
      messageExpiryInterval, responseTopic, correlationData, subscriptionIdentifier, contentType,
      numberProperty, stringProperty, callsForNumber, filter_block] at here
    simpa [PAYLOAD_FORMAT_INDICATOR, MESSAGE_EXPIRY_INTERVAL, RESPONSE_TOPIC, CORRELATION_DATA,
      SUBSCRIPTION_IDENTIFIER, CONTENT_TYPE, USER_PROPERTY] using here
  have built := userProperties_eq printLong printDouble _ named
  rw [isPairs, Option.some.injEq, texts] at built
  have selects (selected : Nat) (other : selected ≠ USER_PROPERTY) := by
    have here := same selected
    simp only [callsFor, List.filter_append, filter_pairs builtPairs other,
      filter_pairs calledPairs other, List.append_nil, payloadFormatIndicator,
      messageExpiryInterval, responseTopic, correlationData, subscriptionIdentifier, contentType,
      numberProperty, stringProperty, callsForNumber, filter_block] at here
    exact here
  have expiry := selects MESSAGE_EXPIRY_INTERVAL (by decide)
  have content := selects CONTENT_TYPE (by decide)
  have identifier := selects SUBSCRIPTION_IDENTIFIER (by decide)
  simp [PAYLOAD_FORMAT_INDICATOR, MESSAGE_EXPIRY_INTERVAL, RESPONSE_TOPIC, CORRELATION_DATA,
    SUBSCRIPTION_IDENTIFIER, CONTENT_TYPE] at expiry content identifier
  exact {
    noExpiry := by
      have values := block_inj expiry
      cases found : json.getNumberValue (lit "message_expiry_interval") with
      | none => rfl
      | some given => simp [found] at values
    noContentType := content
    identifier := by
      have values := block_inj identifier
      apply Option.map_injective fun _ _ => PropertyValue.varint.inj
      simpa only [Option.map_map, Function.comp_def] using values
    named
    short := by
      intro name given member
      have whole := (userPairs_eq_iff (userText_eq_none printLong printDouble)).mp built.symm
        (name, .number given) member
      exact (userText_eq_iff printLong printDouble _).mp whole given rfl
  }

/-- For a payload format indicator that is a byte, the list that `properties_parse` builds is
the one that the object calls for exactly if it has nothing that is mistranslated.
-/
theorem properties_translated_iff (json : CJson)
    (inRange
      : ∀ given,
          json.getNumberValue (lit "payload_format_indicator") = some given
          → ∃ n : Nat, n < 256 ∧ given = .finite n)
    : Translated wild printLong printDouble json
      ↔ Translatable wild printLong printDouble json := by
  constructor
  · rintro ⟨built, result, same⟩
    exact Translatable.of_same wild printLong printDouble result same
  · intro translatable
    exact ⟨_, translatable.parse_eq wild printLong printDouble inRange, fun _ => rfl⟩

end Parse

/-- Five of the properties are translated, in an object without the others. -/
theorem properties_translated_plain
    : let json : CJson :=
        .object
          [
            (lit "payload_format_indicator", .number (.finite (1 : Nat))),
            (lit "response_topic", .string (lit "r")),
            (lit "correlation_data", .string (lit "c")),
            (lit "user_properties",
              .object [(lit "a", .string (lit "1")), (lit "b", .bool true), (lit "a", .null)])
          ]
      Translated (fun _ => 0) (fun _ => []) (fun _ => []) json
      ∧ callsFor (fun _ => []) (fun _ => []) json
        = [
            { id := PAYLOAD_FORMAT_INDICATOR, value := .u8 1 },
            { id := RESPONSE_TOPIC, value := .str (lit "r") },
            { id := CORRELATION_DATA, value := .binary (lit "c") },
            { id := USER_PROPERTY, value := .pair (lit "a") (lit "1") },
            { id := USER_PROPERTY, value := .pair (lit "b") (lit "true") }
          ] := by
  intro json
  have payload
      : json.getNumberValue (lit "payload_format_indicator") = some (.finite (1 : Nat)) := by
    decide +kernel
  refine ⟨(properties_translated_iff _ _ _ json ?_).mpr ?_, ?_⟩
  · intro given found
    rw [payload] at found
    exact ⟨1, by decide, (Option.some.inj found).symm⟩
  · exact {
      noExpiry := by decide +kernel
      noContentType := by decide +kernel
      identifier := by decide +kernel
      named := by
        intro items found
        have isObject
            : (CJson.members (json.getObjectItem (lit "user_properties"))).length = 3 := by
          decide +kernel
        rw [found] at isObject
        cases isObject
      short := fun _ _ _ => by simp [spelled]
    }
  · decide +kernel

/-- An expiry interval gets the type of two bytes, the subscription identifier is not found, and
the content type becomes correlation data.
-/
theorem properties_mistranslated
    : let json : CJson :=
        .object
          [
            (lit "message_expiry_interval", .number (.finite (60 : Nat))),
            (lit "subscription_identifier", .number (.finite (7 : Nat))),
            (lit "content_type", .string (lit "text"))
          ]
      propertiesParse (fun _ => 0) (fun _ => []) (fun _ => []) json
        = some
            [
              { id := MESSAGE_EXPIRY_INTERVAL, value := .u16 60 },
              { id := CORRELATION_DATA, value := .str (lit "text") }
            ]
      ∧ callsFor (fun _ => []) (fun _ => []) json
        = [
            { id := MESSAGE_EXPIRY_INTERVAL, value := .u32 60 },
            { id := SUBSCRIPTION_IDENTIFIER, value := .varint 7 },
            { id := CONTENT_TYPE, value := .str (lit "text") }
          ]
      ∧ ¬Translated (fun _ => 0) (fun _ => []) (fun _ => []) json := by
  intro json
  refine ⟨by decide +kernel, by decide +kernel, ?_⟩
  rintro ⟨built, result, same⟩
  have kept := Translatable.of_same _ _ _ result same
  exact absurd kept.noExpiry (by decide +kernel)

end NanoMQ.Rest
