import NanoMQ.Rest.Routing

/-! BASIC authentication of the REST interface.
The decoded token is laid over a buffer that the allocator has not cleared, and the
comparison stops at a NUL. Tokens that decode to fewer bytes than the expected credentials
can therefore pass, and those that decode to more overrun the buffer.
-/

namespace NanoMQ.Rest

open Bytes

inductive AuthType where
  | BASIC
  | JWT
  | NONE
  deriving DecidableEq, Repr

structure ServerConf where
  authType : AuthType
  username : CString
  password : CString

/-- `username:password`, without the terminator. -/
def ServerConf.credentials (server : ServerConf) : List UInt8 :=
  server.username.bytes ++ 58 :: server.password.bytes

/-- The size of the buffers for the expected and the decoded credentials. -/
def ServerConf.authLen (server : ServerConf) : Nat :=
  server.username.bytes.length + server.password.bytes.length + 2

theorem ServerConf.authLen_eq (server : ServerConf)
    : server.authLen = server.credentials.length + 1 := by
  simp [credentials, authLen]
  omega

/-- `sscanf(header, "Basic %s", token)`: the literal, then white space (possibly none),
then the longest run of other bytes.
-/
def sscanfBasic (header : List UInt8) : Option (List UInt8) :=
  if (ascii ['B', 'a', 's', 'i', 'c']).isPrefixOf header then
    let token :=
      ((header.drop 5).dropWhile isSpace).takeWhile (fun byte => !isSpace byte)
    if token = [] then none else some token
  else none

section Authorize

variable (base64Decode : List UInt8 → List UInt8) (heap : Nat → UInt8)

/-- The comparison buffer: allocated, terminated at its last byte, then decoded into. A
decoding that is longer than the buffer is written past its end: there is no result.
-/
def decodeBuffer (authLen : Nat) (token : List UInt8) : Option (List UInt8) :=
  let decoded := base64Decode token
  if decoded.length ≤ authLen then
    some (overwrite ((alloc heap authLen).set (authLen - 1) 0) decoded)
  else none

/-- Check the Authorization header against the configured user name and password. -/
def basicAuthorize (server : ServerConf) (msg : HttpMsg) : Option ResultCode :=
  match msg.token.bind (fun header => sscanfBasic header.bytes) with
  | none => some .EMPTY_USERNAME_OR_PASSWORD
  | some token =>
      let auth := server.credentials ++ [0]
      (decodeBuffer base64Decode heap server.authLen token).map fun decode =>
        if strncmpEq server.authLen auth decode then .SUCCEED
        else .WRONG_USERNAME_OR_PASSWORD

/-- Built without JWT support: every request is refused. -/
def jwtAuthorize (_msg : HttpMsg) : ResultCode :=
  .REQ_PARAM_ERROR

/-- What a request leads to: a handler's own response, or an error response with its
status, the content type of the request and the result code.
-/
inductive HttpReply (Response : Type) where
  | handled (response : Response)
  | error (status : Nat) (contentType : Option CString) (code : ResultCode)

/-- The reply, the broker state afterwards and the handler that was executed. -/
structure Processed (Response Broker : Type) where
  reply : HttpReply Response
  broker : Broker
  executed : Option RestCall

variable {Response Broker : Type}
  (handlers : RestCall → HttpMsg → Broker → Response × Broker)

/-- The result of the authorization, unless it overruns its buffer. -/
def authorize (config : ServerConf) (msg : HttpMsg) : Option ResultCode :=
  match config.authType with
  | .BASIC => basicAuthorize base64Decode heap config msg
  | .JWT => some (jwtAuthorize msg)
  | .NONE => some .SUCCEED

/-- Answer an authorized request by its handler, and any other with its result code. -/
def respond (msg : HttpMsg) (broker : Broker) (authorized : ResultCode)
    : Processed Response Broker :=
  let failure (status : Nat) (code : ResultCode) : Processed Response Broker :=
    { reply := .error status msg.contentType code, broker, executed := none }
  match authorized with
  | .SUCCEED =>
      match route msg with
      | .error status => failure status .UNKNOWN_MISTAKE
      | .ok call =>
          let (response, after) := handlers call msg broker
          { reply := .handled response, broker := after, executed := some call }
  | code => failure NNG_HTTP_STATUS_UNAUTHORIZED code

/-- Authorize a request, select its handler and run it. -/
def processRequest (config : ServerConf) (msg : HttpMsg) (broker : Broker)
    : Option (Processed Response Broker) :=
  (authorize base64Decode heap config msg).map (respond handlers msg broker)

-- Which tokens pass

/-- The terminator is written behind the fresh bytes, before the token is decoded. -/
theorem alloc_terminated (size : Nat)
    : (alloc heap (size + 1)).set size 0 = alloc heap size ++ [0] := by
  rw [alloc, List.range_succ, List.map_append, List.set_append_right _ _ (by simp)]
  simp [alloc]

/-- The decoded bytes followed by what the buffer held before spell the credentials. -/
def LeftoverCompletes (expected token : List UInt8) : Prop :=
  base64Decode token
    ++ (alloc heap expected.length).drop (base64Decode token).length
  = expected

/-- The decoded bytes are the credentials and a NUL. -/
def NulExtends (expected token : List UInt8) : Prop :=
  base64Decode token = expected ++ [0]

/-- A short decoding leaves the terminator in place behind the leftover bytes. -/
theorem decodeBuffer_short {size : Nat} {token : List UInt8}
    (short : (base64Decode token).length ≤ size)
    : decodeBuffer base64Decode heap (size + 1) token
      = some
          (base64Decode token ++ (alloc heap size).drop (base64Decode token).length ++ [0]) := by
  rw [decodeBuffer, if_pos (by omega), Nat.add_sub_cancel, alloc_terminated, overwrite,
    List.drop_append_of_le_length (by simpa using short),
    List.take_of_length_le (by simp; omega), List.append_assoc]

/-- A decoding of the size of the buffer replaces all of it, the terminator included. -/
theorem decodeBuffer_full {size : Nat} {token : List UInt8}
    (full : (base64Decode token).length = size + 1)
    : decodeBuffer base64Decode heap (size + 1) token = some (base64Decode token) := by
  rw [decodeBuffer, if_pos (by omega), Nat.add_sub_cancel, alloc_terminated, overwrite,
    List.drop_eq_nil_of_le (by simp; omega), List.append_nil, List.take_of_length_le]
  simp
  omega

/-- A buffer that holds the decoding compares equal exactly for tokens of these two kinds.
Witness: the comparison reads one byte more than the credentials; that byte is the early
terminator unless the decoded bytes reach over it.
-/
theorem decodeBuffer_matches {expected : List UInt8} (free : (0 : UInt8) ∉ expected)
    {token : List UInt8} (fits : (base64Decode token).length ≤ expected.length + 1)
    : ∃ decode,
        decodeBuffer base64Decode heap (expected.length + 1) token = some decode
        ∧ (strncmpEq (expected.length + 1) (expected ++ [0]) decode = true
          ↔ LeftoverCompletes base64Decode heap expected token
            ∨ NulExtends base64Decode expected token) := by
  unfold LeftoverCompletes NulExtends
  rcases Nat.lt_or_ge expected.length (base64Decode token).length with long | short
  · refine ⟨_, decodeBuffer_full base64Decode heap (by omega), ?_⟩
    have tooLong
        : base64Decode token ++ (alloc heap expected.length).drop (base64Decode token).length
          ≠ expected := by
      intro equal
      have lengths := congrArg List.length equal
      rw [List.length_append] at lengths
      omega
    rw [strncmpEq_terminated free _ long, or_iff_right tooLong, List.take_of_length_le fits]
  · have size : (base64Decode token
        ++ (alloc heap expected.length).drop (base64Decode token).length).length
        = expected.length := by
      rw [List.length_append, List.length_drop, length_alloc]
      omega
    have notExtended : ¬base64Decode token = expected ++ [0] := by
      intro extended
      rw [extended, List.length_append, List.length_singleton] at short
      omega
    have enough
        : expected.length
          < (base64Decode token
              ++ (alloc heap expected.length).drop (base64Decode token).length
              ++ [0]).length := by
      rw [List.length_append, size]
      simp
    refine ⟨_, decodeBuffer_short base64Decode heap short, ?_⟩
    rw [strncmpEq_terminated free _ enough, or_iff_left notExtended,
      List.take_of_length_le (by rw [List.length_append, size]; simp)]
    exact ⟨fun equal => List.append_cancel_right equal, fun equal => by rw [equal]⟩

theorem ServerConf.credentials_nulFree (server : ServerConf)
    : (0 : UInt8) ∉ server.credentials := by
  intro member
  rcases List.mem_append.mp member with inUser | inRest
  · exact server.username.nulFree inUser
  · rcases List.mem_cons.mp inRest with colon | inPassword
    · exact absurd colon (by decide)
    · exact server.password.nulFree inPassword

/-- The token that is scanned from the header decodes to bytes that the buffer holds. -/
def DecodesInside (server : ServerConf) (msg : HttpMsg) : Prop :=
  ∀ header token,
    msg.token = some header
    → sscanfBasic header.bytes = some token
    → (base64Decode token).length
      ≤ server.username.bytes.length + server.password.bytes.length + 2

/-- The token that is scanned from the header is of one of the two kinds. -/
def TokenPasses (server : ServerConf) (msg : HttpMsg) : Prop :=
  ∃ header token,
    msg.token = some header
    ∧ sscanfBasic header.bytes = some token
    ∧ (LeftoverCompletes base64Decode heap server.credentials token
      ∨ NulExtends base64Decode server.credentials token)

/-- Without an overrun a request is authorized exactly when its token is of one of the two
kinds.
-/
theorem basicAuthorize_succeeds {server : ServerConf} {msg : HttpMsg}
    (inside : DecodesInside base64Decode server msg)
    : ∃ code,
        basicAuthorize base64Decode heap server msg = some code
        ∧ (code = .SUCCEED ↔ TokenPasses base64Decode heap server msg) := by
  unfold basicAuthorize TokenPasses
  cases found : msg.token.bind (fun header => sscanfBasic header.bytes) with
  | none =>
      refine ⟨_, rfl, ?_⟩
      simp only [reduceCtorEq, false_iff]
      rintro ⟨header, token, present, scanned, _⟩
      rw [present, Option.bind_some, scanned] at found
      cases found
  | some token =>
      obtain ⟨header, present, scanned⟩ := Option.bind_eq_some_iff.mp found
      have fits := inside header token present scanned
      rw [← ServerConf.authLen, server.authLen_eq] at fits
      obtain ⟨decode, decoded, compared⟩ :=
        decodeBuffer_matches base64Decode heap server.credentials_nulFree fits
      simp only [server.authLen_eq, decoded, Option.map_some]
      refine ⟨_, rfl, ?_⟩
      constructor
      · intro passed
        refine ⟨header, token, present, scanned, compared.mp ?_⟩
        by_contra refused
        rw [if_neg refused] at passed
        cases passed
      · rintro ⟨other, candidate, same, rescanned, passes⟩
        obtain rfl := Option.some.inj (present.symm.trans same)
        obtain rfl := Option.some.inj (scanned.symm.trans rescanned)
        rw [if_pos (compared.mpr passes)]

/-- A token whose decoding is longer than the buffer overruns it. -/
theorem basicAuthorize_overruns {server : ServerConf} {msg : HttpMsg}
    (outside : ¬DecodesInside base64Decode server msg)
    : basicAuthorize base64Decode heap server msg = none := by
  unfold DecodesInside at outside
  push Not at outside
  obtain ⟨header, token, present, scanned, long⟩ := outside
  have overrun : ¬(base64Decode token).length ≤ server.authLen := Nat.not_le.mpr long
  simp [basicAuthorize, present, scanned, decodeBuffer, overrun]

-- Soundness of process_request

/-- The header is `Basic`, a space and a token that decodes to the credentials. -/
def HeaderCarries (server : ServerConf) (msg : HttpMsg) : Prop :=
  ∃ header token,
    msg.token = some header
    ∧ header.bytes = ascii ['B', 'a', 's', 'i', 'c', ' '] ++ token
    ∧ base64Decode token = server.credentials

/-- The request is processed, and a handler runs only for a header that carries the
credentials; any other request is answered with 401 and leaves the broker state as it was.
-/
def RequestSound (server : ServerConf) (msg : HttpMsg) (broker : Broker) : Prop :=
  ∃ processed,
    processRequest base64Decode heap handlers server msg broker = some processed
    ∧ (processed.executed.isSome → HeaderCarries base64Decode server msg)
    ∧ (¬HeaderCarries base64Decode server msg
      → (∃ code, processed.reply = .error NNG_HTTP_STATUS_UNAUTHORIZED msg.contentType code)
        ∧ processed.broker = broker
        ∧ processed.executed = none)

/-- An unauthorized request runs no handler and is answered with 401. -/
theorem respond_refused {code : ResultCode} (msg : HttpMsg) (broker : Broker)
    (refused : code ≠ .SUCCEED)
    : respond handlers msg broker code
      = {
        reply := .error NNG_HTTP_STATUS_UNAUTHORIZED msg.contentType code
        broker
        executed := none
      } := by
  cases code with
  | SUCCEED => exact absurd rfl refused
  | UNKNOWN_MISTAKE | WRONG_USERNAME_OR_PASSWORD => rfl
  | EMPTY_USERNAME_OR_PASSWORD | REQ_PARAM_ERROR => rfl

/-- An authorized request either runs a handler or fails for its path or method. -/
theorem respond_authorized (msg : HttpMsg) (broker : Broker)
    : (respond handlers msg broker .SUCCEED).executed.isSome
      ∨ ∃ status,
          status ≠ NNG_HTTP_STATUS_UNAUTHORIZED
          ∧ (respond handlers msg broker .SUCCEED).reply
            = .error status msg.contentType .UNKNOWN_MISTAKE := by
  simp only [respond]
  cases routed : route msg with
  | ok call => exact Or.inl rfl
  | error status =>
      refine Or.inr ⟨status, ?_, rfl⟩
      have kinds : status = NNG_HTTP_STATUS_NOT_FOUND
          ∨ status = NNG_HTTP_STATUS_METHOD_NOT_ALLOWED := by
        simp only [route] at routed
        grind
      rcases kinds with rfl | rfl <;> decide

/-- BASIC authentication is sound for a request exactly when the decoding of its token stays
inside the buffer, and its header carries the credentials, or no token can be scanned from
it, or the scanned token neither leaves a rest of the buffer that completes the credentials
nor decodes to the credentials followed by a NUL.
-/
theorem requestSound_iff (username password : CString) (msg : HttpMsg) (broker : Broker)
    : RequestSound base64Decode heap handlers
          { authType := .BASIC, username, password } msg broker
      ↔ (∀ header token,
          msg.token = some header
          → sscanfBasic header.bytes = some token
          → (base64Decode token).length ≤ username.bytes.length + password.bytes.length + 2)
        ∧ (HeaderCarries base64Decode { authType := .BASIC, username, password } msg
          ∨ ∀ header token,
              msg.token = some header
              → sscanfBasic header.bytes = some token
              → ¬LeftoverCompletes base64Decode heap
                    (username.bytes ++ 58 :: password.bytes) token
                ∧ ¬NulExtends base64Decode (username.bytes ++ 58 :: password.bytes)
                    token) := by
  let server : ServerConf := { authType := .BASIC, username, password }
  change _ ↔ DecodesInside base64Decode server msg ∧ _
  by_cases inside : DecodesInside base64Decode server msg
  · obtain ⟨code, authorized, succeeds⟩ := basicAuthorize_succeeds base64Decode heap inside
    have processed
        : processRequest base64Decode heap handlers server msg broker
          = some (respond handlers msg broker code) :=
      congrArg (Option.map _) authorized
    rw [and_iff_right inside]
    by_cases passes : TokenPasses base64Decode heap server msg
    · obtain rfl := succeeds.mpr passes
      obtain ⟨header, token, present, scanned, kind⟩ := passes
      have fooled
          : ¬∀ header token,
              msg.token = some header
              → sscanfBasic header.bytes = some token
              → ¬LeftoverCompletes base64Decode heap server.credentials token
                ∧ ¬NulExtends base64Decode server.credentials token := by
        intro none
        obtain ⟨notLeftover, notNul⟩ := none header token present scanned
        exact kind.elim notLeftover notNul
      refine Iff.trans ?_ (or_iff_left fooled).symm
      constructor
      · rintro ⟨other, same, onlyThen, otherwise⟩
        obtain rfl := Option.some.inj (processed.symm.trans same)
        by_contra missing
        rcases respond_authorized handlers msg broker with ran | ⟨status, differs, reply⟩
        · exact missing (onlyThen ran)
        · obtain ⟨⟨_, refused⟩, _⟩ := otherwise missing
          exact differs (HttpReply.error.inj (reply.symm.trans refused)).1
      · intro carries
        exact ⟨_, processed, fun _ => carries, fun missing => absurd carries missing⟩
    · have refused := respond_refused handlers msg broker (mt succeeds.mp passes)
      refine iff_of_true ⟨_, processed, ?_⟩ (Or.inr ?_)
      · rw [refused]
        exact ⟨fun ran => absurd ran (by simp), fun _ => ⟨⟨_, rfl⟩, rfl, rfl⟩⟩
      · intro header token present scanned
        exact ⟨fun leftover => passes ⟨header, token, present, scanned, Or.inl leftover⟩,
          fun nul => passes ⟨header, token, present, scanned, Or.inr nul⟩⟩
  · refine iff_of_false ?_ fun sound => inside sound.1
    rintro ⟨processed, answered, _⟩
    have overrun := basicAuthorize_overruns base64Decode heap inside
    have unanswered : processRequest base64Decode heap handlers server msg broker = none :=
      congrArg (Option.map _) overrun
    cases unanswered.symm.trans answered

end Authorize

-- A wrong password that is accepted

/-- The value of a base64 digit. -/
def base64Digit (digit : UInt8) : Option Nat :=
  let code := digit.toNat
  if 65 ≤ code ∧ code ≤ 90 then some (code - 65)
  else if 97 ≤ code ∧ code ≤ 122 then some (code - 71)
  else if 48 ≤ code ∧ code ≤ 57 then some (code + 4)
  else if code = 43 then some 62
  else if code = 47 then some 63
  else none

/-- Base64 decoding of complete groups of four digits; padding ends the text. -/
def base64Groups : List UInt8 → List UInt8
  | first :: second :: third :: fourth :: rest =>
      match base64Digit first, base64Digit second, base64Digit third, base64Digit fourth with
      | some a, some b, some c, some d =>
          UInt8.ofNat (a * 4 + b / 16)
          :: UInt8.ofNat (b % 16 * 16 + c / 4)
          :: UInt8.ofNat (c % 4 * 64 + d)
          :: base64Groups rest
      | some a, some b, some c, none =>
          [UInt8.ofNat (a * 4 + b / 16), UInt8.ofNat (b % 16 * 16 + c / 4)]
      | some a, some b, none, _ => [UInt8.ofNat (a * 4 + b / 16)]
      | _, _, _, _ => []
  | _ => []

/-- The server expects the password `pw` of user `u`. The token is the encoding of `u:p`,
and the fresh buffer happens to hold a `w` behind the three decoded bytes.
-/
theorem leftover_completes_wrong_password
    : let server : ServerConf :=
        {
          authType := .BASIC
          username := CString.ofBytes (ascii ['u'])
          password := CString.ofBytes (ascii ['p', 'w'])
        }
      let msg : HttpMsg :=
        {
          contentType := none
          method := CString.ofBytes (ascii ['G', 'E', 'T'])
          uri := CString.ofBytes REST_URI_ROOT
          token :=
            some (CString.ofBytes (ascii ['B', 'a', 's', 'i', 'c', ' ', 'd', 'T', 'p', 'w']))
          data := []
        }
      let handlers : RestCall → HttpMsg → Nat → Unit × Nat := fun _ _ served => ((), served + 1)
      (processRequest base64Groups (fun _ => 119) handlers server msg 0).map
          Processed.executed
        = some (some .getEndpoints)
      ∧ ¬RequestSound base64Groups (fun _ => 119) handlers server msg 0 := by
  intro server msg handlers
  have executed
      : (processRequest base64Groups (fun _ => 119) handlers server msg 0).map
          Processed.executed
        = some (some .getEndpoints) := by
    decide +kernel
  refine ⟨executed, ?_⟩
  rintro ⟨processed, answered, onlyThen, _⟩
  rw [answered, Option.map_some, Option.some.injEq] at executed
  obtain ⟨header, token, present, shape, decoded⟩ := onlyThen (by rw [executed]; rfl)
  obtain rfl := Option.some.inj present
  have spelled
      : ascii ['B', 'a', 's', 'i', 'c', ' '] ++ token
        = ascii ['B', 'a', 's', 'i', 'c', ' '] ++ ascii ['d', 'T', 'p', 'w'] :=
    shape.symm.trans (by decide)
  obtain rfl := List.append_cancel_left spelled
  exact absurd decoded (by decide)

-- The room for a decoded token

/-- The loop of `base64_decode` over the digits: `held` bits of `value` wait for more, and a
byte is written as soon as eight are complete. Bits left at the end are dropped.
-/
def packBytes : (value held : Nat) → List (Fin 64) → List UInt8
  | _, _, [] => []
  | value, held, digit :: rest =>
      let value := value * 64 + digit.val
      if 2 ≤ held then
        UInt8.ofNat (value / 2 ^ (held - 2)) :: packBytes (value % 2 ^ (held - 2)) (held - 2) rest
      else packBytes value (held + 6) rest

/-- One byte is written for every complete eight bits. By induction on the digits; fewer than
eight bits wait between them.
-/
theorem length_packBytes (value held : Nat) (digits : List (Fin 64)) (partly : held < 8)
    : (packBytes value held digits).length = (held + 6 * digits.length) / 8 := by
  induction digits generalizing value held with
  | nil =>
      have none : held / 8 = 0 := Nat.div_eq_of_lt partly
      simp [packBytes, none]
  | cons digit rest ih =>
      rw [packBytes, List.length_cons]
      split
      · rw [List.length_cons, ih _ _ (by omega)]
        omega
      · rw [ih _ _ (by omega)]
        omega

section Room

-- Which bytes of a token are digits, and where its text ends, is up to the library.
variable (digits : List UInt8 → List (Fin 64))

/-- The bytes that `basic_authorize` has written into its buffer by `base64_decode`. -/
def decodeWrites (msg : HttpMsg) : List UInt8 :=
  match msg.token.bind (fun header => sscanfBasic header.bytes) with
  | none => []
  | some token => packBytes 0 0 (digits token)

/-- The decoded token stays inside the buffer exactly if its digits make at most as many bytes
as the user name and the password have together, and two more.
-/
theorem decoded_token_fits_iff (server : ServerConf) (msg : HttpMsg)
    : (decodeWrites digits msg).length ≤ server.authLen
      ↔ ∀ header token,
          msg.token = some header
          → sscanfBasic header.bytes = some token
          → 6 * (digits token).length / 8
            ≤ server.username.bytes.length + server.password.bytes.length + 2 := by
  unfold decodeWrites
  cases present : msg.token with
  | none => simp
  | some header =>
      cases scanned : sscanfBasic header.bytes with
      | none =>
          simp only [Option.bind_some, scanned, List.length_nil, Nat.zero_le, true_iff]
          intro other token same found
          rw [← Option.some.inj same, scanned] at found
          cases found
      | some token =>
          have written := length_packBytes 0 0 (digits token) (by decide)
          simp only [Option.bind_some, scanned, written, Nat.zero_add, ServerConf.authLen]
          constructor
          · intro fits other otherToken same found
            rw [← Option.some.inj same, scanned] at found
            rw [← Option.some.inj found]
            exact fits
          · intro fits
            exact fits header token rfl scanned

end Room

/-- The digits in front of the first other byte. -/
def leadingDigits (token : List UInt8) : List (Fin 64) :=
  (token.map fun byte => (base64Digit byte).map (Fin.ofNat 64)).takeWhile Option.isSome
    |>.filterMap id

/-- User `u` with password `p` gives a buffer of four bytes; a token of eight digits decodes to
six.
-/
theorem decoded_token_overruns
    : let server : ServerConf :=
        {
          authType := .BASIC
          username := CString.ofBytes (ascii ['u'])
          password := CString.ofBytes (ascii ['p'])
        }
      let msg : HttpMsg :=
        {
          contentType := none
          method := CString.ofBytes (ascii ['G', 'E', 'T'])
          uri := CString.ofBytes REST_URI_ROOT
          token :=
            some
              (CString.ofBytes
                (ascii ['B', 'a', 's', 'i', 'c', ' ', 'Y', 'W', 'J', 'j', 'Z', 'G', 'V', 'm']))
          data := []
        }
      decodeWrites leadingDigits msg = ascii ['a', 'b', 'c', 'd', 'e', 'f']
      ∧ server.authLen = 4
      ∧ ¬(decodeWrites leadingDigits msg).length ≤ server.authLen := by
  decide +kernel

end NanoMQ.Rest
