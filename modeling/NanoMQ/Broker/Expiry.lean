import NanoMQ.Broker.SubscribeRetained

/-! Message expiry against the clock: `check_msg_exp` multiplies the interval in 32 bits, so it
is exact only for intervals whose milliseconds fit there.
-/

namespace NanoMQ

/-- A version 5 message with an expiry interval of this many seconds. -/
structure ExpiresAfter (msg : NngMsg) (seconds : Nat) : Prop where
  version : msg.cmdType = .PUBLISH_V5
  interval : propertyGetValue msg.protoProperty MESSAGE_EXPIRY_INTERVAL = some (.u32 seconds)
  unsigned : seconds < 2 ^ 32

/-- The message counts as expired exactly after its interval. It stays expired, and with a
shorter interval it would not have lived longer.
-/
structure ExactExpiry (msg : NngMsg) (seconds : Nat) : Prop where
  exact
    : ∀ now < 2 ^ 64, checkMsgExp now msg = false ↔ msg.timestamp + 1000 * seconds < now
  lasting
    : ∀ {now later},
        now ≤ later → checkMsgExp now msg = false → checkMsgExp later msg = false
  monotone
    : ∀ {other shorter now},
        ExpiresAfter other shorter
        → other.timestamp = msg.timestamp
        → shorter ≤ seconds
        → checkMsgExp now other = true
        → checkMsgExp now msg = true

/-- What the code compares: the product is taken to 32 bits before the sum is formed. -/
theorem ExpiresAfter.expired_iff {msg : NngMsg} {seconds : Nat}
    (expires : ExpiresAfter msg seconds) (now : Nat)
    : checkMsgExp now msg = false ↔ msg.timestamp + 1000 * seconds % 2 ^ 32 < now := by
  have stored : (PropertyValue.u32 seconds).asU32 = seconds :=
    Nat.mod_eq_of_lt expires.unsigned
  unfold checkMsgExp
  simp [expires.version, expires.interval, stored, Nat.mul_comm seconds]

theorem checkMsgExp_earlier {msg : NngMsg} {now later : Nat} (order : now ≤ later)
    (live : checkMsgExp later msg = true)
    : checkMsgExp now msg = true := by
  unfold checkMsgExp at live ⊢
  split at live
  · rename_i version
    rw [if_pos version]
    split at live
    · rfl
    · rw [decide_eq_true_eq] at live ⊢
      omega
  · rename_i version
    rw [if_neg version]

/-- The milliseconds of an interval fit in 32 bits. -/
theorem milliseconds_fit {seconds : Nat}
    : seconds ≤ 4294967 ↔ 1000 * seconds % 2 ^ 32 = 1000 * seconds := by
  constructor
  · intro short
    exact Nat.mod_eq_of_lt (by omega)
  · intro kept
    have bound := Nat.mod_lt (1000 * seconds) (Nat.two_pow_pos 32)
    omega

/-- Expiry is exact for the intervals whose milliseconds fit in 32 bits, and for no others. -/
theorem expiry_exact_iff {msg : NngMsg} {seconds : Nat} (expires : ExpiresAfter msg seconds)
    (representable : msg.timestamp + 1000 * seconds < 2 ^ 64)
    : ExactExpiry msg seconds ↔ seconds ≤ 4294967 := by
  constructor
  · intro exactly
    -- A message that is looked at when its interval ends has not expired yet.
    have unexpired : ¬checkMsgExp (msg.timestamp + 1000 * seconds) msg = false := by
      rw [exactly.exact _ representable]
      exact Nat.lt_irrefl _
    rw [expires.expired_iff] at unexpired
    have below := Nat.mod_le (1000 * seconds) (2 ^ 32)
    exact milliseconds_fit.mpr (by omega)
  · intro short
    have kept := milliseconds_fit.mp short
    refine {
      exact := fun now _ => by rw [expires.expired_iff, kept]
      lasting := ?_
      monotone := ?_
    }
    · intro now later order expired
      by_contra live
      rw [Bool.not_eq_false] at live
      rw [checkMsgExp_earlier order live] at expired
      cases expired
    · intro other shorter now otherExpires sameTime order live
      have otherKept := milliseconds_fit.mp (order.trans short)
      by_contra expired
      rw [Bool.not_eq_true, expires.expired_iff, kept] at expired
      rw [← Bool.not_eq_false, otherExpires.expired_iff, otherKept, sameTime] at live
      omega

/-- The longest interval that is exact, a good 49 days. -/
theorem expiry_exact_at_limit
    : ExpiresAfter (expiringMsg 4294967) 4294967 ∧ ExactExpiry (expiringMsg 4294967) 4294967 := by
  have expires : ExpiresAfter (expiringMsg 4294967) 4294967 :=
    { version := rfl, interval := by decide, unsigned := by decide }
  exact ⟨expires, (expiry_exact_iff expires (by decide)).mpr (by decide)⟩

/-- With one second more the message expires within a second of its arrival. -/
theorem longer_interval_expires
    : checkMsgExp 705 (expiringMsg 4294967) = true
      ∧ checkMsgExp 705 (expiringMsg 4294968) = false
      ∧ ¬(expiringMsg 4294968).timestamp + 1000 * 4294968 < 705 := by
  decide

end NanoMQ
