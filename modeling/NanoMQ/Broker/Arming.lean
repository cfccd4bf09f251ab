import NanoMQ.Broker.Reference

/-! Every activation arms its context exactly once. -/

namespace NanoMQ

open Contexts

/-- The calls that arrange a completion of `work->aio`. -/
def arms (trace : List Effect) : List Effect :=
  trace.filter (fun effect => effect.kind == .arm)

section Rearms

variable {mine : MsgId → Prop} {s t : Cb}

theorem Frame.arms_eq (frame : Frame mine [.other, .delivery, .handling, .storing] s t)
    : arms t.trace = arms s.trace := by
  apply frame.trace.filter_eq
  intro effect member
  simp only [List.mem_cons, List.not_mem_nil, or_false] at member
  rcases member with kind | kind | kind | kind <;> rw [kind] <;> rfl

theorem Rearms.arms_eq (rearms : Rearms mine [.other, .delivery, .handling, .storing] s t)
    : ∃ arm, arms t.trace = arms s.trace ++ [arm] := by
  obtain ⟨arm, isArm, _, before, after⟩ := rearms
  refine ⟨arm, ?_⟩
  rw [after.arms_eq, ← before.arms_eq]
  change arms (_ ++ [arm]) = _
  unfold arms
  rw [List.filter_append, List.filter_singleton, isArm]
  rfl

theorem Rearms.recv_role {extra : Bool}
    (rearms : Rearms mine [.other, .delivery, .handling, .storing] s t)
    (received : .ctxRecv extra ∈ t.trace) (notBefore : .ctxRecv extra ∉ s.trace)
    : extra = false ↔ s.work.proto = .MQTT_BROKER := by
  obtain ⟨arm, isArm, role, before, after⟩ := rearms
  have silent
      : (Effect.ctxRecv extra).kind ∉ [EffectKind.other, .delivery, .handling, .storing] := by
    change EffectKind.arm ∉ _
    decide
  have armed := after.trace.mem_of_mem received silent
  rcases List.mem_append.mp armed with earlier | last
  · exact absurd (before.trace.mem_of_mem earlier silent) notBefore
  · rw [role extra (List.mem_singleton.mp last).symm, before.proto]

end Rearms

/-- In every run of the broker, each activation of a context that does not end the process
arranges exactly one next completion, and it receives only on the context of its role.
-/
theorem activation_arms_once {Index : Type} [DecidableEq Index] {lib : Library}
    {first system : System Index Work World} {history : List Effect}
    (notifies : lib.NotifiesPublish) (starts : Starts first)
    (reached : Reach (activate lib) (fun _ => Permitted lib) first system history) (index : Index)
    (env : Env)
    : let work := system.locals index
      let trace := (serverCb lib env work system.shared).trace
      .fatal ∉ trace
      → (arms trace).length = 1
        ∧ ∀ extra,
            .ctxRecv extra ∈ trace → (extra = false ↔ work.proto = .MQTT_BROKER) := by
  intro work trace alive
  have holds := (starts.reachable notifies reached).own index
  have rearms := (serverCb_activates holds.fits alive).rearms (fun _ => Or.inl)
    (Nat.le_refl _)
  obtain ⟨arm, armed⟩ := rearms.arms_eq
  refine ⟨?_, fun extra received => rearms.recv_role received List.not_mem_nil⟩
  rw [armed]
  rfl

/-- The disconnect event of a client whose will is `x` on topic `w`. -/
def disconnectWithWill : NngMsg :=
  {
    composePublish false 0 [110] [0] MQTT_PROTOCOL_VERSION_v311 with
    cmdType := .DISCONNECT_EV
    connParam :=
      { ConnParam.plain 4 with willFlag := true, willTopic := some [119], willMsg := some [120] }
  }

/-- The context that has taken a disconnect event publishes the will and is armed once. -/
theorem will_arms_once
    : let lib := referenceLibrary (fun _ => some [7])
      let system :=
        (oneContext.step (activate lib) () (.brings none)).step (activate lib) ()
          (.brings (some disconnectWithWill))
      let trace := (serverCb lib (.brings none) (system.locals ()) system.shared).trace
      (system.locals ()).state = .END
      ∧ .fatal ∉ trace
      ∧ (arms trace).length = 1
      ∧ ∀ extra,
          .ctxRecv extra ∈ trace
          → (extra = false ↔ (system.locals ()).proto = .MQTT_BROKER) := by
  intro lib system trace
  have started : Reach (activate lib) (fun _ => Permitted lib) oneContext
      (oneContext.step (activate lib) () (.brings none)) _ :=
    .step () (.brings none) .start
      { delivers := Env.delivers_brings_none, alive := by decide +kernel }
  have reached : Reach (activate lib) (fun _ => Permitted lib) oneContext system _ :=
    .step () (.brings (some disconnectWithWill)) started
      {
        delivers := by
          rintro msg ⟨⟩ _
          decide +kernel
        alive := by decide +kernel
      }
  have alive : .fatal ∉ trace := by decide +kernel
  exact ⟨by decide +kernel, alive,
    activation_arms_once (referenceLibrary_notifies _) oneContext_starts reached ()
      (.brings none) alive⟩

end NanoMQ
