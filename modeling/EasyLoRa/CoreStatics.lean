import EasyLoRa.CoreAnswers
import EasyLoRa.FrameResponder

namespace EasyLoRa.CoreStatics

open EasyLoRa.ByteQueue
open EasyLoRa.CoreAnswers
open EasyLoRa.CoreReceive
open EasyLoRa.CoreTransmit
open EasyLoRa.DelimitedFrames
open EasyLoRa.FrameResponder
open EasyLoRa.FrameWaiterCalls
open EasyLoRa.FrameWaiterModel
open EasyLoRa.FrameWaiterSteps
open EasyLoRa.TransitionSystem

/-- `ProtocolDecoder::decode` gets the codified frame and two buffers to work in,
`ProtocolCodec::encode` the frame, a buffer to work in and the one for its result. Both
give the two buffers back as they leave them; `none` is an error. -/
structure Codec (F : FrameFormat) where
  decode : List UInt8 → List UInt8 → List UInt8 → Option (Frame F) × List UInt8 × List UInt8
  encode : Frame F → List UInt8 → List UInt8 → Option (List UInt8) × List UInt8 × List UInt8

/-- What `Core_1` relies on in the codec with buffers of `N` and of `T` bytes: what it
finds in them does not matter, a codified frame decodes to the frame it was made of, and
does not contain the delimiter. -/
structure Codec.Documented {F : FrameFormat} (C : Codec F) (N T : Nat) where
  decoded : List UInt8 → Option (Frame F)
  encoded : Frame F → Option (List UInt8)
  decode_fst : ∀ input bytes payload, bytes.length = N → payload.length = N →
    (C.decode input bytes payload).1 = decoded input
  length_decode : ∀ input bytes payload,
    (C.decode input bytes payload).2.1.length = bytes.length ∧
      (C.decode input bytes payload).2.2.length = payload.length
  encode_fst : ∀ frame bytes buffer, bytes.length = T → buffer.length = T →
    (C.encode frame bytes buffer).1 = encoded frame
  length_encode : ∀ frame bytes buffer,
    (C.encode frame bytes buffer).2.1.length = bytes.length ∧
      (C.encode frame bytes buffer).2.2.length = buffer.length
  decoded_of_encoded : ∀ frame codified, encoded frame = some codified →
    decoded codified = some frame
  not_mem_encoded : ∀ frame codified, encoded frame = some codified →
    packetDelimiter ∉ codified

/-- The static members of `Core_1`. -/
structure Statics where
  bytesWritten : Nat
  receivedFrameCodifiedBuffer : List UInt8
  receivedFrameBytes : List UInt8
  receivedFramePayload : List UInt8
  responseFrameCodifiedBuffer : List UInt8
  responseFramePayload : List UInt8
  responseFrameBytes : List UInt8
deriving DecidableEq, Repr

def Statics.init (N T : Nat) : Statics where
  bytesWritten := 0
  receivedFrameCodifiedBuffer := List.replicate N 0
  receivedFrameBytes := List.replicate N 0
  receivedFramePayload := List.replicate N 0
  responseFrameCodifiedBuffer := List.replicate T 0
  responseFramePayload := List.replicate T 0
  responseFrameBytes := List.replicate T 0

/-- The bytes the decoder is given. -/
def Statics.codified (m : Statics) : List UInt8 :=
  m.receivedFrameCodifiedBuffer.take m.bytesWritten

section

variable {F : FrameFormat} (C : Codec F) (P : Nanopb)

/-- The body of the inner loop up to the answer, `none` where it ends in a `continue`. -/
def answerFrame (m : Statics) : Option (List UInt8) × Statics :=
  match C.decode m.codified m.receivedFrameBytes m.receivedFramePayload with
  | (receivedFrame, bytes, payload) =>
      let m := { m with receivedFrameBytes := bytes, receivedFramePayload := payload }
      match receivedFrame with
      | none => (none, m)
      | some frame =>
          let reply := dispatch P frame m.responseFramePayload
          let m := { m with
            responseFramePayload := reply.framePayloadBuffer
            bytesWritten := reply.bytesWritten }
          match reply.result with
          | .error _ => (none, m)
          | .ok responseFrame =>
              match C.encode responseFrame m.responseFrameBytes m.responseFrameCodifiedBuffer with
              | (codified, bytes, buffer) =>
                  (codified, { m with
                    responseFrameBytes := bytes, responseFrameCodifiedBuffer := buffer })

/-- Where `Core_1::main` stands; `handling` is the body of the inner loop. -/
inductive MainPc where
  | polling
  | reading
  | handling
  | waiting
  | asleep
deriving DecidableEq, Repr

structure MainState {N T : Nat} (Q : Ringbuffer N) (R : Ringbuffer T) where
  rx : StepState Q
  tx : FrameWaiter R
  event : Bool
  core1 : MainPc
  statics : Statics

variable {N T : Nat} {Q : Ringbuffer N} {R : Ringbuffer T}

def MainState.init (Q : Ringbuffer N) (R : Ringbuffer T) : MainState Q R where
  rx := StepState.init Q true
  tx := FrameWaiter.init R true
  event := false
  core1 := .polling
  statics := Statics.init N T

def core1MainStep (s : MainState Q R) : Option (MainState Q R) :=
  match s.core1 with
  | .polling =>
      (step s.rx (.read (some s.statics.receivedFrameCodifiedBuffer) N)).map fun rx =>
        { s with rx := rx, core1 := .reading }
  | .reading =>
      (step s.rx .consume).map fun rx =>
        match rx.reading, rx.returned.getLast? with
        | none, some r =>
            { s with
              rx := rx
              statics := { s.statics with
                bytesWritten := r.bytesWritten
                receivedFrameCodifiedBuffer := r.outputBuffer.getD [] }
              core1 := if r.status = .ok then .handling else .waiting }
        | _, _ => { s with rx := rx }
  | .handling =>
      match answerFrame C P s.statics with
      | (none, m) => some { s with statics := m, core1 := .polling }
      | (some codified, m) =>
          match feedRange s.tx codified with
          | (tx, called) =>
              match insertDelimiter tx with
              | (tx, calledAtEnd) =>
                  some { s with
                    tx := tx
                    event := s.event || (called || calledAtEnd)
                    statics := m
                    core1 := .polling }
  | .waiting =>
      if s.event then some { s with event := false, core1 := .polling }
      else some { s with core1 := .asleep }
  | .asleep => if s.event then some { s with event := false, core1 := .polling } else none

def mainStep (s : MainState Q R) : CoreAction → Option (MainState Q R)
  | .irq byte => (step s.rx (.feed byte)).map fun rx => { s with rx := rx }
  | .uart =>
      (step s.rx .produce).map fun rx =>
        { s with rx := rx, event := s.event || decide (s.rx.callbacks < rx.callbacks) }
  | .core1 => core1MainStep C P s

end

/-- What `CoreReceive` sees of it: the frame in hand in place of the buffer and the length. -/
def MainState.core {N T : Nat} {Q : Ringbuffer N} {R : Ringbuffer T} (s : MainState Q R) :
    CoreState Q R where
  rx := s.rx
  tx := s.tx
  event := s.event
  core1 :=
    match s.core1 with
    | .polling => .polling
    | .reading => .reading
    | .handling => .responding s.statics.codified
    | .waiting => .waiting
    | .asleep => .asleep
  receivedFrameCodifiedBuffer := s.statics.receivedFrameCodifiedBuffer

/-- The buffers that the codec and the responder work in keep their sizes. -/
structure Statics.Sized (N T : Nat) (m : Statics) : Prop where
  receivedFrameBytes : m.receivedFrameBytes.length = N
  receivedFramePayload : m.receivedFramePayload.length = N
  responseFrameCodifiedBuffer : m.responseFrameCodifiedBuffer.length = T
  responseFramePayload : m.responseFramePayload.length = T
  responseFrameBytes : m.responseFrameBytes.length = T

theorem sized_init (N T : Nat) : (Statics.init N T).Sized N T := by
  constructor <;> simp [Statics.init]

section

variable {F : FrameFormat} {C : Codec F} {P : Nanopb} {N T : Nat}
variable {Q : Ringbuffer N} {R : Ringbuffer T}
variable (D : C.Documented N T) (E : P.Documented)

/-- The answer to a codified frame, by itself. -/
def respond (f : List UInt8) : Option (List UInt8) :=
  (D.decoded f).bind fun frame =>
    if frame.IsDeviceInfoRequest ∧ P.deviceInfoSize ≤ T then
      D.encoded (deviceInfoResponse E frame)
    else none

include E in
theorem length_framePayloadBuffer (frame : Frame F) (buffer : List UInt8) :
    (dispatch P frame buffer).framePayloadBuffer.length = buffer.length := by
  obtain ⟨-, hdispatch⟩ | ⟨-, houtcome⟩ := dispatch_outcome E frame buffer
  · rw [hdispatch]
  · generalize dispatch P frame buffer = reply at houtcome
    cases houtcome with
    | misdirected htype => rfl
    | incoherent htype hkind => rfl
    | cramped hrequest hroom => rfl
    | answered hrequest hroom =>
        have hmessage := E.length_message getDeviceInfo terminated_getDeviceInfo
        simp only [copyOut, List.length_append, List.length_drop]
        omega

/-- What `dispatch` makes of a frame, in a buffer of `T` bytes. -/
theorem result_dispatch (frame : Frame F) {buffer : List UInt8} (hbuffer : buffer.length = T) :
    (frame.IsDeviceInfoRequest ∧ P.deviceInfoSize ≤ T ∧
        (dispatch P frame buffer).result = .ok (deviceInfoResponse E frame)) ∨
      (¬ (frame.IsDeviceInfoRequest ∧ P.deviceInfoSize ≤ T) ∧
        ∃ error, (dispatch P frame buffer).result = .error error) := by
  obtain ⟨htype, hdispatch⟩ | ⟨-, houtcome⟩ := dispatch_outcome E frame buffer
  · exact Or.inr ⟨fun h => htype h.1.1, _, by rw [hdispatch]⟩
  · generalize dispatch P frame buffer = reply at houtcome
    cases houtcome with
    | misdirected htype => exact Or.inr ⟨fun h => htype h.1.1, _, rfl⟩
    | incoherent htype hkind => exact Or.inr ⟨fun h => hkind h.1.2, _, rfl⟩
    | cramped hrequest hroom =>
        exact Or.inr ⟨fun h => Nat.not_le.mpr hroom (hbuffer ▸ h.2), _, rfl⟩
    | answered hrequest hroom => exact Or.inl ⟨hrequest, hbuffer ▸ hroom, rfl⟩

/-- What the frames before left in the buffers has no part in the answer. -/
theorem answerFrame_sized {m : Statics} (hm : m.Sized N T) :
    (answerFrame C P m).1 = respond D E m.codified ∧ (answerFrame C P m).2.Sized N T ∧
      (answerFrame C P m).2.receivedFrameCodifiedBuffer = m.receivedFrameCodifiedBuffer := by
  have hdecoded := D.decode_fst m.codified _ _ hm.receivedFrameBytes hm.receivedFramePayload
  have hlength := D.length_decode m.codified m.receivedFrameBytes m.receivedFramePayload
  rw [hm.receivedFrameBytes, hm.receivedFramePayload] at hlength
  unfold answerFrame respond
  generalize C.decode m.codified m.receivedFrameBytes m.receivedFramePayload = result at *
  obtain ⟨receivedFrame, bytes, payload⟩ := result
  obtain rfl : receivedFrame = D.decoded m.codified := hdecoded
  cases hframe : D.decoded m.codified with
  | none =>
      exact ⟨rfl, ⟨hlength.1, hlength.2, hm.responseFrameCodifiedBuffer,
        hm.responseFramePayload, hm.responseFrameBytes⟩, rfl⟩
  | some frame =>
      have hresult := result_dispatch E frame hm.responseFramePayload
      have hpayload := length_framePayloadBuffer E frame m.responseFramePayload
      rw [hm.responseFramePayload] at hpayload
      dsimp only
      generalize dispatch P frame m.responseFramePayload = reply at hresult hpayload
      obtain ⟨hrequest, hroom, hok⟩ | ⟨hrefused, error, herror⟩ := hresult
      · have hencoded := D.encode_fst (deviceInfoResponse E frame) _ _ hm.responseFrameBytes
          hm.responseFrameCodifiedBuffer
        have hsizes := D.length_encode (deviceInfoResponse E frame) m.responseFrameBytes
          m.responseFrameCodifiedBuffer
        rw [hm.responseFrameBytes, hm.responseFrameCodifiedBuffer] at hsizes
        rw [hok]
        refine ⟨?_, ⟨hlength.1, hlength.2, hsizes.2, hpayload, hsizes.1⟩, rfl⟩
        simp [hrequest, hroom, hencoded]
      · rw [herror]
        refine ⟨?_, ⟨hlength.1, hlength.2, hm.responseFrameCodifiedBuffer, hpayload,
          hm.responseFrameBytes⟩, rfl⟩
        simp [hrefused]

/-- Every step of `Core_1::main` is one of the core that answers each frame by itself. -/
theorem core_mainStep {s : MainState Q R} (hs : s.statics.Sized N T) (a : CoreAction) :
    (mainStep C P s a).map MainState.core = coreStep (respond D E) s.core a := by
  cases a with
  | irq byte =>
      simp only [mainStep, coreStep, Option.map_map]
      rfl
  | uart =>
      simp only [mainStep, coreStep, Option.map_map]
      rfl
  | core1 =>
      obtain ⟨rx, tx, event, core1, statics⟩ := s
      cases core1 with
      | polling =>
          simp only [mainStep, core1MainStep, coreStep, core1Step, MainState.core,
            Option.map_map]
          rfl
      | reading =>
          simp only [mainStep, core1MainStep, coreStep, core1Step, MainState.core,
            Option.map_map]
          refine congrArg (fun f => Option.map f (step rx .consume)) (funext fun rx => ?_)
          dsimp only [Function.comp]
          cases rx.reading with
          | some pc => rfl
          | none =>
              cases rx.returned.getLast? with
              | none => rfl
              | some r =>
                  by_cases hok : r.status = .ok <;>
                    simp [hok, MainState.core, Statics.codified, ReadResult.payload]
      | handling =>
          have hanswer := (answerFrame_sized D E hs).1
          have hbuffer := (answerFrame_sized D E hs).2.2
          simp only [mainStep, core1MainStep, coreStep, core1Step, MainState.core, ← hanswer]
          generalize answerFrame C P statics = answer at hbuffer
          obtain ⟨_ | codified, m⟩ := answer
          · simpa [MainState.core] using hbuffer
          · simpa [MainState.core] using hbuffer
      | waiting => cases event <;> rfl
      | asleep => cases event <;> rfl

include D E in
theorem sized_mainStep {s t : MainState Q R} {a : CoreAction} (hs : s.statics.Sized N T)
    (hstep : mainStep C P s a = some t) : t.statics.Sized N T := by
  cases a with
  | irq byte =>
      obtain ⟨rx, -, rfl⟩ := Option.map_eq_some_iff.mp hstep
      exact hs
  | uart =>
      obtain ⟨rx, -, rfl⟩ := Option.map_eq_some_iff.mp hstep
      exact hs
  | core1 =>
      simp only [mainStep, core1MainStep] at hstep
      split at hstep
      · obtain ⟨rx, -, rfl⟩ := Option.map_eq_some_iff.mp hstep
        exact hs
      · obtain ⟨rx, -, rfl⟩ := Option.map_eq_some_iff.mp hstep
        split
        · exact ⟨hs.1, hs.2, hs.3, hs.4, hs.5⟩
        · exact hs
      · have hanswer := (answerFrame_sized D E hs).2.1
        generalize answerFrame C P s.statics = answer at hstep hanswer
        obtain ⟨_ | codified, m⟩ := answer <;> obtain rfl := Option.some.inj hstep <;>
          exact hanswer
      · split at hstep <;> exact Option.some.inj hstep ▸ hs
      · split at hstep
        · exact Option.some.inj hstep ▸ hs
        · contradiction

include D E in
theorem sized_of_run {schedule : List CoreAction} {s : MainState Q R}
    (hexec : exec (mainStep C P) (MainState.init Q R) schedule = some s) :
    s.statics.Sized N T :=
  exec_stable (I := fun s : MainState Q R => s.statics.Sized N T)
    (fun _ _ _ hs hstep => sized_mainStep D E hs hstep) (sized_init N T) hexec

theorem map_core_run (Q : Ringbuffer N) (R : Ringbuffer T) (schedule : List CoreAction) :
    (exec (mainStep C P) (MainState.init Q R) schedule).map MainState.core =
      exec (coreStep (respond D E)) (CoreState.init Q R) schedule := by
  have hinit : (MainState.init Q R).statics.Sized N T := sized_init N T
  exact map_exec (I := fun s : MainState Q R => s.statics.Sized N T)
    (fun _ _ _ hs hstep => sized_mainStep D E hs hstep)
    (fun _ a hs => core_mainStep D E hs a) hinit schedule

theorem core_of_run {schedule : List CoreAction} {s : MainState Q R}
    (hexec : exec (mainStep C P) (MainState.init Q R) schedule = some s) :
    exec (coreStep (respond D E)) (CoreState.init Q R) schedule = some s.core := by
  rw [← map_core_run D E, hexec]
  rfl

theorem meets_core {schedule : List CoreAction} {K : CoreState Q R → CoreAction → Prop}
    (hmeets : Meets (mainStep C P) (fun s a => K s.core a) (MainState.init Q R) schedule) :
    Meets (coreStep (respond D E)) K (CoreState.init Q R) schedule :=
  meets_map (I := fun s : MainState Q R => s.statics.Sized N T)
    (fun _ _ _ hs hstep => sized_mainStep D E hs hstep)
    (fun _ a hs => core_mainStep D E hs a) (sized_init N T) hmeets

/-- `Core_1::main` runs exactly as the core that answers each frame by itself, and the
buffers keep their sizes: no answer has anything to do with the frames before. -/
theorem main_runs_as_core (Q : Ringbuffer N) (R : Ringbuffer T)
    (schedule : List CoreAction) :
    (exec (mainStep C P) (MainState.init Q R) schedule).map MainState.core =
        exec (coreStep (respond D E)) (CoreState.init Q R) schedule ∧
      ∀ s, exec (mainStep C P) (MainState.init Q R) schedule = some s →
        s.statics.Sized N T :=
  ⟨map_core_run D E Q R schedule, fun _ hexec => sized_of_run D E hexec⟩

end

end EasyLoRa.CoreStatics
