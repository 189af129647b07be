import EasyLoRa.DeviceInfoWire

namespace EasyLoRa.DeviceInfoRequests

open EasyLoRa.ByteQueue
open EasyLoRa.Cobs
open EasyLoRa.CoreAnswers
open EasyLoRa.CoreReceive
open EasyLoRa.CoreStatics
open EasyLoRa.CoreTransmit
open EasyLoRa.DelimitedFrames
open EasyLoRa.DeviceInfoWire
open EasyLoRa.FrameDelivery
open EasyLoRa.FrameResponder
open EasyLoRa.FrameWaiterModel
open EasyLoRa.ReceiveWakeup
open EasyLoRa.TransitionSystem

variable {F : FrameFormat} {C : Codec F} {P : Nanopb} {N T : Nat}
variable {Q : Ringbuffer N} {R : Ringbuffer T}
variable (D : C.Documented N T) (E : P.Documented)

/-- The requests for device info among codified frames. -/
def requests (fs : List (List UInt8)) : List (Frame F) :=
  (fs.filterMap D.decoded).filter fun frame => frame.IsDeviceInfoRequest

def responses (fs : List (List UInt8)) : List (Frame F) :=
  (requests D fs).map (deviceInfoResponse E)

/-- A response to any request finds room, both its payload and its codified form. -/
structure Roomy : Prop where
  payload : P.deviceInfoSize ≤ T
  codified : ∀ frame : Frame F, (D.encoded (deviceInfoResponse E frame)).isSome = true

/-- The answers decode to one response for each request, and nothing else is answered. -/
theorem decoded_answers (hroomy : Roomy D E) (fs : List (List UInt8)) :
    (fs.filterMap (respond D E)).map D.decoded = (responses D E fs).map some := by
  induction fs with
  | nil => rfl
  | cons f fs ih =>
      cases hframe : D.decoded f with
      | none =>
          have hrespond : respond D E f = none := by simp [respond, hframe]
          rw [List.filterMap_cons_none hrespond, ih]
          simp [responses, requests, hframe]
      | some frame =>
          by_cases hrequest : frame.IsDeviceInfoRequest
          · obtain ⟨codified, hcodified⟩ := Option.isSome_iff_exists.mp (hroomy.codified frame)
            have hrespond : respond D E f = some codified := by
              simp [respond, hframe, hrequest, hroomy.payload, hcodified]
            have hdecoded := D.decoded_of_encoded _ _ hcodified
            rw [List.filterMap_cons_some hrespond, List.map_cons, ih, hdecoded]
            simp [responses, requests, hframe, hrequest]
          · have hrespond : respond D E f = none := by simp [respond, hframe, hrequest]
            rw [List.filterMap_cons_none hrespond, ih]
            simp [responses, requests, hframe, hrequest]

theorem not_mem_respond {f codified : List UInt8} (h : respond D E f = some codified) :
    packetDelimiter ∉ codified := by
  obtain ⟨frame, -, hencoded⟩ := Option.bind_eq_some_iff.mp h
  split at hencoded
  · exact D.not_mem_encoded _ _ hencoded
  · contradiction

theorem answers_of_quiet (hroomy : Roomy D E) {s : CoreState Q R}
    (hs : Answering (respond D E) s) (hquiet : Quiet s) (hwhole : s.tx.overflow = false) :
    (frames packetDelimiter s.tx.ring).map D.decoded =
      (responses D E (frames packetDelimiter s.rx.finished)).map some := by
  have hfilling := hs.transmitting.filling
  have hring : s.tx.ring = answerStream (respond D E) (handled s) := by
    rw [hfilling.ring, List.take_of_length_le]
    have hlength := hfilling.overflow
    rw [hwhole] at hlength
    simpa using hlength
  rw [hring, frames_answerStream (fun _ _ h => not_mem_respond D E h),
    decoded_answers D E hroomy, handled_of_quiet hs hquiet]

/-- In every run the frames in the Tx ring decode to responses to the first requests
among the frames Core 1 is done with. If no Rx insert fails, then once Core 1 is blocked
with nothing to wake it and no answer was cut off, they are one response to every
request received, in order, and nothing else. -/
theorem requests_answered (Q : Ringbuffer N) (R : Ringbuffer T) (hroomy : Roomy D E)
    (schedule : List CoreAction) (s : MainState Q R)
    (hexec : exec (mainStep C P) (MainState.init Q R) schedule = some s) :
    (frames packetDelimiter s.tx.ring).map D.decoded <+:
        (responses D E (handled s.core)).map some ∧
      (Meets (mainStep C P) (fun s a => RxFits s.core a) (MainState.init Q R) schedule →
        Fits N N s.rx.started → Quiet s.core → s.tx.overflow = false →
        (frames packetDelimiter s.tx.ring).map D.decoded =
          (responses D E (frames packetDelimiter s.rx.finished)).map some) := by
  have hcore := core_of_run D E hexec
  have hfilling : Filling s.tx (answerStream (respond D E) (handled s.core)) :=
    (transmitting_of_run hcore).filling
  constructor
  · rw [← decoded_answers D E hroomy]
    exact (frames_prefix_of_filling (fun _ _ h => not_mem_respond D E h) hfilling).map _
  · intro hmeets hfits hquiet hwhole
    exact answers_of_quiet D E hroomy (answering_of_run hfits (meets_core D E hmeets) hcore)
      hquiet hwhole

theorem roomy_eighty : Roomy (codecDocumented 80) protobufDocumented where
  payload := by decide
  codified frame := by
    have hpayload : (message getDeviceInfo).length + 7 ≤ 79 := by decide
    have hlength :
        (frameBytes (deviceInfoResponse protobufDocumented frame)).length ≤ 79 := hpayload
    have hencodable : Encodable (deviceInfoResponse protobufDocumented frame) :=
      ⟨(by decide : 1 < 256), (by decide : 0 < 256), (by decide : 0 < 256), by omega⟩
    have hstuffed := length_stuff (frameBytes (deviceInfoResponse protobufDocumented frame))
    have hcondition : Encodable (deviceInfoResponse protobufDocumented frame) ∧
        (stuff (frameBytes (deviceInfoResponse protobufDocumented frame))).length ≤ 80 :=
      ⟨hencodable, by omega⟩
    exact Option.isSome_iff_exists.mpr ⟨_, if_pos hcondition⟩

/-- Requests `261` and `262`, with a response and a broken frame between them. -/
def requestBytes : List UInt8 :=
  stuff [1, 0, 0, 0, 1, 5, 1] ++ 0 :: stuff [1, 1, 0, 0, 0, 9, 1] ++ [0, 7, 0] ++
    stuff [1, 0, 0, 0, 1, 6, 1] ++ [0]

def requestSchedule : List CoreAction :=
  requestBytes.flatMap receive ++ List.replicate 45 .core1

theorem requests_answered_requestSchedule :
    ∃ s, exec (mainStep codec protobuf) (MainState.init (fifo 80) (fifo 80)) requestSchedule =
        some s ∧
      s.rx.finished = requestBytes ∧
      (frames packetDelimiter s.tx.ring).map (decoded 80) =
        ([261, 262] : List UInt16).map fun seq =>
          some ⟨1, byteFormat.response, 0, 0, seq, byteFormat.getDeviceInfo,
            message getDeviceInfo⟩ := by
  have hrun : ∃ s, exec (mainStep codec protobuf) (MainState.init (fifo 80) (fifo 80))
      requestSchedule = some s ∧ s.rx.finished = requestBytes ∧ Fits 80 80 s.rx.started ∧
      Quiet s.core ∧ s.tx.overflow = false :=
    ⟨(exec (mainStep codec protobuf) (MainState.init (fifo 80) (fifo 80)) requestSchedule).get
      (by decide +kernel), by simp, by decide +kernel, by decide +kernel, by decide +kernel,
      by decide +kernel⟩
  obtain ⟨s, hexec, hfinished, hfits, hquiet, hwhole⟩ := hrun
  have hanswered := (requests_answered (codecDocumented 80) protobufDocumented (fifo 80) (fifo 80)
    roomy_eighty requestSchedule s hexec).2 (by decide +kernel) hfits hquiet hwhole
  refine ⟨s, hexec, hfinished, hanswered.trans ?_⟩
  rw [hfinished]
  rfl

theorem main_runs_as_core_requestSchedule :
    ∃ s, exec (mainStep codec protobuf) (MainState.init (fifo 80) (fifo 80)) requestSchedule =
        some s ∧
      exec (coreStep (respond (codecDocumented 80) protobufDocumented))
        (CoreState.init (fifo 80) (fifo 80)) requestSchedule = some s.core ∧
      s.statics.responseFramePayload.take 21 = message getDeviceInfo ∧
      s.statics.Sized 80 80 := by
  have hrun : ∃ s, exec (mainStep codec protobuf) (MainState.init (fifo 80) (fifo 80))
      requestSchedule = some s ∧
      s.statics.responseFramePayload.take 21 = message getDeviceInfo :=
    ⟨(exec (mainStep codec protobuf) (MainState.init (fifo 80) (fifo 80)) requestSchedule).get
      (by decide +kernel), by simp, by decide +kernel⟩
  obtain ⟨s, hexec, hpayload⟩ := hrun
  obtain ⟨hcore, hsized⟩ := main_runs_as_core (codecDocumented 80) protobufDocumented (fifo 80)
    (fifo 80) requestSchedule
  rw [hexec] at hcore
  exact ⟨s, hexec, hcore.symm, hpayload, hsized s hexec⟩

end EasyLoRa.DeviceInfoRequests
