import EasyLoRa.DeviceInfoRequests

namespace EasyLoRa.UartInterrupt

open EasyLoRa.ByteQueue
open EasyLoRa.CoreAnswers
open EasyLoRa.CoreReceive
open EasyLoRa.CoreStatics
open EasyLoRa.DelimitedFrames
open EasyLoRa.DeviceInfoRequests
open EasyLoRa.DeviceInfoWire
open EasyLoRa.FrameDelivery
open EasyLoRa.FrameResponder
open EasyLoRa.FrameWaiterModel
open EasyLoRa.FrameWaiterSteps
open EasyLoRa.TransitionSystem

/-- Not running, about to ask `isReadable`, about to `read`, or inside `feed`. -/
inductive HandlerPc where
  | idle
  | asking
  | reading
  | feeding
deriving DecidableEq, Repr

/-- `accepted` are the bytes that found room in the FIFO, from the beginning on. -/
structure UartState {N T : Nat} (Q : Ringbuffer N) (R : Ringbuffer T) where
  fifo : List UInt8
  accepted : List UInt8
  handler : HandlerPc
  main : MainState Q R

/-- A byte comes in on the line and is lost where the FIFO is full, the interrupt is taken,
the handler takes its next step, or Core 1 does. -/
inductive UartAction where
  | line (byte : UInt8)
  | interrupt
  | handler
  | core1
deriving DecidableEq, Repr

variable {F : FrameFormat} {C : Codec F} {P : Nanopb} {N T : Nat}
variable {Q : Ringbuffer N} {R : Ringbuffer T}

def UartState.init (Q : Ringbuffer N) (R : Ringbuffer T) : UartState Q R :=
  ⟨[], [], .idle, MainState.init Q R⟩

section

variable (C : Codec F) (P : Nanopb) (depth : Nat)

def handlerStep (s : UartState Q R) : Option (UartState Q R) :=
  match s.handler with
  | .idle => none
  | .asking => some { s with handler := if s.fifo = [] then .idle else .reading }
  | .reading =>
      match s.fifo with
      | [] => none -- `uart_getc` spins
      | byte :: fifo =>
          (mainStep C P s.main (.irq byte)).map fun main =>
            { s with fifo := fifo, handler := .feeding, main := main }
  | .feeding =>
      (mainStep C P s.main .uart).map fun main =>
        { s with
          handler := if main.rx.feeding = none then .asking else .feeding
          main := main }

def uartStep (s : UartState Q R) : UartAction → Option (UartState Q R)
  | .line byte =>
      if s.fifo.length < depth then
        some { s with fifo := s.fifo ++ [byte], accepted := s.accepted ++ [byte] }
      else some s
  | .interrupt => if s.handler = .idle then some { s with handler := .asking } else none
  | .handler => handlerStep C P s
  | .core1 => (mainStep C P s.main .core1).map fun main => { s with main := main }

end

/-- The steps of the two waiters and of Core 1 in a step of the whole. -/
def mainActions (s : UartState Q R) : UartAction → List CoreAction
  | .line _ => []
  | .interrupt => []
  | .handler =>
      match s.handler, s.fifo with
      | .reading, byte :: _ => [.irq byte]
      | .feeding, _ => [.uart]
      | _, _ => []
  | .core1 => [.core1]

/-- The bytes accepted are those `feed` has been called for and those in the FIFO, the
calls do not overlap, and `read` finds a byte. -/
structure Wired (s : UartState Q R) : Prop where
  accepted : s.accepted = s.main.rx.started ++ s.fifo
  feeding : s.main.rx.feeding.isSome = true ↔ s.handler = .feeding
  readable : s.handler = .reading → s.fifo ≠ []

theorem wired_init : Wired (UartState.init Q R) := by
  constructor <;> simp [UartState.init, MainState.init, StepState.init, StepState.started]

/-- Core 1 leaves the `feed` call in progress and the bytes fed alone. -/
theorem producer_core1 {s t : MainState Q R} (hstep : mainStep C P s .core1 = some t) :
    t.rx.feeding = s.rx.feeding ∧ t.rx.finished = s.rx.finished := by
  simp only [mainStep, core1MainStep] at hstep
  split at hstep
  · obtain ⟨rx, hrx, rfl⟩ := Option.map_eq_some_iff.mp hstep
    obtain ⟨-, ⟨out, -, rfl⟩ | ⟨-, rfl⟩⟩ := read_outcome_of_step hrx <;> exact ⟨rfl, rfl⟩
  · obtain ⟨rx, hrx, rfl⟩ := Option.map_eq_some_iff.mp hstep
    have hkept : rx.feeding = s.rx.feeding ∧ rx.finished = s.rx.finished := by
      obtain ⟨pc, w, -, ⟨pc', -, rfl⟩ | ⟨r, -, rfl⟩⟩ := consume_outcome hrx <;> exact ⟨rfl, rfl⟩
    split <;> exact hkept
  · split at hstep <;> obtain rfl := Option.some.inj hstep <;> exact ⟨rfl, rfl⟩
  · split at hstep <;> obtain rfl := Option.some.inj hstep <;> exact ⟨rfl, rfl⟩
  · split at hstep
    · obtain rfl := Option.some.inj hstep
      exact ⟨rfl, rfl⟩
    · contradiction

theorem irq_main {s t : MainState Q R} {byte : UInt8}
    (hstep : mainStep C P s (.irq byte) = some t) :
    t.rx.feeding.isSome = true ∧ t.rx.started = s.rx.started ++ [byte] := by
  obtain ⟨rx, hrx, rfl⟩ := Option.map_eq_some_iff.mp hstep
  obtain ⟨hfeeding, rfl⟩ := feed_outcome_of_step hrx
  simp [StepState.started, hfeeding]

theorem uart_main {s t : MainState Q R} (hstep : mainStep C P s .uart = some t) :
    t.rx.started = s.rx.started := by
  obtain ⟨rx, hrx, rfl⟩ := Option.map_eq_some_iff.mp hstep
  obtain ⟨byte, pc, w, next, called, hfeeding, -, rfl⟩ := produce_outcome hrx
  cases next <;> simp [StepState.started, hfeeding]

theorem wired_handler {s t : UartState Q R} (hs : Wired s)
    (hstep : handlerStep C P s = some t) :
    Wired t ∧ exec (mainStep C P) s.main (mainActions s .handler) = some t.main := by
  unfold handlerStep at hstep
  split at hstep
  · contradiction
  · next hhandler =>
      obtain rfl := Option.some.inj hstep
      refine ⟨⟨hs.accepted, ?_, ?_⟩, by simp [mainActions, hhandler]⟩
      · have hfeeding := hs.feeding
        split <;> simp_all
      · split <;> simp_all
  · next hhandler =>
      split at hstep
      · contradiction
      · next byte fifo hfifo =>
          obtain ⟨main, hmain, rfl⟩ := Option.map_eq_some_iff.mp hstep
          obtain ⟨hfeeding, hstarted⟩ := irq_main hmain
          refine ⟨⟨?_, by simp [hfeeding], by simp⟩, ?_⟩
          · simp [hs.accepted, hstarted, hfifo]
          · simp [mainActions, hhandler, hfifo, exec, hmain]
  · next hhandler =>
      obtain ⟨main, hmain, rfl⟩ := Option.map_eq_some_iff.mp hstep
      refine ⟨⟨?_, ?_, ?_⟩, by simp [mainActions, hhandler, exec, hmain]⟩
      · rw [uart_main hmain]
        exact hs.accepted
      · cases main.rx.feeding <;> simp
      · cases main.rx.feeding <;> simp

theorem wired_step {depth : Nat} {s t : UartState Q R} {a : UartAction} (hs : Wired s)
    (hstep : uartStep C P depth s a = some t) :
    Wired t ∧ exec (mainStep C P) s.main (mainActions s a) = some t.main := by
  cases a with
  | line byte =>
      simp only [uartStep] at hstep
      split at hstep
      · obtain rfl := Option.some.inj hstep
        exact ⟨⟨by simp [hs.accepted], hs.feeding, by simp⟩, rfl⟩
      · obtain rfl := Option.some.inj hstep
        exact ⟨hs, rfl⟩
  | interrupt =>
      simp only [uartStep] at hstep
      split at hstep
      · next hidle =>
          obtain rfl := Option.some.inj hstep
          refine ⟨⟨hs.accepted, ?_, by simp⟩, rfl⟩
          have hfeeding := hs.feeding
          simp_all
      · contradiction
  | handler => exact wired_handler hs hstep
  | core1 =>
      obtain ⟨main, hmain, rfl⟩ := Option.map_eq_some_iff.mp hstep
      obtain ⟨hfeeding, hfinished⟩ := producer_core1 hmain
      refine ⟨⟨?_, ?_, hs.readable⟩, by simp [mainActions, exec, hmain]⟩
      · simp only [StepState.started, hfeeding, hfinished]
        exact hs.accepted
      · simpa only [hfeeding] using hs.feeding

section

variable (D : C.Documented N T) (E : P.Documented)

/-- While all frames so far fit, they are answered as in `CoreAnswers`. -/
structure AnsweringMain (s : MainState Q R) : Prop where
  sized : s.statics.Sized N T
  answering : Fits N N s.rx.started → Answering (respond D E) s.core

theorem answeringMain_init : AnsweringMain D E (MainState.init Q R) :=
  ⟨sized_init N T, fun _ => answering_init⟩

theorem answeringMain_step {s t : MainState Q R} {a : CoreAction}
    (hs : AnsweringMain D E s) (hcondition : RxFits s.core a)
    (hstep : mainStep C P s a = some t) : AnsweringMain D E t := by
  have hcore : coreStep (respond D E) s.core a = some t.core := by
    rw [← core_mainStep D E hs.sized, hstep]
    rfl
  refine ⟨sized_mainStep D E hs.sized hstep, fun hfits => ?_⟩
  exact answering_step (hs.answering (fits_of_isPrefix (started_prefix_core hcore) hfits))
    hcondition hfits hcore

/-- No insert into the Rx ring fails. -/
def LineFits (C : Codec F) (P : Nanopb) (s : UartState Q R) (a : UartAction) : Prop :=
  Meets (mainStep C P) (fun s a => RxFits s.core a) s.main (mainActions s a)

instance (s : UartState Q R) (a : UartAction) : Decidable (LineFits C P s a) :=
  inferInstanceAs (Decidable (Meets _ _ _ _))

theorem answeringMain_of_run {depth : Nat} {schedule : List UartAction} {s : UartState Q R}
    (hmeets : Meets (uartStep C P depth) (LineFits C P) (UartState.init Q R) schedule)
    (hexec : exec (uartStep C P depth) (UartState.init Q R) schedule = some s) :
    Wired s ∧ AnsweringMain D E s.main :=
  exec_invariant (I := fun s : UartState Q R => Wired s ∧ AnsweringMain D E s.main)
    (fun _ _ _ hs hcondition hstep => by
      obtain ⟨ht, hmain⟩ := wired_step hs.1 hstep
      refine ⟨ht, ?_⟩
      exact exec_invariant (fun _ _ _ hs hcondition hstep =>
        answeringMain_step D E hs hcondition hstep) hs.2 hcondition hmain)
    ⟨wired_init, answeringMain_init D E⟩ hmeets hexec

/-- From the line to the Tx ring: while no Rx insert fails, once the FIFO is drained and
both cores rest, the frames in the Tx ring are one response to every request that the
FIFO has accepted, in order, unless an answer was cut off. -/
theorem line_answered (Q : Ringbuffer N) (R : Ringbuffer T) (hroomy : Roomy D E)
    (depth : Nat) (schedule : List UartAction) (s : UartState Q R)
    (hfits : Fits N N s.accepted)
    (hmeets : Meets (uartStep C P depth) (LineFits C P) (UartState.init Q R) schedule)
    (hexec : exec (uartStep C P depth) (UartState.init Q R) schedule = some s)
    (hidle : s.handler = .idle) (hdrained : s.fifo = []) (hquiet : Quiet s.main.core)
    (hwhole : s.main.tx.overflow = false) :
    (frames packetDelimiter s.main.tx.ring).map D.decoded =
      (responses D E (frames packetDelimiter s.accepted)).map some := by
  obtain ⟨hwired, hmain⟩ := answeringMain_of_run D E hmeets hexec
  have hfeeding : s.main.rx.feeding = none := by
    have hnone := hwired.feeding
    simpa [hidle] using hnone
  have haccepted : s.accepted = s.main.rx.finished := by
    rw [hwired.accepted, hdrained]
    simp [StepState.started, hfeeding]
  have hstarted : Fits N N s.main.rx.started := by
    rwa [hwired.accepted, hdrained, List.append_nil] at hfits
  rw [haccepted]
  exact answers_of_quiet D E hroomy (hmain.answering hstarted) hquiet hwhole

end

/-- The later bytes come in while the handler runs. -/
def lineSchedule : List UartAction :=
  (requestBytes.take 16).map .line ++ .interrupt :: List.replicate 30 .handler ++
    (requestBytes.drop 16).map .line ++ List.replicate 91 .handler ++ List.replicate 45 .core1

theorem line_answered_lineSchedule :
    ∃ s, exec (uartStep codec protobuf 32) (UartState.init (fifo 80) (fifo 80)) lineSchedule =
        some s ∧
      s.accepted = requestBytes ∧
      (frames packetDelimiter s.main.tx.ring).map (decoded 80) =
        ([261, 262] : List UInt16).map fun seq =>
          some ⟨1, byteFormat.response, 0, 0, seq, byteFormat.getDeviceInfo,
            message getDeviceInfo⟩ := by
  have hrun : ∃ s, exec (uartStep codec protobuf 32) (UartState.init (fifo 80) (fifo 80))
      lineSchedule = some s ∧ s.accepted = requestBytes ∧ s.handler = .idle ∧ s.fifo = [] ∧
      Quiet s.main.core ∧ s.main.tx.overflow = false :=
    ⟨(exec (uartStep codec protobuf 32) (UartState.init (fifo 80) (fifo 80)) lineSchedule).get
      (by decide +kernel), by simp, by decide +kernel, by decide +kernel, by decide +kernel,
      by decide +kernel, by decide +kernel⟩
  obtain ⟨s, hexec, haccepted, hidle, hdrained, hquiet, hwhole⟩ := hrun
  have hfits : Fits 80 80 s.accepted := by
    rw [haccepted]
    decide +kernel
  have hanswered := line_answered (codecDocumented 80) protobufDocumented (fifo 80) (fifo 80)
    roomy_eighty 32 lineSchedule s hfits (by decide +kernel) hexec hidle hdrained hquiet hwhole
  refine ⟨s, hexec, haccepted, hanswered.trans ?_⟩
  rw [haccepted]
  rfl

end EasyLoRa.UartInterrupt
