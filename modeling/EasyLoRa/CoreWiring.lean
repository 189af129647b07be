import EasyLoRa.CoreReceive

namespace EasyLoRa.CoreWiring

open EasyLoRa.ByteQueue
open EasyLoRa.CoreReceive
open EasyLoRa.DelimitedFrames
open EasyLoRa.FrameWaiterModel
open EasyLoRa.FrameWaiterOutcomes
open EasyLoRa.FrameWaiterSteps
open EasyLoRa.TransitionSystem

variable {N T : Nat} {Q : Ringbuffer N} {R : Ringbuffer T}
variable {respond : List UInt8 → Option (List UInt8)}

def rxBufferSize : Nat := 512

def txBufferSize : Nat := 512

/-- The two translation units that use the waiter and include `Instances.hpp`. -/
inductive TranslationUnit where
  | core0
  | core1
deriving DecidableEq, Repr

/-- With internal linkage every translation unit has an object of its own, with
external linkage the name denotes one object in all of them. -/
inductive Linkage where
  | internal
  | external
deriving DecidableEq, Repr

/-- `Instances.hpp` declares the waiters `static`. -/
def linkage : Linkage := .internal

def instanceOf : Linkage → TranslationUnit → TranslationUnit
  | .internal, unit => unit
  | .external, _ => .core0

/-- The Rx waiters, each with the calls in progress on it; the rest is the state of
Core 1 as in `CoreState`. -/
structure FirmwareState {N T : Nat} (Q : Ringbuffer N) (R : Ringbuffer T) where
  rx : TranslationUnit → StepState Q
  tx : FrameWaiter R
  event : Bool
  core1 : Core1Pc
  receivedFrameCodifiedBuffer : List UInt8

def FirmwareState.init (Q : Ringbuffer N) (R : Ringbuffer T) : FirmwareState Q R where
  rx := fun _ => StepState.init Q true
  tx := FrameWaiter.init R true
  event := false
  core1 := .polling
  receivedFrameCodifiedBuffer := List.replicate N 0

/-- The firmware as code sees it whose Rx waiter is `object`. -/
def FirmwareState.view (s : FirmwareState Q R) (object : TranslationUnit) : CoreState Q R :=
  ⟨s.rx object, s.tx, s.event, s.core1, s.receivedFrameCodifiedBuffer⟩

def FirmwareState.store (s : FirmwareState Q R) (object : TranslationUnit)
    (c : CoreState Q R) : FirmwareState Q R :=
  ⟨Function.update s.rx object c.rx, c.tx, c.event, c.core1, c.receivedFrameCodifiedBuffer⟩

/-- The translation unit whose code takes the step. -/
def unitOf : CoreAction → TranslationUnit
  | .irq _ => .core0
  | .uart => .core0
  | .core1 => .core1

def firmwareStep (linkage : Linkage) (respond : List UInt8 → Option (List UInt8))
    (s : FirmwareState Q R) (a : CoreAction) : Option (FirmwareState Q R) :=
  (coreStep respond (s.view (instanceOf linkage (unitOf a))) a).map
    (s.store (instanceOf linkage (unitOf a)))

/-- The firmware, whether the call of `tryReadFrame` in progress began after the last
byte, and whether such a call has returned `IncompleteFrame`. -/
structure Watched {N T : Nat} (Q : Ringbuffer N) (R : Ringbuffer T) where
  firmware : FirmwareState Q R
  asking : Bool
  settled : Bool

def Watched.init (Q : Ringbuffer N) (R : Ringbuffer T) : Watched Q R :=
  ⟨FirmwareState.init Q R, false, false⟩

section

variable (linkage : Linkage)

/-- The bytes Core 0 has begun to feed. -/
def received (s : FirmwareState Q R) : List UInt8 :=
  (s.rx (instanceOf linkage .core0)).started

def results (s : FirmwareState Q R) : List ReadResult :=
  (s.rx (instanceOf linkage .core1)).returned

/-- The frames that calls of Core 1 have returned with `OK`. -/
def deliveredFrames (s : FirmwareState Q R) : List (List UInt8) :=
  ((results linkage s).filter fun r => r.status = .ok).map ReadResult.payload

def watch (respond : List UInt8 → Option (List UInt8)) (w : Watched Q R) (a : CoreAction) :
    Option (Watched Q R) :=
  (firmwareStep linkage respond w.firmware a).map fun t =>
    match a with
    | .irq _ => ⟨t, false, false⟩
    | .uart => { w with firmware := t }
    | .core1 =>
        { firmware := t
          asking :=
            if w.firmware.core1 = .polling then
              (w.firmware.rx (instanceOf linkage .core0)).feeding.isNone
            else w.asking
          settled := w.settled ||
            (w.asking && ((results linkage t).drop (results linkage w.firmware).length).any
              fun r => r.status = .incompleteFrame) }

/-- What Core 1 was given is a prefix of the frames received, and all of them once it
has polled to `IncompleteFrame` after the last byte. -/
def Delivered (w : Watched Q R) : Prop :=
  deliveredFrames linkage w.firmware <+: frames packetDelimiter (received linkage w.firmware) ∧
    (w.settled = true →
      deliveredFrames linkage w.firmware =
        frames packetDelimiter (received linkage w.firmware))

instance (w : Watched Q R) : Decidable (Delivered linkage w) :=
  inferInstanceAs (Decidable (_ ∧ _))

end

@[simp] theorem view_store (s : FirmwareState Q R) (object : TranslationUnit)
    (c : CoreState Q R) : (s.store object c).view object = c := by
  simp [FirmwareState.view, FirmwareState.store]

theorem rx_store_of_ne (s : FirmwareState Q R) {object other : TranslationUnit}
    (h : other ≠ object) (c : CoreState Q R) : (s.store object c).rx other = s.rx other := by
  simp [FirmwareState.store, h]

/-- With one object in both translation units, the firmware is the system of
`CoreReceive`. -/
theorem view_firmwareStep_external (s : FirmwareState Q R) (a : CoreAction) :
    (firmwareStep .external respond s a).map (fun t => t.view .core0) =
      coreStep respond (s.view .core0) a := by
  simp only [firmwareStep, instanceOf, Option.map_map]
  cases coreStep respond (s.view .core0) a with
  | none => rfl
  | some c => simp

/-- No byte has ever come into the waiter. -/
structure Unfed (rx : StepState Q) : Prop where
  ring : rx.waiter.ring = []
  overflow : rx.waiter.overflow = false
  reading : ∀ out status, rx.reading ≠ some (.dropping out status)
  returned : ∀ r ∈ rx.returned, r.status = .incompleteFrame

theorem unfed_init (callback : Bool) : Unfed (StepState.init Q callback) := by
  constructor <;> simp [StepState.init]

theorem unfed_core1 {s t : CoreState Q R} (hs : Unfed s.rx)
    (hstep : coreStep respond s .core1 = some t) : Unfed t.rx := by
  cases core1_outcome hstep with
  | polled hcore => exact ⟨hs.ring, hs.overflow, by simp, hs.returned⟩
  | progressed pc pc' w hcore hreading hread =>
      cases hread with
      | ranEmpty => exact ⟨hs.ring, hs.overflow, by simp, hs.returned⟩
      | assembled out cap byte buffer hbyte hring => simp [hs.ring] at hring
      | filled out cap byte buffer hbyte hring => simp [hs.ring] at hring
      | overflowed out hoverflow => simp [hs.overflow] at hoverflow
      | droppedByte out status byte buffer hbyte hring => simp [hs.ring] at hring
  | returned pc r w hcore hreading hread =>
      cases hread with
      | rejected out cap buffer hring => simp [hs.ring] at hring
      | delivered out cap buffer hring => simp [hs.ring] at hring
      | unfinished out hoverflow =>
          refine ⟨hs.ring, hs.overflow, by simp, ?_⟩
          intro r hr
          rcases List.mem_append.mp hr with hr | hr
          · exact hs.returned r hr
          · obtain rfl := List.mem_singleton.mp hr
            rfl
      | droppedAll out status => exact absurd hreading (hs.reading out status)
      | droppedFrame out status => exact absurd hreading (hs.reading out status)
  | responded receivedFrame tx event hcore => exact hs
  | woke => exact hs
  | slept hcore hevent => exact hs

/-- The waiter of Core 1 stays as it was, whatever Core 0 does. -/
theorem unfed_firmwareStep {s t : FirmwareState Q R} {a : CoreAction}
    (hs : Unfed (s.rx .core1)) (hstep : firmwareStep linkage respond s a = some t) :
    Unfed (t.rx .core1) := by
  obtain ⟨c, hcore, rfl⟩ := Option.map_eq_some_iff.mp hstep
  have hother : (s.store .core0 c).rx .core1 = s.rx .core1 := rx_store_of_ne s (by decide) c
  have hown : (s.store .core1 c).rx .core1 = c.rx :=
    congrArg CoreState.rx (view_store s .core1 c)
  cases a with
  | irq byte => exact hother ▸ hs
  | uart => exact hother ▸ hs
  | core1 => exact hown ▸ unfed_core1 (s := s.view .core1) hs hcore

theorem unfed_watch {w v : Watched Q R} {a : CoreAction} (hw : Unfed (w.firmware.rx .core1))
    (hstep : watch linkage respond w a = some v) : Unfed (v.firmware.rx .core1) := by
  obtain ⟨t, hfirmware, rfl⟩ := Option.map_eq_some_iff.mp hstep
  have ht := unfed_firmwareStep hw hfirmware
  cases a with
  | irq byte => exact ht
  | uart => exact ht
  | core1 => exact ht

theorem deliveredFrames_of_unfed {s : FirmwareState Q R} (hs : Unfed (s.rx .core1)) :
    deliveredFrames linkage s = [] := by
  rw [deliveredFrames, List.map_eq_nil_iff, List.filter_eq_nil_iff]
  intro r hr
  simp [hs.returned r hr]

/-- Nothing received on Core 0 reaches Core 1. Once it has polled after the last byte,
it was given all complete frames exactly where there are none. -/
theorem delivered_iff_not_mem (Q : Ringbuffer N) (R : Ringbuffer T)
    (respond : List UInt8 → Option (List UInt8)) (schedule : List CoreAction)
    (w : Watched Q R)
    (hexec : exec (watch linkage respond) (Watched.init Q R) schedule = some w) :
    (w.settled = false → Delivered linkage w) ∧
      (w.settled = true →
        (Delivered linkage w ↔ packetDelimiter ∉ received linkage w.firmware)) := by
  have hunfed : Unfed (w.firmware.rx .core1) :=
    exec_stable (I := fun w : Watched Q R => Unfed (w.firmware.rx .core1))
      (fun _ _ _ hw hstep => unfed_watch hw hstep) (unfed_init true) hexec
  rw [Delivered, deliveredFrames_of_unfed hunfed]
  constructor
  · intro hunsettled
    refine ⟨List.nil_prefix, fun hsettled => ?_⟩
    rw [hunsettled] at hsettled
    contradiction
  · intro hsettled
    constructor
    · rintro ⟨-, hall⟩
      have hcount := length_frames packetDelimiter (received linkage w.firmware)
      rw [← hall hsettled, List.length_nil] at hcount
      exact List.count_eq_zero.mp hcount.symm
    · intro hnone
      exact ⟨List.nil_prefix, fun _ => (frames_of_not_mem hnone).symm⟩

/-- Core 0 feeds these bytes, then Core 1 polls once. -/
def feedThenPoll (bytes : List UInt8) : List CoreAction :=
  bytes.flatMap (fun byte =>
    .irq byte :: List.replicate (if byte = packetDelimiter then 3 else 2) .uart) ++
    List.replicate 3 .core1

/-- One frame of one byte arrives on Core 0, and Core 1 is told that there is none. -/
theorem frame_not_delivered :
    ∃ w, exec (watch linkage fun _ => none)
        (Watched.init (fifo rxBufferSize) (fifo txBufferSize)) (feedThenPoll [7, 0]) =
          some w ∧
      w.settled = true ∧ frames packetDelimiter (received linkage w.firmware) = [[7]] ∧
      (w.firmware.rx .core0).waiter.ring = [7, 0] ∧
      (w.firmware.rx .core0).waiter.overflow = false ∧
      (results linkage w.firmware).map ReadResult.status = [.incompleteFrame] ∧
      ¬Delivered linkage w :=
  ⟨(exec (watch linkage fun _ => none)
      (Watched.init (fifo rxBufferSize) (fifo txBufferSize)) (feedThenPoll [7, 0])).get
      (by decide), by simp, by decide, by decide, by decide, by decide, by decide, by decide⟩

theorem delivered_unfinishedFrame :
    ∃ w, exec (watch linkage fun _ => none)
        (Watched.init (fifo rxBufferSize) (fifo txBufferSize)) (feedThenPoll [7]) =
          some w ∧ w.settled = true ∧ Delivered linkage w := by
  refine ⟨(exec (watch linkage fun _ => none)
      (Watched.init (fifo rxBufferSize) (fifo txBufferSize)) (feedThenPoll [7])).get
      (by decide), by simp, by decide, ?_⟩
  exact ((delivered_iff_not_mem (fifo rxBufferSize) (fifo txBufferSize) (fun _ => none)
    (feedThenPoll [7]) _ (by simp)).2 (by decide)).mpr (by decide)

end EasyLoRa.CoreWiring
