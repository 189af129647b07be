import EasyLoRa.FrameWaiterSteps

namespace EasyLoRa.CoreReceive

open EasyLoRa.ByteQueue
open EasyLoRa.FrameWaiterModel
open EasyLoRa.FrameWaiterOutcomes
open EasyLoRa.FrameWaiterSteps

/-- Where `Core_1::main` stands: about to call `tryReadFrame`, inside that call,
holding a frame it returned with `OK`, about to execute `__wfe`, or blocked in
it. -/
inductive Core1Pc where
  | polling
  | reading
  | responding (receivedFrame : List UInt8)
  | waiting
  | asleep
deriving DecidableEq, Repr

/-- The Rx waiter with the calls in progress on it, the Tx waiter, the event
register of Core 1, and the loop of Core 1 with its input buffer. -/
structure CoreState {N T : Nat} (Q : Ringbuffer N) (R : Ringbuffer T) where
  rx : StepState Q
  tx : FrameWaiter R
  event : Bool
  core1 : Core1Pc
  receivedFrameCodifiedBuffer : List UInt8

/-- `irq` enters `feed` for the next received byte, `uart` performs the next
access of that call, and `core1` is the next step of Core 1. -/
inductive CoreAction where
  | irq (byte : UInt8)
  | uart
  | core1
deriving DecidableEq, Repr

variable {N T : Nat} {Q : Ringbuffer N} {R : Ringbuffer T}

def CoreState.init (Q : Ringbuffer N) (R : Ringbuffer T) : CoreState Q R where
  rx := StepState.init Q true
  tx := FrameWaiter.init R true
  event := false
  core1 := .polling
  receivedFrameCodifiedBuffer := List.replicate N 0

/-- One step of `Core_1::main`. `respond` stands for decoding a frame,
dispatching it and encoding the answer; `none` is an error in one of the three. -/
def core1Step (respond : List UInt8 → Option (List UInt8)) (s : CoreState Q R) :
    Option (CoreState Q R) :=
  match s.core1 with
  | .polling =>
      (step s.rx (.read (some s.receivedFrameCodifiedBuffer) N)).map fun rx =>
        { s with rx := rx, core1 := .reading }
  | .reading =>
      (step s.rx .consume).map fun rx =>
        match rx.reading, rx.returned.getLast? with
        | none, some r =>
            { s with
              rx := rx
              receivedFrameCodifiedBuffer := r.outputBuffer.getD []
              core1 := if r.status = .ok then .responding r.payload else .waiting }
        | _, _ => { s with rx := rx }
  | .responding receivedFrame =>
      match respond receivedFrame with
      | none => some { s with core1 := .polling }
      | some codified =>
          match feedRange s.tx codified with
          | (tx, called) =>
              match insertDelimiter tx with
              | (tx, calledAtEnd) =>
                  some { s with
                    tx := tx
                    event := s.event || (called || calledAtEnd)
                    core1 := .polling }
  | .waiting =>
      if s.event then some { s with event := false, core1 := .polling }
      else some { s with core1 := .asleep }
  | .asleep => if s.event then some { s with event := false, core1 := .polling } else none

def coreStep (respond : List UInt8 → Option (List UInt8)) (s : CoreState Q R) :
    CoreAction → Option (CoreState Q R)
  | .irq byte => (step s.rx (.feed byte)).map fun rx => { s with rx := rx }
  | .uart =>
      (step s.rx .produce).map fun rx =>
        { s with rx := rx, event := s.event || decide (s.rx.callbacks < rx.callbacks) }
  | .core1 => core1Step respond s

/-- No event is set, and the `feed` call in progress is not about to set one. -/
def Unsignalled (s : CoreState Q R) : Prop :=
  s.event = false ∧ s.rx.feeding.map Prod.snd ≠ some .calling

instance (s : CoreState Q R) : Decidable (Unsignalled s) :=
  inferInstanceAs (Decidable (_ ∧ _))

theorem irq_outcome {respond : List UInt8 → Option (List UInt8)} {s t : CoreState Q R}
    {byte : UInt8} (hstep : coreStep respond s (.irq byte) = some t) :
    s.rx.feeding = none ∧ t = { s with rx := { s.rx with feeding := some (byte, .loading) } } := by
  simp only [coreStep, Option.map_eq_some_iff] at hstep
  obtain ⟨rx, hrx, rfl⟩ := hstep
  obtain ⟨hfeeding, rfl⟩ := feed_outcome_of_step hrx
  exact ⟨hfeeding, rfl⟩

/-- The effects one access of the interrupt handler can have on what Core 1 can
see: the ring and the two flags, and the event register. -/
inductive UartOutcome (s t : CoreState Q R) : Prop where
  | unsignalling (hfeeding : s.rx.feeding.map Prod.snd ≠ some .calling)
      (hevent : t.event = s.event) (hring : t.rx.waiter.ring = s.rx.waiter.ring)
      (hoverflow : s.rx.waiter.overflow = true → t.rx.waiter.overflow = true)
  | inserted (byte : UInt8) (hbyte : byte ≠ packetDelimiter)
      (hfeeding : s.rx.feeding = some (byte, .inserting)) (hevent : t.event = s.event)
      (hring : t.rx.waiter.ring = s.rx.waiter.ring ++ [byte])
      (hoverflow : t.rx.waiter.overflow = s.rx.waiter.overflow)
  | signalling (h : ¬ Unsignalled t)

theorem uart_outcome {respond : List UInt8 → Option (List UInt8)} {s t : CoreState Q R}
    (hcallback : s.rx.waiter.callback = true) (hstep : coreStep respond s .uart = some t) :
    UartOutcome s t ∧ t.core1 = s.core1 ∧ t.rx.reading = s.rx.reading ∧
      t.rx.waiter.pending = s.rx.waiter.pending ∧ t.rx.waiter.callback = true := by
  simp only [coreStep, Option.map_eq_some_iff] at hstep
  obtain ⟨rx, hrx, rfl⟩ := hstep
  obtain ⟨byte, pc, w, next, called, hfeeding, houtcome, rfl⟩ := produce_outcome hrx
  cases houtcome with
  | foundDropping =>
      exact ⟨.unsignalling (by simp [hfeeding]) (by simp) rfl id, rfl, rfl, rfl, hcallback⟩
  | foundEnd =>
      exact ⟨.unsignalling (by simp [hfeeding]) (by simp) rfl id, rfl, rfl, rfl, hcallback⟩
  | foundClear =>
      exact ⟨.unsignalling (by simp [hfeeding]) (by simp) rfl id, rfl, rfl, rfl, hcallback⟩
  | cleared =>
      exact ⟨.unsignalling (by simp [hfeeding]) (by simp) rfl id, rfl, rfl, rfl, hcallback⟩
  | refused =>
      exact ⟨.unsignalling (by simp [hfeeding]) (by simp) rfl id, rfl, rfl, rfl, hcallback⟩
  | inserted buffer hring hcall =>
      have hbyte : byte ≠ packetDelimiter := fun h => hcall ⟨h, hcallback⟩
      exact ⟨.inserted byte hbyte hfeeding (by simp) hring rfl, rfl, rfl, rfl, hcallback⟩
  | insertedEnd =>
      exact ⟨.signalling fun h => h.2 rfl, rfl, rfl, rfl, hcallback⟩
  | markedOverflow =>
      exact ⟨.unsignalling (by simp [hfeeding]) (by simp) rfl fun _ => rfl, rfl, rfl, rfl,
        hcallback⟩
  | markedDropping =>
      exact ⟨.unsignalling (by simp [hfeeding]) (by simp) rfl id, rfl, rfl, rfl, hcallback⟩
  | called =>
      exact ⟨.signalling fun h => by simpa using h.1, rfl, rfl, rfl, hcallback⟩

inductive Core1Outcome (s : CoreState Q R) : CoreState Q R → Prop where
  | polled (hcore : s.core1 = .polling) :
      Core1Outcome s { s with
        rx := { s.rx with reading := some (.removing s.receivedFrameCodifiedBuffer N) }
        core1 := .reading }
  | progressed (pc pc' : ReadPc) (w : FrameWaiter Q) (hcore : s.core1 = .reading)
      (hreading : s.rx.reading = some pc)
      (hread : ReadStepOutcome s.rx.waiter pc (w, .inl pc')) :
      Core1Outcome s { s with rx := { s.rx with waiter := w, reading := some pc' } }
  | returned (pc : ReadPc) (r : ReadResult) (w : FrameWaiter Q) (hcore : s.core1 = .reading)
      (hreading : s.rx.reading = some pc)
      (hread : ReadStepOutcome s.rx.waiter pc (w, .inr r)) :
      Core1Outcome s { s with
        rx := { s.rx with waiter := w, reading := none, returned := s.rx.returned ++ [r] }
        receivedFrameCodifiedBuffer := r.outputBuffer.getD []
        core1 := if r.status = .ok then .responding r.payload else .waiting }
  | responded (receivedFrame : List UInt8) (tx : FrameWaiter R) (event : Bool)
      (hcore : s.core1 = .responding receivedFrame) :
      Core1Outcome s { s with tx := tx, event := event, core1 := .polling }
  | woke : Core1Outcome s { s with event := false, core1 := .polling }
  | slept (hcore : s.core1 = .waiting) (hevent : s.event = false) :
      Core1Outcome s { s with core1 := .asleep }

theorem core1_outcome {respond : List UInt8 → Option (List UInt8)} {s t : CoreState Q R}
    (hstep : coreStep respond s .core1 = some t) : Core1Outcome s t := by
  simp only [coreStep, core1Step] at hstep
  split at hstep
  · next hcore =>
      simp only [Option.map_eq_some_iff] at hstep
      obtain ⟨rx, hrx, rfl⟩ := hstep
      obtain ⟨-, ⟨out, hout, rfl⟩ | ⟨hnull, -⟩⟩ := read_outcome_of_step hrx
      · obtain rfl := Option.some.inj hout
        exact .polled hcore
      · contradiction
  · next hcore =>
      simp only [Option.map_eq_some_iff] at hstep
      obtain ⟨rx, hrx, rfl⟩ := hstep
      obtain ⟨pc, w, hreading, ⟨pc', hread, rfl⟩ | ⟨r, hread, rfl⟩⟩ := consume_outcome hrx
      · exact .progressed pc pc' w hcore hreading hread
      · simpa using Core1Outcome.returned pc r w hcore hreading hread
  · next receivedFrame hcore =>
      cases hrespond : respond receivedFrame with
      | none =>
          rw [hrespond] at hstep
          obtain rfl := Option.some.inj hstep
          exact .responded receivedFrame s.tx s.event hcore
      | some codified =>
          rw [hrespond] at hstep
          obtain rfl := Option.some.inj hstep
          exact .responded receivedFrame _ _ hcore
  · next hcore =>
      cases hevent : s.event with
      | true =>
          rw [hevent] at hstep
          obtain rfl := Option.some.inj hstep
          exact .woke
      | false =>
          rw [hevent] at hstep
          obtain rfl := Option.some.inj hstep
          simpa [hevent] using Core1Outcome.slept hcore hevent
  · next hcore =>
      cases hevent : s.event with
      | true =>
          rw [hevent] at hstep
          obtain rfl := Option.some.inj hstep
          exact .woke
      | false =>
          rw [hevent] at hstep
          contradiction

end EasyLoRa.CoreReceive
