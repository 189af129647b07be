import EasyLoRa.FrameWaiterCalls

namespace EasyLoRa.FrameWaiterSteps

open EasyLoRa.ByteQueue
open EasyLoRa.DelimitedFrames
open EasyLoRa.FrameWaiterModel
open EasyLoRa.FrameWaiterOutcomes
open EasyLoRa.TransitionSystem

variable {N : Nat} {Q : Ringbuffer N}

/-- `feed` and `read` enter a call; `produce` and `consume` perform the next
access of the call in progress. -/
inductive Action where
  | feed (byte : UInt8)
  | produce
  | read (outputBuffer : Option (List UInt8)) (bufferCapacity : Nat)
  | consume
deriving DecidableEq, Repr

/-- The waiter, the two calls in progress, and the history: the bytes whose fate
`feed` has decided, each with whether the ring accepted it, the bytes whose
`feed` call has returned, the number of callbacks, and the results of the
`tryReadFrame` calls. -/
structure StepState {N : Nat} (Q : Ringbuffer N) where
  waiter : FrameWaiter Q
  feeding : Option (UInt8 × FeedPc)
  reading : Option ReadPc
  fed : List (UInt8 × Bool)
  finished : List UInt8
  callbacks : Nat
  returned : List ReadResult

def StepState.init (Q : Ringbuffer N) (callback : Bool) : StepState Q :=
  ⟨FrameWaiter.init Q callback, none, none, [], [], 0, []⟩

/-- The bytes that have entered the ring or been discarded. -/
def StepState.stream (s : StepState Q) : List UInt8 := s.fed.map Prod.fst

def StepState.started (s : StepState Q) : List UInt8 :=
  s.finished ++ (s.feeding.map Prod.fst).toList

/-- The fate that the access at `pc` decides for the byte in progress. -/
def fate (w : FrameWaiter Q) (byte : UInt8) : FeedPc → List (UInt8 × Bool)
  | .loading => if w.droppingFeedBytes then [(byte, false)] else []
  | .inserting => [(byte, (Q.insert w.buffer byte).isSome)]
  | _ => []

def step (s : StepState Q) : Action → Option (StepState Q)
  | .feed byte =>
      match s.feeding with
      | none => some { s with feeding := some (byte, .loading) }
      | some _ => none
  | .produce =>
      match s.feeding with
      | none => none
      | some (byte, pc) =>
          match feedStep s.waiter byte pc with
          | (w, next, called) =>
              some { s with
                waiter := w
                feeding := next.map fun pc => (byte, pc)
                fed := s.fed ++ fate s.waiter byte pc
                finished := if next.isSome then s.finished else s.finished ++ [byte]
                callbacks := s.callbacks + called.toNat }
  | .read outputBuffer bufferCapacity =>
      match s.reading with
      | some _ => none
      | none =>
          match readEntry outputBuffer bufferCapacity with
          | .inl pc => some { s with reading := some pc }
          | .inr r => some { s with returned := s.returned ++ [r] }
  | .consume =>
      match s.reading with
      | none => none
      | some pc =>
          match readStep s.waiter pc with
          | (w, .inl pc) => some { s with waiter := w, reading := some pc }
          | (w, .inr r) =>
              some { s with waiter := w, reading := none, returned := s.returned ++ [r] }

inductive FeedStepOutcome (w : FrameWaiter Q) (byte : UInt8) :
    FeedPc → FrameWaiter Q × Option FeedPc × Bool → Prop where
  | foundDropping (hdropping : w.droppingFeedBytes = true) (hbyte : byte ≠ packetDelimiter) :
      FeedStepOutcome w byte .loading (w, none, false)
  | foundEnd (hdropping : w.droppingFeedBytes = true) (hbyte : byte = packetDelimiter) :
      FeedStepOutcome w byte .loading (w, some .clearing, false)
  | foundClear (hdropping : w.droppingFeedBytes = false) :
      FeedStepOutcome w byte .loading (w, some .inserting, false)
  | cleared :
      FeedStepOutcome w byte .clearing ({ w with droppingFeedBytes := false }, none, false)
  | refused (hring : w.ring.length = N) :
      FeedStepOutcome w byte .inserting (w, some .storingOverflow, false)
  | inserted (buffer : Q.Buffer) (hring : Q.contents buffer = w.ring ++ [byte])
      (hcall : ¬ (byte = packetDelimiter ∧ w.callback = true)) :
      FeedStepOutcome w byte .inserting ({ w with buffer := buffer }, none, false)
  | insertedEnd (buffer : Q.Buffer) (hring : Q.contents buffer = w.ring ++ [byte])
      (hbyte : byte = packetDelimiter) (hcallback : w.callback = true) :
      FeedStepOutcome w byte .inserting ({ w with buffer := buffer }, some .calling, false)
  | markedOverflow :
      FeedStepOutcome w byte .storingOverflow
        ({ w with overflow := true }, some .storingDropping, false)
  | markedDropping :
      FeedStepOutcome w byte .storingDropping
        ({ w with droppingFeedBytes := true }, none, false)
  | called : FeedStepOutcome w byte .calling (w, none, true)

theorem feedStep_outcome (w : FrameWaiter Q) (byte : UInt8) (pc : FeedPc) :
    FeedStepOutcome w byte pc (feedStep w byte pc) := by
  cases pc with
  | loading =>
      cases hdropping : w.droppingFeedBytes with
      | true =>
          by_cases hbyte : byte = packetDelimiter
          · simpa [feedStep, hdropping, hbyte] using FeedStepOutcome.foundEnd hdropping rfl
          · simpa [feedStep, hdropping, hbyte] using
              FeedStepOutcome.foundDropping hdropping hbyte
      | false =>
          have hclear : FeedStepOutcome w byte .loading (w, some .inserting, false) :=
            .foundClear hdropping
          simpa [feedStep, hdropping] using hclear
  | clearing => exact .cleared
  | inserting =>
      cases hinsert : Q.insert w.buffer byte with
      | none =>
          simpa [feedStep, hinsert] using
            FeedStepOutcome.refused ((Q.insert_eq_none_iff _ byte).mp hinsert)
      | some buffer =>
          have hring : Q.contents buffer = w.ring ++ [byte] := Q.contents_of_insert hinsert
          by_cases hcall : byte = packetDelimiter ∧ w.callback = true
          · obtain ⟨rfl, hcallback⟩ := hcall
            simpa [feedStep, hinsert, hcallback] using
              FeedStepOutcome.insertedEnd buffer hring rfl hcallback
          · simpa [feedStep, hinsert, hcall] using
              FeedStepOutcome.inserted buffer hring hcall
  | storingOverflow => exact .markedOverflow
  | storingDropping => exact .markedDropping
  | calling => exact .called

theorem feed_outcome_of_step {s t : StepState Q} {byte : UInt8}
    (hstep : step s (.feed byte) = some t) :
    s.feeding = none ∧ t = { s with feeding := some (byte, .loading) } := by
  unfold step at hstep
  cases hfeeding : s.feeding with
  | none =>
      rw [hfeeding] at hstep
      exact ⟨rfl, (Option.some.inj hstep).symm⟩
  | some call =>
      rw [hfeeding] at hstep
      contradiction

theorem produce_outcome {s t : StepState Q} (hstep : step s .produce = some t) :
    ∃ byte pc w next called, s.feeding = some (byte, pc) ∧
      FeedStepOutcome s.waiter byte pc (w, next, called) ∧
      t = { s with
        waiter := w
        feeding := next.map fun pc => (byte, pc)
        fed := s.fed ++ fate s.waiter byte pc
        finished := if next.isSome then s.finished else s.finished ++ [byte]
        callbacks := s.callbacks + called.toNat } := by
  unfold step at hstep
  cases hfeeding : s.feeding with
  | none =>
      rw [hfeeding] at hstep
      contradiction
  | some call =>
      rw [hfeeding] at hstep
      exact ⟨call.1, call.2, _, _, _, rfl, feedStep_outcome s.waiter call.1 call.2,
        (Option.some.inj hstep).symm⟩

theorem read_outcome_of_step {s t : StepState Q} {outputBuffer : Option (List UInt8)}
    {cap : Nat} (hstep : step s (.read outputBuffer cap) = some t) :
    s.reading = none ∧
      ((∃ out, outputBuffer = some out ∧ t = { s with reading := some (.removing out cap) }) ∨
        (outputBuffer = none ∧
          t = { s with returned := s.returned ++ [⟨.bufferNullptr, 0, none⟩] })) := by
  unfold step at hstep
  cases hreading : s.reading with
  | some pc =>
      rw [hreading] at hstep
      contradiction
  | none =>
      rw [hreading] at hstep
      cases outputBuffer with
      | none => exact ⟨rfl, Or.inr ⟨rfl, (Option.some.inj hstep).symm⟩⟩
      | some out => exact ⟨rfl, Or.inl ⟨out, rfl, (Option.some.inj hstep).symm⟩⟩

theorem consume_outcome {s t : StepState Q} (hstep : step s .consume = some t) :
    ∃ pc w, s.reading = some pc ∧
      ((∃ pc', ReadStepOutcome s.waiter pc (w, .inl pc') ∧
          t = { s with waiter := w, reading := some pc' }) ∨
        (∃ r, ReadStepOutcome s.waiter pc (w, .inr r) ∧
          t = { s with waiter := w, reading := none, returned := s.returned ++ [r] })) := by
  unfold step at hstep
  cases hreading : s.reading with
  | none =>
      rw [hreading] at hstep
      contradiction
  | some pc =>
      have houtcome := readStep_outcome s.waiter pc
      rw [hreading] at hstep
      generalize hread : readStep s.waiter pc = p at houtcome
      obtain ⟨w, next⟩ := p
      simp only [hread] at hstep
      cases next with
      | inl pc' =>
          exact ⟨pc, w, rfl, Or.inl ⟨pc', houtcome, (Option.some.inj hstep).symm⟩⟩
      | inr r => exact ⟨pc, w, rfl, Or.inr ⟨r, houtcome, (Option.some.inj hstep).symm⟩⟩

end EasyLoRa.FrameWaiterSteps
