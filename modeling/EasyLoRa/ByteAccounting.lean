import Mathlib.Data.List.Forall2
import EasyLoRa.FrameWaiterSteps

namespace EasyLoRa.ByteAccounting

open EasyLoRa.ByteQueue
open EasyLoRa.DelimitedFrames
open EasyLoRa.FrameWaiterModel
open EasyLoRa.FrameWaiterOutcomes
open EasyLoRa.FrameWaiterSteps
open EasyLoRa.TransitionSystem

variable {N : Nat} {Q : Ringbuffer N}

/-- The bytes that went into the ring, in order. -/
def acceptedBytes (s : StepState Q) : List UInt8 := (s.fed.filter Prod.snd).map Prod.fst

/-- The accepted bytes that a result disposes of: the payload with its delimiter, or what
was thrown away, up to the first delimiter at most. -/
def Disposes (r : ReadResult) (piece : List UInt8) : Prop :=
  match r.status with
  | .ok => piece = r.payload ++ [packetDelimiter] ∧ packetDelimiter ∉ r.payload
  | .bufferTooSmall => packetDelimiter ∉ piece.dropLast
  | .overflow => packetDelimiter ∉ piece.dropLast
  | _ => piece = []

/-- The bytes removed from the ring that no result disposes of yet. -/
def InHand (s : StepState Q) (held : List UInt8) : Prop :=
  packetDelimiter ∉ held ∧
    match s.reading with
    | some (.dropping _ status) => status = .bufferTooSmall ∨ status = .overflow
    | _ => held = s.waiter.pending

/-- The accepted bytes are cut into consecutive pieces, one for each result, then the
bytes in hand, then the ring. -/
def Accounted (s : StepState Q) : Prop :=
  ∃ pieces held, List.Forall₂ Disposes s.returned pieces ∧ InHand s held ∧
    acceptedBytes s = pieces.flatten ++ held ++ s.waiter.ring

theorem accounted_init (callback : Bool) : Accounted (StepState.init Q callback) := by
  refine ⟨[], [], .nil, ⟨by simp, ?_⟩, ?_⟩ <;> simp [StepState.init, acceptedBytes]

/-- What an access of `feed` puts into the ring. -/
theorem acceptedBytes_produce {s t : StepState Q} (hstep : step s .produce = some t) :
    ∃ bytes, acceptedBytes t = acceptedBytes s ++ bytes ∧
      t.waiter.ring = s.waiter.ring ++ bytes ∧ t.reading = s.reading ∧
      t.returned = s.returned ∧ t.waiter.pending = s.waiter.pending := by
  obtain ⟨byte, pc, w, next, called, hfeeding, houtcome, rfl⟩ := produce_outcome hstep
  cases houtcome with
  | foundDropping hdropping => exact ⟨[], by simp [acceptedBytes, fate, hdropping], by simp⟩
  | foundEnd hdropping => exact ⟨[], by simp [acceptedBytes, fate, hdropping], by simp⟩
  | foundClear hdropping => exact ⟨[], by simp [acceptedBytes, fate, hdropping], by simp⟩
  | refused hring =>
      have hinsert := (Q.insert_eq_none_iff s.waiter.buffer byte).mpr hring
      exact ⟨[], by simp [acceptedBytes, fate, hinsert], by simp⟩
  | inserted buffer hring =>
      have hinsert := isSome_insert_of_contents hring
      exact ⟨[byte], by simp [acceptedBytes, fate, hinsert], hring, rfl, rfl, rfl⟩
  | insertedEnd buffer hring =>
      have hinsert := isSome_insert_of_contents hring
      exact ⟨[byte], by simp [acceptedBytes, fate, hinsert], hring, rfl, rfl, rfl⟩
  | _ => exact ⟨[], by simp [acceptedBytes, fate], by simp⟩

theorem accounted_produce {s t : StepState Q} (hs : Accounted s)
    (hstep : step s .produce = some t) : Accounted t := by
  obtain ⟨pieces, held, hpieces, hheld, hsplit⟩ := hs
  obtain ⟨bytes, haccepted, hring, hreading, hreturned, hpending⟩ := acceptedBytes_produce hstep
  refine ⟨pieces, held, hreturned ▸ hpieces, ?_, ?_⟩
  · unfold InHand at hheld ⊢
    rwa [hreading, hpending]
  · rw [haccepted, hring, hsplit, List.append_assoc]

theorem accounted_progress {s : StepState Q} {pc pc' : ReadPc} {w : FrameWaiter Q}
    (hs : Accounted s) (hreading : s.reading = some pc)
    (hread : ReadStepOutcome s.waiter pc (w, .inl pc')) :
    Accounted { s with waiter := w, reading := some pc' } := by
  obtain ⟨pieces, held, hpieces, ⟨hnone, hheld⟩, hsplit⟩ := hs
  simp only [hreading] at hheld
  cases hread with
  | ranEmpty out cap hring => exact ⟨pieces, held, hpieces, ⟨hnone, hheld⟩, hsplit⟩
  | assembled out cap byte buffer hbyte hring hsize =>
      refine ⟨pieces, held ++ [byte], hpieces, ⟨not_mem_concat hnone hbyte, ?_⟩, ?_⟩
      · simp [hheld]
      · simpa [acceptedBytes, hring] using hsplit
  | filled out cap byte buffer hbyte hring hsize =>
      refine ⟨pieces, held ++ [byte], hpieces, ⟨not_mem_concat hnone hbyte, Or.inl rfl⟩, ?_⟩
      simpa [acceptedBytes, hring] using hsplit
  | overflowed out hoverflow =>
      exact ⟨pieces, held, hpieces, ⟨hnone, Or.inr rfl⟩, hsplit⟩
  | droppedByte out status byte buffer hbyte hring =>
      refine ⟨pieces, held ++ [byte], hpieces, ⟨not_mem_concat hnone hbyte, hheld⟩, ?_⟩
      simpa [acceptedBytes, hring] using hsplit

/-- A result disposes of the bytes in hand, and of one more if that is a delimiter. -/
theorem accounted_concat {s : StepState Q} {pieces : List (List UInt8)}
    {held : List UInt8} {r : ReadResult} {w : FrameWaiter Q} (last : List UInt8)
    (hpieces : List.Forall₂ Disposes s.returned pieces)
    (hsplit : acceptedBytes s = pieces.flatten ++ held ++ s.waiter.ring)
    (hring : s.waiter.ring = last ++ w.ring) (hpending : w.pending = [])
    (hdisposes : Disposes r (held ++ last)) :
    Accounted { s with waiter := w, reading := none, returned := s.returned ++ [r] } := by
  refine ⟨pieces ++ [held ++ last], [], List.rel_append hpieces (.cons hdisposes .nil),
    ⟨by simp, hpending.symm⟩, ?_⟩
  rw [hring] at hsplit
  simpa [acceptedBytes] using hsplit

/-- Whatever a rejection throws away ends at the first delimiter. -/
theorem disposes_returnEmpty {held last out : List UInt8} {status : ReadFrameStatus}
    (hstatus : status = .bufferTooSmall ∨ status = .overflow) (hnone : packetDelimiter ∉ held)
    (hlast : last = [] ∨ last = [packetDelimiter]) :
    Disposes (returnEmpty status out) (held ++ last) := by
  have hpiece : packetDelimiter ∉ (held ++ last).dropLast := by
    rcases hlast with rfl | rfl
    · rw [List.append_nil]
      exact fun h => hnone (List.dropLast_subset held h)
    · simpa using hnone
  rcases hstatus with rfl | rfl <;> exact hpiece

theorem accounted_return {s : StepState Q} {pc : ReadPc} {r : ReadResult} {w : FrameWaiter Q}
    (hs : Accounted s) (hreading : s.reading = some pc)
    (hread : ReadStepOutcome s.waiter pc (w, .inr r)) :
    Accounted { s with waiter := w, reading := none, returned := s.returned ++ [r] } := by
  obtain ⟨pieces, held, hpieces, ⟨hnone, hheld⟩, hsplit⟩ := hs
  simp only [hreading] at hheld
  cases hread with
  | rejected out cap buffer hring hcap =>
      exact accounted_concat [packetDelimiter] hpieces hsplit hring (by simp)
        (disposes_returnEmpty (Or.inl rfl) hnone (Or.inr rfl))
  | delivered out cap buffer hring hcap =>
      subst hheld
      refine accounted_concat [packetDelimiter] hpieces hsplit hring (by simp) ?_
      simpa [Disposes, payload_delivered] using hnone
  | unfinished out hoverflow =>
      refine ⟨pieces ++ [[]], held, List.rel_append hpieces (.cons rfl .nil), ⟨hnone, hheld⟩, ?_⟩
      simpa [acceptedBytes] using hsplit
  | droppedAll out status hring =>
      exact accounted_concat [] hpieces hsplit rfl (by simp)
        (disposes_returnEmpty hheld hnone (Or.inl rfl))
  | droppedFrame out status buffer hring =>
      exact accounted_concat [packetDelimiter] hpieces hsplit hring (by simp)
        (disposes_returnEmpty hheld hnone (Or.inr rfl))

theorem accounted_read {s t : StepState Q} {outputBuffer : Option (List UInt8)} {cap : Nat}
    (hs : Accounted s) (hstep : step s (.read outputBuffer cap) = some t) : Accounted t := by
  obtain ⟨pieces, held, hpieces, ⟨hnone, hheld⟩, hsplit⟩ := hs
  obtain ⟨hidle, ⟨out, -, rfl⟩ | ⟨-, rfl⟩⟩ := read_outcome_of_step hstep
  all_goals simp only [hidle] at hheld
  · exact ⟨pieces, held, hpieces, ⟨hnone, hheld⟩, hsplit⟩
  · refine ⟨pieces ++ [[]], held, List.rel_append hpieces (.cons rfl .nil),
      ⟨hnone, by simpa [hidle] using hheld⟩, ?_⟩
    simpa [acceptedBytes] using hsplit

theorem accounted_step {s t : StepState Q} {a : Action} (hs : Accounted s)
    (hstep : step s a = some t) : Accounted t := by
  cases a with
  | feed byte =>
      obtain ⟨-, rfl⟩ := feed_outcome_of_step hstep
      exact hs
  | produce => exact accounted_produce hs hstep
  | read outputBuffer cap => exact accounted_read hs hstep
  | consume =>
      obtain ⟨pc, w, hreading, ⟨pc', hread, rfl⟩ | ⟨r, hread, rfl⟩⟩ := consume_outcome hstep
      · exact accounted_progress hs hreading hread
      · exact accounted_return hs hreading hread

theorem accounted_exec {callback : Bool} {schedule : List Action} {s : StepState Q}
    (hexec : exec step (StepState.init Q callback) schedule = some s) : Accounted s :=
  exec_stable (I := Accounted) (fun _ _ _ hs hstep => accounted_step hs hstep)
    (accounted_init callback) hexec

/-- Every accepted byte is delivered in one payload, thrown away by one rejection, or
still waiting, in the order of arrival, whichever inserts fail. -/
theorem accounted_of_run (Q : Ringbuffer N) (callback : Bool) (schedule : List Action)
    (s : StepState Q) (hexec : exec step (StepState.init Q callback) schedule = some s) :
    ∃ pieces held, List.Forall₂ Disposes s.returned pieces ∧ InHand s held ∧
      acceptedBytes s = pieces.flatten ++ held ++ s.waiter.ring :=
  accounted_exec hexec

/-- Bytes `1 2 3 0 4 0` through a ring of two bytes: `3` is lost and its delimiter with it,
the read after that throws `1 2` away. -/
def lossySchedule : List Action :=
  [.feed 1, .produce, .produce, .feed 2, .produce, .produce, .feed 3, .produce, .produce,
    .produce, .produce, .feed 0, .produce, .produce, .read (some []) 4, .consume, .consume,
    .consume, .consume, .consume, .feed 4, .produce, .produce, .feed 0, .produce, .produce,
    .read (some []) 4, .consume, .consume]

theorem accounted_lossySchedule :
    ∃ s, exec step (StepState.init (fifo 2) false) lossySchedule = some s ∧
      s.stream = [1, 2, 3, 0, 4, 0] ∧ acceptedBytes s = [1, 2, 4, 0] ∧
      s.returned.map ReadResult.status = [.overflow, .ok] ∧
      ∃ pieces held, List.Forall₂ Disposes s.returned pieces ∧ InHand s held ∧
        acceptedBytes s = pieces.flatten ++ held ++ s.waiter.ring := by
  refine ⟨(exec step (StepState.init (fifo 2) false) lossySchedule).get (by decide), by simp,
    by decide, by decide, by decide, ?_⟩
  exact accounted_of_run (fifo 2) false lossySchedule _ (by simp)

end EasyLoRa.ByteAccounting
