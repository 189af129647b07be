import EasyLoRa.DelimitedFrames
import EasyLoRa.FrameWaiterModel

namespace EasyLoRa.FrameWaiterOutcomes

open EasyLoRa.ByteQueue
open EasyLoRa.DelimitedFrames
open EasyLoRa.FrameWaiterModel

variable {N : Nat} {Q : Ringbuffer N}

@[simp] theorem ring_mk (buffer : Q.Buffer) (pendingFrame : PendingFrame N)
    (overflow dropping callback : Bool) :
    (FrameWaiter.mk buffer pendingFrame overflow dropping callback).ring =
      Q.contents buffer := rfl

@[simp] theorem pending_mk (buffer : Q.Buffer) (pendingFrame : PendingFrame N)
    (overflow dropping callback : Bool) :
    (FrameWaiter.mk buffer pendingFrame overflow dropping callback).pending =
      pendingFrame.bytes := rfl

@[simp] theorem contents_buffer (w : FrameWaiter Q) : Q.contents w.buffer = w.ring := rfl

@[simp] theorem bytes_pendingFrame (w : FrameWaiter Q) :
    w.pendingFrame.bytes = w.pending := rfl

theorem size_pendingFrame (w : FrameWaiter Q) :
    w.pendingFrame.size = w.pending.length :=
  (PendingFrame.length_bytes w.pendingFrame).symm

/-- A byte went into the ring, so there was room for it. -/
theorem room_of_contents {w : FrameWaiter Q} {byte : UInt8} {buffer : Q.Buffer}
    (hring : Q.contents buffer = w.ring ++ [byte]) : w.ring.length < N := by
  have hlen := Q.length_contents_le buffer
  rwa [hring, List.length_append, List.length_singleton] at hlen

theorem isSome_insert_of_contents {w : FrameWaiter Q} {byte : UInt8} {buffer : Q.Buffer}
    (hring : Q.contents buffer = w.ring ++ [byte]) : (Q.insert w.buffer byte).isSome = true := by
  obtain ⟨r, hinsert, -⟩ := Q.insert_eq_some byte (room_of_contents hring)
  simp [hinsert]

inductive FeedOutcome (w : FrameWaiter Q) (byte : UInt8) : FrameWaiter Q × Bool → Prop where
  | skipped (hdropping : w.droppingFeedBytes = true) (hbyte : byte ≠ packetDelimiter) :
      FeedOutcome w byte (w, false)
  | resumed (hdropping : w.droppingFeedBytes = true) (hbyte : byte = packetDelimiter) :
      FeedOutcome w byte ({ w with droppingFeedBytes := false }, false)
  | refused (hdropping : w.droppingFeedBytes = false) (hring : w.ring.length = N) :
      FeedOutcome w byte ({ w with overflow := true, droppingFeedBytes := true }, false)
  | accepted (buffer : Q.Buffer) (hdropping : w.droppingFeedBytes = false)
      (hroom : w.ring.length < N) (hring : Q.contents buffer = w.ring ++ [byte]) :
      FeedOutcome w byte
        ({ w with buffer := buffer }, decide (byte = packetDelimiter) && w.callback)

theorem feed_outcome (w : FrameWaiter Q) (byte : UInt8) : FeedOutcome w byte (feed w byte) := by
  unfold feed
  cases hdropping : w.droppingFeedBytes with
  | true =>
      by_cases hbyte : byte = packetDelimiter
      · simpa [hbyte] using FeedOutcome.resumed hdropping rfl
      · simpa [hbyte] using FeedOutcome.skipped hdropping hbyte
  | false =>
      cases hinsert : Q.insert w.buffer byte with
      | none =>
          exact FeedOutcome.refused hdropping ((Q.insert_eq_none_iff _ _).mp hinsert)
      | some buffer =>
          have hring : Q.contents buffer = w.ring ++ [byte] := Q.contents_of_insert hinsert
          simpa [hdropping] using
            FeedOutcome.accepted buffer hdropping (room_of_contents hring) hring

/-- The effects one access of `tryReadFrame` can have. -/
inductive ReadStepOutcome (w : FrameWaiter Q) :
    ReadPc → FrameWaiter Q × (ReadPc ⊕ ReadResult) → Prop where
  | ranEmpty (out : List UInt8) (cap : Nat) (hring : w.ring = []) :
      ReadStepOutcome w (.removing out cap) (w, .inl (.exchanging out))
  | rejected (out : List UInt8) (cap : Nat) (buffer : Q.Buffer)
      (hring : w.ring = packetDelimiter :: Q.contents buffer)
      (hcap : cap < w.pending.length) :
      ReadStepOutcome w (.removing out cap)
        ({ w with buffer := buffer, pendingFrame := w.pendingFrame.reset },
          .inr (returnEmpty .bufferTooSmall out))
  | delivered (out : List UInt8) (cap : Nat) (buffer : Q.Buffer)
      (hring : w.ring = packetDelimiter :: Q.contents buffer)
      (hcap : w.pending.length ≤ cap) :
      ReadStepOutcome w (.removing out cap)
        ({ w with buffer := buffer, pendingFrame := w.pendingFrame.reset },
          .inr ⟨.ok, w.pending.length, some (copyOut w.pending out)⟩)
  | assembled (out : List UInt8) (cap : Nat) (byte : UInt8) (buffer : Q.Buffer)
      (hbyte : byte ≠ packetDelimiter) (hring : w.ring = byte :: Q.contents buffer)
      (hsize : w.pendingFrame.size < N) :
      ReadStepOutcome w (.removing out cap)
        ({ w with buffer := buffer, pendingFrame := w.pendingFrame.push byte hsize },
          .inl (.removing out cap))
  | filled (out : List UInt8) (cap : Nat) (byte : UInt8) (buffer : Q.Buffer)
      (hbyte : byte ≠ packetDelimiter) (hring : w.ring = byte :: Q.contents buffer)
      (hsize : w.pending.length = N) :
      ReadStepOutcome w (.removing out cap)
        ({ w with buffer := buffer }, .inl (.dropping out .bufferTooSmall))
  | overflowed (out : List UInt8) (hoverflow : w.overflow = true) :
      ReadStepOutcome w (.exchanging out)
        ({ w with overflow := false }, .inl (.dropping out .overflow))
  | unfinished (out : List UInt8) (hoverflow : w.overflow = false) :
      ReadStepOutcome w (.exchanging out) (w, .inr (returnEmpty .incompleteFrame out))
  | droppedAll (out : List UInt8) (status : ReadFrameStatus) (hring : w.ring = []) :
      ReadStepOutcome w (.dropping out status)
        ({ w with pendingFrame := w.pendingFrame.reset }, .inr (returnEmpty status out))
  | droppedFrame (out : List UInt8) (status : ReadFrameStatus) (buffer : Q.Buffer)
      (hring : w.ring = packetDelimiter :: Q.contents buffer) :
      ReadStepOutcome w (.dropping out status)
        ({ w with buffer := buffer, pendingFrame := w.pendingFrame.reset },
          .inr (returnEmpty status out))
  | droppedByte (out : List UInt8) (status : ReadFrameStatus) (byte : UInt8)
      (buffer : Q.Buffer) (hbyte : byte ≠ packetDelimiter)
      (hring : w.ring = byte :: Q.contents buffer) :
      ReadStepOutcome w (.dropping out status)
        ({ w with buffer := buffer }, .inl (.dropping out status))

theorem readStep_outcome (w : FrameWaiter Q) (pc : ReadPc) :
    ReadStepOutcome w pc (readStep w pc) := by
  cases pc with
  | removing out cap =>
      unfold readStep
      cases hremove : Q.remove w.buffer with
      | none => exact .ranEmpty out cap ((Q.remove_eq_none_iff _).mp hremove)
      | some removed =>
          obtain ⟨byte, buffer⟩ := removed
          have hring : w.ring = byte :: Q.contents buffer := Q.contents_of_remove hremove
          by_cases hbyte : byte = packetDelimiter
          · subst hbyte
            simp only [size_pendingFrame, reduceIte]
            by_cases hcap : cap < w.pending.length
            · simpa [hcap] using ReadStepOutcome.rejected out cap buffer hring hcap
            · simpa [hcap] using
                ReadStepOutcome.delivered out cap buffer hring (Nat.not_lt.mp hcap)
          · by_cases hsize : w.pendingFrame.size < N
            · simpa [hbyte, hsize] using
                ReadStepOutcome.assembled out cap byte buffer hbyte hring hsize
            · simpa [hbyte, hsize] using
                ReadStepOutcome.filled out cap byte buffer hbyte hring (by
                  rw [size_pendingFrame] at hsize
                  exact Nat.le_antisymm w.length_pending_le (Nat.not_lt.mp hsize))
  | exchanging out =>
      unfold readStep
      cases hoverflow : w.overflow with
      | true => simpa using ReadStepOutcome.overflowed out hoverflow
      | false => simpa using ReadStepOutcome.unfinished out hoverflow
  | dropping out status =>
      unfold readStep
      cases hremove : Q.remove w.buffer with
      | none => exact .droppedAll out status ((Q.remove_eq_none_iff _).mp hremove)
      | some removed =>
          obtain ⟨byte, buffer⟩ := removed
          have hring : w.ring = byte :: Q.contents buffer := Q.contents_of_remove hremove
          by_cases hbyte : byte = packetDelimiter
          · subst hbyte
            simpa using ReadStepOutcome.droppedFrame out status buffer hring
          · simpa [hbyte] using ReadStepOutcome.droppedByte out status byte buffer hbyte hring

theorem ReadStepOutcome.callback_eq {w : FrameWaiter Q} {pc : ReadPc}
    {p : FrameWaiter Q × (ReadPc ⊕ ReadResult)} (h : ReadStepOutcome w pc p) :
    p.1.callback = w.callback := by
  cases h <;> rfl

/-- What a finished call leaves in the waiter; the fields only the producer
writes stay as they were. -/
structure Leaves (w w' : FrameWaiter Q) (pending ring : List UInt8) (overflow : Bool) :
    Prop where
  pending_eq : w'.pending = pending
  ring_eq : w'.ring = ring
  overflow_eq : w'.overflow = overflow
  dropping_eq : w'.droppingFeedBytes = w.droppingFeedBytes
  callback_eq : w'.callback = w.callback

/-- The effects an uninterrupted call of `tryReadFrame` can have, in terms of the
bytes the consumer has not yet disposed of. -/
inductive ReadOutcome (w : FrameWaiter Q) (out : List UInt8) (cap : Nat) :
    FrameWaiter Q × ReadResult → Prop where
  | delivered (w' : FrameWaiter Q) (f rest : List UInt8) (hf : packetDelimiter ∉ f)
      (hunread : w.unread = f ++ packetDelimiter :: rest) (hsize : f.length ≤ N)
      (hcap : f.length ≤ cap) (hleaves : Leaves w w' [] rest w.overflow) :
      ReadOutcome w out cap (w', ⟨.ok, f.length, some (copyOut f out)⟩)
  | rejected (w' : FrameWaiter Q) (f rest : List UInt8) (hf : packetDelimiter ∉ f)
      (hunread : w.unread = f ++ packetDelimiter :: rest) (hsize : f.length ≤ N)
      (hcap : cap < f.length) (hleaves : Leaves w w' [] rest w.overflow) :
      ReadOutcome w out cap (w', returnEmpty .bufferTooSmall out)
  | oversize (w' : FrameWaiter Q) (f rest : List UInt8) (hf : packetDelimiter ∉ f)
      (hunread : w.unread = f ++ rest) (hsize : f.length = N + 1)
      (hleaves : Leaves w w' [] (skipFrame packetDelimiter rest) w.overflow) :
      ReadOutcome w out cap (w', returnEmpty .bufferTooSmall out)
  | overflowed (w' : FrameWaiter Q) (hunread : packetDelimiter ∉ w.unread)
      (hsize : w.unread.length ≤ N) (hoverflow : w.overflow = true)
      (hleaves : Leaves w w' [] [] false) :
      ReadOutcome w out cap (w', returnEmpty .overflow out)
  | unfinished (w' : FrameWaiter Q) (hunread : packetDelimiter ∉ w.unread)
      (hsize : w.unread.length ≤ N) (hoverflow : w.overflow = false)
      (hleaves : Leaves w w' w.unread [] false) :
      ReadOutcome w out cap (w', returnEmpty .incompleteFrame out)

/-- Moving a byte from the ring to the pending frame does not change what the
call goes on to do. -/
theorem ReadOutcome.of_unread_eq {v w : FrameWaiter Q} {out : List UInt8} {cap : Nat}
    {p : FrameWaiter Q × ReadResult} (h : ReadOutcome v out cap p)
    (hunread : v.unread = w.unread) (hoverflow : v.overflow = w.overflow)
    (hdropping : v.droppingFeedBytes = w.droppingFeedBytes)
    (hcallback : v.callback = w.callback) : ReadOutcome w out cap p := by
  have hleaves : ∀ {w' : FrameWaiter Q} {pending ring : List UInt8} {overflow : Bool},
      Leaves v w' pending ring overflow → Leaves w w' pending ring overflow :=
    fun l => ⟨l.pending_eq, l.ring_eq, l.overflow_eq, l.dropping_eq.trans hdropping,
      l.callback_eq.trans hcallback⟩
  cases h with
  | delivered w' f rest hf hun hsize hcap hl =>
      exact .delivered w' f rest hf (hunread ▸ hun) hsize hcap (hoverflow ▸ hleaves hl)
  | rejected w' f rest hf hun hsize hcap hl =>
      exact .rejected w' f rest hf (hunread ▸ hun) hsize hcap (hoverflow ▸ hleaves hl)
  | oversize w' f rest hf hun hsize hl =>
      exact .oversize w' f rest hf (hunread ▸ hun) hsize (hoverflow ▸ hleaves hl)
  | overflowed w' hun hsize hov hl =>
      exact .overflowed w' (hunread ▸ hun) (hunread ▸ hsize) (hoverflow ▸ hov) (hleaves hl)
  | unfinished w' hun hsize hov hl =>
      exact .unfinished w' (hunread ▸ hun) (hunread ▸ hsize) (hoverflow ▸ hov)
        (hunread ▸ hleaves hl)

theorem finishRead_returned (fuel : Nat) (w : FrameWaiter Q) (r : ReadResult) :
    finishRead fuel w (.inr r) = some (w, r) := by
  cases fuel <;> rfl

theorem finishRead_dropping (out : List UInt8) (status : ReadFrameStatus) (fuel : Nat)
    (w : FrameWaiter Q) (hfuel : w.ring.length < fuel) :
    ∃ w', finishRead fuel w (.inl (.dropping out status)) =
        some (w', returnEmpty status out) ∧
      Leaves w w' [] (skipFrame packetDelimiter w.ring) w.overflow := by
  induction fuel generalizing w with
  | zero => omega
  | succ fuel ih =>
      have houtcome := readStep_outcome w (.dropping out status)
      simp only [finishRead]
      generalize readStep w (.dropping out status) = p at houtcome ⊢
      cases houtcome with
      | droppedAll _ _ hring =>
          exact ⟨_, finishRead_returned _ _ _, by simp, by simp [hring, skipFrame],
            rfl, rfl, rfl⟩
      | droppedFrame _ _ buffer hring =>
          exact ⟨_, finishRead_returned _ _ _, by simp, by simp [hring, skipFrame],
            rfl, rfl, rfl⟩
      | droppedByte _ _ byte buffer hbyte hring =>
          rw [hring, List.length_cons] at hfuel
          obtain ⟨w', hfinish, hl⟩ := ih { w with buffer := buffer } (by simpa using by omega)
          refine ⟨w', hfinish, hl.pending_eq, ?_, hl.overflow_eq, hl.dropping_eq,
            hl.callback_eq⟩
          simpa [hring, skipFrame, hbyte] using hl.ring_eq

theorem finishRead_exchanging (out : List UInt8) (cap fuel : Nat) (w : FrameWaiter Q)
    (hfuel : 1 < fuel) (hring : w.ring = []) (hpending : packetDelimiter ∉ w.pending) :
    ∃ p, finishRead fuel w (.inl (.exchanging out)) = some p ∧ ReadOutcome w out cap p := by
  obtain ⟨fuel, rfl⟩ : ∃ k, fuel = k + 1 := ⟨fuel - 1, by omega⟩
  have hunread : w.unread = w.pending := by simp [FrameWaiter.unread, hring]
  have houtcome := readStep_outcome w (.exchanging out)
  simp only [finishRead]
  generalize readStep w (.exchanging out) = p at houtcome ⊢
  cases houtcome with
  | overflowed _ hoverflow =>
      obtain ⟨w', hfinish, hl⟩ := finishRead_dropping out .overflow fuel
        { w with overflow := false } (by simpa [hring] using by omega)
      refine ⟨_, hfinish, .overflowed w' (hunread ▸ hpending)
        (hunread ▸ w.length_pending_le) hoverflow ⟨hl.pending_eq, ?_, hl.overflow_eq,
          hl.dropping_eq, hl.callback_eq⟩⟩
      simpa [hring, skipFrame] using hl.ring_eq
  | unfinished _ hoverflow =>
      refine ⟨_, finishRead_returned _ _ _, ?_⟩
      exact .unfinished w (hunread ▸ hpending) (hunread ▸ w.length_pending_le) hoverflow
        ⟨hunread.symm, hring, hoverflow, rfl, rfl⟩

theorem finishRead_removing (out : List UInt8) (cap fuel : Nat) (w : FrameWaiter Q)
    (hfuel : w.ring.length + 2 < fuel) (hpending : packetDelimiter ∉ w.pending) :
    ∃ p, finishRead fuel w (.inl (.removing out cap)) = some p ∧ ReadOutcome w out cap p := by
  induction fuel generalizing w with
  | zero => omega
  | succ fuel ih =>
      have houtcome := readStep_outcome w (.removing out cap)
      simp only [finishRead]
      generalize readStep w (.removing out cap) = p at houtcome ⊢
      cases houtcome with
      | ranEmpty _ _ hring =>
          exact finishRead_exchanging out cap fuel w (by omega) hring hpending
      | rejected _ _ buffer hring hcap =>
          refine ⟨_, finishRead_returned _ _ _, ?_⟩
          exact .rejected _ w.pending (Q.contents buffer) hpending
            (by rw [FrameWaiter.unread, hring]) w.length_pending_le hcap
            ⟨by simp, rfl, rfl, rfl, rfl⟩
      | delivered _ _ buffer hring hcap =>
          refine ⟨_, finishRead_returned _ _ _, ?_⟩
          exact .delivered _ w.pending (Q.contents buffer) hpending
            (by rw [FrameWaiter.unread, hring]) w.length_pending_le hcap
            ⟨by simp, rfl, rfl, rfl, rfl⟩
      | assembled _ _ byte buffer hbyte hring hsize =>
          have hlen : (Q.contents buffer).length + 2 < fuel := by
            rw [hring, List.length_cons] at hfuel
            omega
          have hpush : packetDelimiter ∉ w.pending ++ [byte] := by
            simpa using not_mem_concat hpending hbyte
          obtain ⟨p, hfinish, hout⟩ :=
            ih { w with buffer := buffer, pendingFrame := w.pendingFrame.push byte hsize }
              (by simpa using hlen) (by simpa using hpush)
          exact ⟨p, hfinish, hout.of_unread_eq
            (by simp [FrameWaiter.unread, hring]) rfl rfl rfl⟩
      | filled _ _ byte buffer hbyte hring hsize =>
          obtain ⟨w', hfinish, hl⟩ := finishRead_dropping out .bufferTooSmall fuel
            { w with buffer := buffer } (by
              rw [hring, List.length_cons] at hfuel
              simpa using by omega)
          refine ⟨_, hfinish, .oversize w' (w.pending ++ [byte]) (Q.contents buffer) ?_ ?_ ?_
            ⟨hl.pending_eq, hl.ring_eq, hl.overflow_eq, hl.dropping_eq, hl.callback_eq⟩⟩
          · simpa using not_mem_concat hpending hbyte
          · simp [FrameWaiter.unread, hring]
          · simp [hsize]

/-- A call with a non-null output pointer returns, with one of the outcomes. -/
theorem tryReadFrame_outcome (w : FrameWaiter Q) (out : List UInt8) (cap : Nat)
    (hpending : packetDelimiter ∉ w.pending) :
    ∃ p, tryReadFrame w (some out) cap = some p ∧ ReadOutcome w out cap p :=
  finishRead_removing out cap (w.ring.length + 3) w (by omega) hpending

theorem tryReadFrame_none (w : FrameWaiter Q) (cap : Nat) :
    tryReadFrame w none cap = some (w, ⟨.bufferNullptr, 0, none⟩) := rfl

theorem payload_delivered (f out : List UInt8) :
    (⟨.ok, f.length, some (copyOut f out)⟩ : ReadResult).payload = f := by
  simp [ReadResult.payload, copyOut]

end EasyLoRa.FrameWaiterOutcomes
