import Mathlib.Data.List.Basic
import EasyLoRa.ByteQueue

/-!
The firmware's `FrameWaiter`: a producer feeds received bytes, a consumer reads
delimited frames. `feedStep` and `readStep` perform one shared-memory access
each; `feed` and `tryReadFrame` are the whole calls.
-/

namespace EasyLoRa.FrameWaiterModel

open EasyLoRa.ByteQueue

def packetDelimiter : UInt8 := 0x00

inductive ReadFrameStatus where
  | ok
  | noFrame
  | bufferTooSmall
  | bufferNullptr
  | incompleteFrame
  | overflow
deriving DecidableEq, Repr

/-- The frame under assembly: `pendingFrameBuffer_m` with `pendingFrameSize_m`.
The bound is what makes every array write of `tryReadFrame` legal. -/
structure PendingFrame (N : Nat) where
  buffer : Vector UInt8 N
  size : Nat
  size_le : size ≤ N

def PendingFrame.bytes {N : Nat} (p : PendingFrame N) : List UInt8 :=
  p.buffer.toList.take p.size

def PendingFrame.reset {N : Nat} (p : PendingFrame N) : PendingFrame N :=
  { p with size := 0, size_le := Nat.zero_le N }

def PendingFrame.push {N : Nat} (p : PendingFrame N) (byte : UInt8) (h : p.size < N) :
    PendingFrame N :=
  { buffer := p.buffer.set p.size byte h
    size := p.size + 1
    size_le := h }

@[simp] theorem PendingFrame.length_bytes {N : Nat} (p : PendingFrame N) :
    p.bytes.length = p.size := by
  simp [bytes, p.size_le]

@[simp] theorem PendingFrame.bytes_reset {N : Nat} (p : PendingFrame N) :
    p.reset.bytes = [] := by
  simp [bytes, reset]

@[simp] theorem PendingFrame.bytes_push {N : Nat} (p : PendingFrame N) (byte : UInt8)
    (h : p.size < N) : (p.push byte h).bytes = p.bytes ++ [byte] := by
  have hlen : p.size < (p.buffer.set p.size byte h).toList.length := by simpa using h
  simp only [bytes, push]
  rw [List.take_succ_eq_append_getElem hlen]
  simp [Vector.toList_set, List.take_set_of_le]

/-- The state of a `FrameWaiter<N>` over a ring buffer `Q`. `callback` says that
`callback_m` is not null. -/
structure FrameWaiter {N : Nat} (Q : Ringbuffer N) where
  buffer : Q.Buffer
  pendingFrame : PendingFrame N
  overflow : Bool
  droppingFeedBytes : Bool
  callback : Bool

section

variable {N : Nat} {Q : Ringbuffer N}

def FrameWaiter.init (Q : Ringbuffer N) (callback : Bool) : FrameWaiter Q where
  buffer := Q.empty
  pendingFrame := ⟨Vector.replicate N 0, 0, Nat.zero_le N⟩
  overflow := false
  droppingFeedBytes := false
  callback := callback

def FrameWaiter.ring (w : FrameWaiter Q) : List UInt8 := Q.contents w.buffer

def FrameWaiter.pending (w : FrameWaiter Q) : List UInt8 := w.pendingFrame.bytes

/-- Every accepted byte the consumer has not disposed of, oldest first. -/
def FrameWaiter.unread (w : FrameWaiter Q) : List UInt8 := w.pending ++ w.ring

@[simp] theorem FrameWaiter.ring_init (callback : Bool) :
    (FrameWaiter.init Q callback).ring = [] := Q.contents_empty

@[simp] theorem FrameWaiter.pending_init (callback : Bool) :
    (FrameWaiter.init Q callback).pending = [] := by
  simp [pending, init, PendingFrame.bytes]

@[simp] theorem FrameWaiter.overflow_init (callback : Bool) :
    (FrameWaiter.init Q callback).overflow = false := rfl

@[simp] theorem FrameWaiter.droppingFeedBytes_init (callback : Bool) :
    (FrameWaiter.init Q callback).droppingFeedBytes = false := rfl

@[simp] theorem FrameWaiter.callback_init (callback : Bool) :
    (FrameWaiter.init Q callback).callback = callback := rfl

theorem FrameWaiter.length_ring_le (w : FrameWaiter Q) : w.ring.length ≤ N :=
  Q.length_contents_le w.buffer

theorem FrameWaiter.length_pending_le (w : FrameWaiter Q) : w.pending.length ≤ N := by
  simpa [pending] using w.pendingFrame.size_le

/-- `feed(byte)`. The second component says whether the callback was called. -/
def feed (w : FrameWaiter Q) (byte : UInt8) : FrameWaiter Q × Bool :=
  if w.droppingFeedBytes then
    if byte = packetDelimiter then ({ w with droppingFeedBytes := false }, false)
    else (w, false)
  else
    match Q.insert w.buffer byte with
    -- the overflow is recorded, and nobody is called
    | none => ({ w with overflow := true, droppingFeedBytes := true }, false)
    | some buffer =>
        ({ w with buffer := buffer }, decide (byte = packetDelimiter) && w.callback)

def feedRange (w : FrameWaiter Q) (range : List UInt8) : FrameWaiter Q × Bool :=
  range.foldl (fun p byte => ((feed p.1 byte).1, p.2 || (feed p.1 byte).2)) (w, false)

def insertDelimiter (w : FrameWaiter Q) : FrameWaiter Q × Bool := feed w packetDelimiter

/-- Where a call of `feed(byte)` stands: about to load `droppingFeedBytes_m`, to
clear it, to insert the byte, to store one of the two flags, or to call back. -/
inductive FeedPc where
  | loading
  | clearing
  | inserting
  | storingOverflow
  | storingDropping
  | calling
deriving DecidableEq, Repr

/-- One atomic step of `feed(byte)`: the new waiter, where the call stands next
(`none` when it has returned) and whether the callback was called. -/
def feedStep (w : FrameWaiter Q) (byte : UInt8) :
    FeedPc → FrameWaiter Q × Option FeedPc × Bool
  | .loading =>
      if w.droppingFeedBytes then
        if byte = packetDelimiter then (w, some .clearing, false) else (w, none, false)
      else (w, some .inserting, false)
  | .clearing => ({ w with droppingFeedBytes := false }, none, false)
  | .inserting =>
      match Q.insert w.buffer byte with
      | none => (w, some .storingOverflow, false)
      | some buffer =>
          if byte = packetDelimiter ∧ w.callback = true then
            ({ w with buffer := buffer }, some .calling, false)
          else ({ w with buffer := buffer }, none, false)
  | .storingOverflow => ({ w with overflow := true }, some .storingDropping, false)
  | .storingDropping => ({ w with droppingFeedBytes := true }, none, false)
  | .calling => (w, none, true)

/-- What a call of `tryReadFrame` hands back: the status, `bytesWritten`, and the
caller's output buffer after the call. -/
structure ReadResult where
  status : ReadFrameStatus
  bytesWritten : Nat
  outputBuffer : Option (List UInt8)
deriving DecidableEq, Repr

def ReadResult.payload (r : ReadResult) : List UInt8 :=
  (r.outputBuffer.getD []).take r.bytesWritten

def returnEmpty (status : ReadFrameStatus) (outputBuffer : List UInt8) : ReadResult :=
  ⟨status, 0, some outputBuffer⟩

/-- `std::memcpy` of the assembled bytes over the start of the output buffer. -/
def copyOut (bytes outputBuffer : List UInt8) : List UInt8 :=
  bytes ++ outputBuffer.drop bytes.length

/-- Where a call of `tryReadFrame` stands: about to remove a byte in its main
loop, about to exchange `overflow_m`, or about to remove a byte in
`dropBufferUntilDelimiterOrEmpty`, after which it returns the given status. -/
inductive ReadPc where
  | removing (outputBuffer : List UInt8) (bufferCapacity : Nat)
  | exchanging (outputBuffer : List UInt8)
  | dropping (outputBuffer : List UInt8) (status : ReadFrameStatus)
deriving DecidableEq, Repr

/-- The entry of `tryReadFrame`; `none` is a null output pointer. -/
def readEntry (outputBuffer : Option (List UInt8)) (bufferCapacity : Nat) :
    ReadPc ⊕ ReadResult :=
  match outputBuffer with
  | none => .inr ⟨.bufferNullptr, 0, none⟩
  | some out => .inl (.removing out bufferCapacity)

def readStep (w : FrameWaiter Q) : ReadPc → FrameWaiter Q × (ReadPc ⊕ ReadResult)
  | .removing out bufferCapacity =>
      match Q.remove w.buffer with
      | none => (w, .inl (.exchanging out))
      | some (byte, buffer) =>
          if byte = packetDelimiter then
            if bufferCapacity < w.pendingFrame.size then
              ({ w with buffer := buffer, pendingFrame := w.pendingFrame.reset },
                .inr (returnEmpty .bufferTooSmall out))
            else
              ({ w with buffer := buffer, pendingFrame := w.pendingFrame.reset },
                .inr ⟨.ok, w.pendingFrame.size, some (copyOut w.pendingFrame.bytes out)⟩)
          else if h : w.pendingFrame.size < N then
            ({ w with buffer := buffer, pendingFrame := w.pendingFrame.push byte h },
              .inl (.removing out bufferCapacity))
          else
            ({ w with buffer := buffer }, .inl (.dropping out .bufferTooSmall))
  | .exchanging out =>
      if w.overflow then ({ w with overflow := false }, .inl (.dropping out .overflow))
      else (w, .inr (returnEmpty .incompleteFrame out))
  | .dropping out status =>
      match Q.remove w.buffer with
      | none =>
          ({ w with pendingFrame := w.pendingFrame.reset }, .inr (returnEmpty status out))
      | some (byte, buffer) =>
          if byte = packetDelimiter then
            ({ w with buffer := buffer, pendingFrame := w.pendingFrame.reset },
              .inr (returnEmpty status out))
          else ({ w with buffer := buffer }, .inl (.dropping out status))

/-- Let a call of `tryReadFrame` run to its return without interference. -/
def finishRead : Nat → FrameWaiter Q → ReadPc ⊕ ReadResult →
    Option (FrameWaiter Q × ReadResult)
  | _, w, .inr r => some (w, r)
  | 0, _, .inl _ => none
  | fuel + 1, w, .inl pc => finishRead fuel (readStep w pc).1 (readStep w pc).2

/-- `tryReadFrame(outputBuffer, bufferCapacity, bytesWritten)` as one call. The
fuel covers one removal for each queued byte, the failing removals and the
exchange; `tryReadFrame_outcome` shows that it suffices. -/
def tryReadFrame (w : FrameWaiter Q) (outputBuffer : Option (List UInt8))
    (bufferCapacity : Nat) : Option (FrameWaiter Q × ReadResult) :=
  finishRead (w.ring.length + 3) w (readEntry outputBuffer bufferCapacity)

end

end EasyLoRa.FrameWaiterModel
