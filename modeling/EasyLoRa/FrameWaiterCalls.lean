import EasyLoRa.FrameWaiterOutcomes
import EasyLoRa.TransitionSystem

namespace EasyLoRa.FrameWaiterCalls

open EasyLoRa.ByteQueue
open EasyLoRa.DelimitedFrames
open EasyLoRa.FrameWaiterModel
open EasyLoRa.FrameWaiterOutcomes
open EasyLoRa.TransitionSystem

variable {N : Nat} {Q : Ringbuffer N}

inductive Call where
  | feed (byte : UInt8)
  | read (outputBuffer : Option (List UInt8)) (bufferCapacity : Nat)
deriving DecidableEq, Repr

/-- Whether `feed(byte)` puts the byte into the ring. -/
def accepts (w : FrameWaiter Q) (byte : UInt8) : Bool :=
  !w.droppingFeedBytes && (Q.insert w.buffer byte).isSome

/-- The waiter with the fed bytes, each with whether the ring accepted it, and
the results of the `tryReadFrame` calls, oldest first. -/
structure CallState {N : Nat} (Q : Ringbuffer N) where
  waiter : FrameWaiter Q
  fed : List (UInt8 × Bool)
  returned : List ReadResult

def CallState.init (Q : Ringbuffer N) (callback : Bool) : CallState Q :=
  ⟨FrameWaiter.init Q callback, [], []⟩

def CallState.stream (s : CallState Q) : List UInt8 := s.fed.map Prod.fst

def CallState.lastAccepted (s : CallState Q) : Bool :=
  (s.fed.getLast?.map Prod.snd).getD true

/-- The payloads returned with `OK`. -/
def delivered (returned : List ReadResult) : List (List UInt8) :=
  (returned.filter fun r => r.status = .ok).map ReadResult.payload

def callStep (s : CallState Q) : Call → Option (CallState Q)
  | .feed byte =>
      some { s with
        waiter := (feed s.waiter byte).1
        fed := s.fed ++ [(byte, accepts s.waiter byte)] }
  | .read outputBuffer bufferCapacity =>
      (tryReadFrame s.waiter outputBuffer bufferCapacity).map fun p =>
        { s with waiter := p.1, returned := s.returned ++ [p.2] }

@[simp] theorem delivered_nil : delivered [] = [] := rfl

theorem delivered_concat_ok (returned : List ReadResult) (f out : List UInt8) :
    delivered (returned ++ [⟨.ok, f.length, some (copyOut f out)⟩]) =
      delivered returned ++ [f] := by
  simp [delivered, payload_delivered]

theorem delivered_concat_of_ne (returned : List ReadResult) {r : ReadResult}
    (h : r.status ≠ .ok) : delivered (returned ++ [r]) = delivered returned := by
  simp [delivered, h]

inductive FeedCallOutcome (s : CallState Q) (byte : UInt8) (t : CallState Q) : Prop where
  | accepted (hdropping : s.waiter.droppingFeedBytes = false)
      (haccepts : accepts s.waiter byte = true)
      (hfed : t.fed = s.fed ++ [(byte, true)]) (hreturned : t.returned = s.returned)
      (hpending : t.waiter.pending = s.waiter.pending)
      (hring : t.waiter.ring = s.waiter.ring ++ [byte])
      (hdropping' : t.waiter.droppingFeedBytes = false)
  | lost (hfed : t.fed = s.fed ++ [(byte, false)]) (hreturned : t.returned = s.returned)
      (hpending : t.waiter.pending = s.waiter.pending) (hring : t.waiter.ring = s.waiter.ring)
      (hdropping' : t.waiter.droppingFeedBytes = false → byte = packetDelimiter)

theorem feedCall_outcome {s t : CallState Q} {byte : UInt8}
    (hstep : callStep s (.feed byte) = some t) : FeedCallOutcome s byte t := by
  obtain rfl := Option.some.inj hstep
  have houtcome := feed_outcome s.waiter byte
  generalize hfeed : feed s.waiter byte = p at houtcome ⊢
  cases houtcome with
  | skipped hdropping hbyte =>
      exact .lost (by simp [accepts, hdropping]) rfl rfl rfl (by simp [hdropping])
  | resumed hdropping hbyte =>
      exact .lost (by simp [accepts, hdropping]) rfl rfl rfl fun _ => hbyte
  | refused hdropping hring =>
      have hinsert := (Q.insert_eq_none_iff s.waiter.buffer byte).mpr hring
      exact .lost (by simp [accepts, hinsert]) rfl rfl rfl (by simp)
  | accepted buffer hdropping hroom hring =>
      obtain ⟨r, hinsert, -⟩ := Q.insert_eq_some byte hroom
      have haccepts : accepts s.waiter byte = true := by
        simp [accepts, hdropping, hinsert]
      exact .accepted hdropping haccepts (by simp [haccepts]) rfl rfl (by simpa using hring)
        hdropping

theorem readCall_outcome {s t : CallState Q} {out : List UInt8} {cap : Nat}
    (hpending : packetDelimiter ∉ s.waiter.pending)
    (hstep : callStep s (.read (some out) cap) = some t) :
    ∃ r, ReadOutcome s.waiter out cap (t.waiter, r) ∧ t.fed = s.fed ∧
      t.returned = s.returned ++ [r] := by
  obtain ⟨p, hread, hout⟩ := tryReadFrame_outcome s.waiter out cap hpending
  simp only [callStep, hread, Option.map_some, Option.some.injEq] at hstep
  subst hstep
  exact ⟨p.2, hout, rfl, rfl⟩

end EasyLoRa.FrameWaiterCalls
