import Mathlib.Algebra.BigOperators.Ring.List
import Mathlib.Algebra.Ring.Nat
import EasyLoRa.ByteAccounting

namespace EasyLoRa.StepBounds

open EasyLoRa.ByteQueue
open EasyLoRa.FrameWaiterModel
open EasyLoRa.FrameWaiterOutcomes
open EasyLoRa.FrameWaiterSteps
open EasyLoRa.ByteAccounting
open EasyLoRa.TransitionSystem

variable {N : Nat} {Q : Ringbuffer N}

/-- The accesses a call of `feed` may still perform. -/
def feedLeft : Option (UInt8 × FeedPc) → Nat
  | none => 0
  | some (_, .loading) => 4
  | some (_, .inserting) => 3
  | some (_, .storingOverflow) => 2
  | some (_, _) => 1

/-- The accesses a call of `tryReadFrame` may still perform, removals of queued bytes
apart. -/
def readLeft : Option ReadPc → Nat
  | none => 0
  | some (.removing _ _) => 3
  | some (.exchanging _) => 2
  | some (.dropping _ _) => 1

def isProduce : Action → Nat
  | .produce => 1
  | _ => 0

def isConsume : Action → Nat
  | .consume => 1
  | _ => 0

def isFeed : Action → Nat
  | .feed _ => 1
  | _ => 0

def isRead : Action → Nat
  | .read _ _ => 1
  | _ => 0

theorem feedLeft_produce {s t : StepState Q} (hstep : step s .produce = some t) :
    feedLeft t.feeding + 1 ≤ feedLeft s.feeding := by
  obtain ⟨byte, pc, w, next, called, hfeeding, houtcome, rfl⟩ := produce_outcome hstep
  cases houtcome <;> simp [feedLeft, hfeeding]

theorem feedLeft_step {s t : StepState Q} {a : Action} (hstep : step s a = some t) :
    feedLeft t.feeding + isProduce a ≤ feedLeft s.feeding + 4 * isFeed a := by
  cases a with
  | feed byte =>
      obtain ⟨hfeeding, rfl⟩ := feed_outcome_of_step hstep
      simp [feedLeft, isProduce, isFeed]
  | produce => exact feedLeft_produce hstep
  | read outputBuffer cap =>
      obtain ⟨-, ⟨out, -, rfl⟩ | ⟨-, rfl⟩⟩ := read_outcome_of_step hstep <;>
        simp [isProduce, isFeed]
  | consume =>
      obtain ⟨pc, w, -, ⟨pc', -, rfl⟩ | ⟨r, -, rfl⟩⟩ := consume_outcome hstep <;>
        simp [isProduce, isFeed]

/-- Every access of a reader removes a byte or brings its call nearer to the return. -/
theorem readLeft_consume {s t : StepState Q} (hstep : step s .consume = some t) :
    readLeft t.reading + t.waiter.ring.length + 1 ≤
      readLeft s.reading + s.waiter.ring.length := by
  obtain ⟨pc, w, hreading, ⟨pc', hread, rfl⟩ | ⟨r, hread, rfl⟩⟩ := consume_outcome hstep
  · cases hread with
    | ranEmpty out cap hring =>
        simp only [readLeft, hreading]
        omega
    | overflowed out hoverflow =>
        simp only [readLeft, hreading, ring_mk, contents_buffer]
        omega
    | assembled out cap byte buffer hbyte hring hsize =>
        simp only [readLeft, hreading, ring_mk, hring, List.length_cons]
        omega
    | filled out cap byte buffer hbyte hring hsize =>
        simp only [readLeft, hreading, ring_mk, hring, List.length_cons]
        omega
    | droppedByte out status byte buffer hbyte hring =>
        simp only [readLeft, hreading, ring_mk, hring, List.length_cons]
        omega
  · cases hread with
    | unfinished out hoverflow =>
        simp only [readLeft, hreading]
        omega
    | droppedAll out status hring =>
        simp only [readLeft, hreading, ring_mk, contents_buffer]
        omega
    | rejected out cap buffer hring hcap =>
        simp only [readLeft, hreading, ring_mk, hring, List.length_cons]
        omega
    | delivered out cap buffer hring hcap =>
        simp only [readLeft, hreading, ring_mk, hring, List.length_cons]
        omega
    | droppedFrame out status buffer hring =>
        simp only [readLeft, hreading, ring_mk, hring, List.length_cons]
        omega

theorem readLeft_step {s t : StepState Q} {a : Action} (hstep : step s a = some t) :
    readLeft t.reading + t.waiter.ring.length + (acceptedBytes s).length + isConsume a ≤
      readLeft s.reading + s.waiter.ring.length + (acceptedBytes t).length + 3 * isRead a := by
  cases a with
  | feed byte =>
      obtain ⟨-, rfl⟩ := feed_outcome_of_step hstep
      simp [isConsume, isRead, acceptedBytes]
  | produce =>
      obtain ⟨bytes, haccepted, hring, hreading, -, -⟩ := acceptedBytes_produce hstep
      rw [haccepted, hring, hreading, List.length_append, List.length_append]
      simp [isConsume, isRead]
      omega
  | read outputBuffer cap =>
      obtain ⟨hidle, ⟨out, -, rfl⟩ | ⟨-, rfl⟩⟩ := read_outcome_of_step hstep
      · simp [readLeft, hidle, isConsume, isRead, acceptedBytes]
        omega
      · simp [readLeft, hidle, isConsume, isRead, acceptedBytes]
  | consume =>
      have hfewer := readLeft_consume hstep
      obtain ⟨pc, w, -, ⟨pc', -, rfl⟩ | ⟨r, -, rfl⟩⟩ := consume_outcome hstep
      · simp only [isConsume, isRead, acceptedBytes] at hfewer ⊢
        omega
      · simp only [isConsume, isRead, acceptedBytes] at hfewer ⊢
        omega

/-- Over any stretch of a run a call of `feed` performs at most four accesses, and a call
of `tryReadFrame` at most three and one for each byte it finds or is fed. So no side can
keep a call of the other from returning but by feeding it bytes. -/
theorem accesses_bounded (Q : Ringbuffer N) (schedule : List Action) (s t : StepState Q)
    (hexec : exec step s schedule = some t) :
    feedLeft t.feeding + (schedule.map isProduce).sum ≤
        feedLeft s.feeding + 4 * (schedule.map isFeed).sum ∧
      readLeft t.reading + t.waiter.ring.length + (acceptedBytes s).length +
          (schedule.map isConsume).sum ≤
        readLeft s.reading + s.waiter.ring.length + (acceptedBytes t).length +
          3 * (schedule.map isRead).sum := by
  have hfeed := exec_amortized (I := fun _ => True)
    (fun s : StepState Q => feedLeft s.feeding) (fun _ => 0) isProduce (fun a => 4 * isFeed a)
    (fun _ _ _ _ _ => trivial) (fun _ _ _ _ hstep => feedLeft_step hstep) trivial hexec
  have hread := exec_amortized (I := fun _ => True)
    (fun s : StepState Q => readLeft s.reading + s.waiter.ring.length)
    (fun s => (acceptedBytes s).length) isConsume (fun a => 3 * isRead a)
    (fun _ _ _ _ _ => trivial) (fun _ _ _ _ hstep => readLeft_step hstep) trivial hexec
  rw [List.sum_map_mul_left] at hfeed hread
  exact ⟨hfeed, hread⟩

/-- A call of `tryReadFrame` that is begun on three queued bytes removes seven, because
four more arrive in time. -/
def chasedSchedule : List Action :=
  [1, 2, 3].flatMap (fun byte => [.feed byte, .produce, .produce]) ++ [.read (some []) 8] ++
    [4, 5, 6, 7].flatMap (fun byte => [.consume, .feed byte, .produce, .produce]) ++
    List.replicate 5 .consume

theorem accesses_chasedSchedule :
    ∃ s, exec step (StepState.init (fifo 8) true) chasedSchedule = some s ∧
      s.reading = none ∧ (acceptedBytes s).length = 7 ∧
      (chasedSchedule.map isConsume).sum = 9 ∧
      (chasedSchedule.map isConsume).sum ≤ 7 + 3 * (chasedSchedule.map isRead).sum := by
  have hrun : ∃ s, exec step (StepState.init (fifo 8) true) chasedSchedule = some s ∧
      s.reading = none ∧ (acceptedBytes s).length = 7 ∧ (chasedSchedule.map isConsume).sum = 9 :=
    ⟨(exec step (StepState.init (fifo 8) true) chasedSchedule).get (by decide), by simp,
      by decide, by decide, by decide⟩
  obtain ⟨s, hexec, hidle, haccepted, hconsumed⟩ := hrun
  have hbound := (accesses_bounded (fifo 8) chasedSchedule _ s hexec).2
  have hinit : readLeft (StepState.init (fifo 8) true).reading +
      (StepState.init (fifo 8) true).waiter.ring.length = 0 := rfl
  refine ⟨s, hexec, hidle, haccepted, hconsumed, ?_⟩
  omega

end EasyLoRa.StepBounds
