import EasyLoRa.FrameWaiterSteps

namespace EasyLoRa.AssemblerBounds

open EasyLoRa.ByteQueue
open EasyLoRa.DelimitedFrames
open EasyLoRa.FrameWaiterModel
open EasyLoRa.FrameWaiterOutcomes
open EasyLoRa.FrameWaiterSteps
open EasyLoRa.TransitionSystem

variable {N : Nat} {Q : Ringbuffer N}

/-- A call of `tryReadFrame`: its arguments, and how many delimiters it has removed. -/
structure ReadCall where
  outputBuffer : Option (List UInt8)
  bufferCapacity : Nat
  delimiters : Nat
deriving DecidableEq, Repr

/-- The system with the call in progress, and every finished call with its result. -/
structure Monitor {N : Nat} (Q : Ringbuffer N) where
  state : StepState Q
  current : Option ReadCall
  finished : List (ReadCall × ReadResult)

def Monitor.init (Q : Ringbuffer N) (callback : Bool) : Monitor Q :=
  ⟨StepState.init Q callback, none, []⟩

/-- How many delimiters were removed from the ring. -/
def delimitersRemoved (before after : List UInt8) : Nat :=
  before.count packetDelimiter - after.count packetDelimiter

/-- The call the step belongs to, if it belongs to one. -/
def callOf (m : Monitor Q) (t : StepState Q) : Action → Option ReadCall
  | .read outputBuffer bufferCapacity => some ⟨outputBuffer, bufferCapacity, 0⟩
  | .consume => m.current.map fun call =>
      { call with
        delimiters := call.delimiters + delimitersRemoved m.state.waiter.ring t.waiter.ring }
  | _ => m.current

def observe (m : Monitor Q) (a : Action) (t : StepState Q) : Monitor Q where
  state := t
  current := if t.reading.isSome then callOf m t a else none
  finished := m.finished ++
    (t.returned.drop m.state.returned.length).filterMap fun r =>
      (callOf m t a).map fun call => (call, r)

def monitor (m : Monitor Q) (a : Action) : Option (Monitor Q) :=
  (step m.state a).map (observe m a)

/-- What a finished call may have done. -/
structure WithinBounds (N : Nat) (call : ReadCall) (r : ReadResult) : Prop where
  bytesWritten : r.bytesWritten ≤ min N call.bufferCapacity
  written : r.status = .ok → ∃ out after, call.outputBuffer = some out ∧
    r.outputBuffer = some after ∧ after.drop r.bytesWritten = out.drop r.bytesWritten ∧
    (call.bufferCapacity ≤ out.length → after.length = out.length)
  untouched : r.status ≠ .ok → r.bytesWritten = 0 ∧ r.outputBuffer = call.outputBuffer
  delimiters : call.delimiters ≤ 1

/-- The step writes no element of `pendingFrameBuffer_m`, or the one at the index
`pendingFrameSize_m`, which is below `N`. -/
def WritesInBounds (s t : StepState Q) : Prop :=
  t.waiter.pendingFrame.buffer = s.waiter.pendingFrame.buffer ∨
    ∃ (byte : UInt8) (h : s.waiter.pendingFrame.size < N),
      t.waiter.pendingFrame.buffer =
        s.waiter.pendingFrame.buffer.set s.waiter.pendingFrame.size byte h

structure Bounded (m : Monitor Q) : Prop where
  size : m.state.waiter.pendingFrame.size ≤ N
  writes : ∀ a t, step m.state a = some t → WritesInBounds m.state t
  pending : packetDelimiter ∉ m.state.waiter.pending
  calls : ∀ p ∈ m.finished, WithinBounds N p.1 p.2
  recorded : m.finished.map Prod.snd = m.state.returned

theorem writesInBounds_step {s t : StepState Q} {a : Action} (hstep : step s a = some t) :
    WritesInBounds s t := by
  cases a with
  | feed byte =>
      obtain ⟨-, rfl⟩ := feed_outcome_of_step hstep
      exact Or.inl rfl
  | produce =>
      obtain ⟨byte, pc, w, next, called, -, houtcome, rfl⟩ := produce_outcome hstep
      left
      cases houtcome <;> rfl
  | read outputBuffer cap =>
      obtain ⟨-, ⟨out, -, rfl⟩ | ⟨-, rfl⟩⟩ := read_outcome_of_step hstep
      · exact Or.inl rfl
      · exact Or.inl rfl
  | consume =>
      obtain ⟨pc, w, -, ⟨pc', houtcome, rfl⟩ | ⟨r, houtcome, rfl⟩⟩ := consume_outcome hstep
      · cases houtcome with
        | assembled out cap byte buffer hbyte hring hsize => exact Or.inr ⟨byte, hsize, rfl⟩
        | _ => exact Or.inl rfl
      · left
        cases houtcome <;> rfl

/-- What the call in progress goes on to do with its arguments. -/
def Follows (call : ReadCall) : ReadPc → Prop
  | .removing out cap => call = ⟨some out, cap, 0⟩
  | .exchanging out => ∃ cap, call = ⟨some out, cap, 0⟩
  | .dropping out status => status ≠ .ok ∧ ∃ cap, call = ⟨some out, cap, 0⟩

structure Monitored (m : Monitor Q) : Prop where
  pending : packetDelimiter ∉ m.state.waiter.pending
  calls : ∀ p ∈ m.finished, WithinBounds N p.1 p.2
  recorded : m.finished.map Prod.snd = m.state.returned
  follows : ∀ pc, m.state.reading = some pc → ∃ call, m.current = some call ∧ Follows call pc

theorem monitored_init (callback : Bool) : Monitored (Monitor.init Q callback) := by
  constructor <;> simp [Monitor.init, StepState.init]

theorem delimitersRemoved_self (ring : List UInt8) : delimitersRemoved ring ring = 0 :=
  Nat.sub_self _

theorem delimitersRemoved_le_one {ring after : List UInt8}
    (h : ring = packetDelimiter :: after ∨ ring = after) : delimitersRemoved ring after ≤ 1 := by
  rcases h with rfl | rfl
  · simp [delimitersRemoved]
  · simp [delimitersRemoved]

theorem delimitersRemoved_byte {byte : UInt8} (hbyte : byte ≠ packetDelimiter)
    (ring : List UInt8) : delimitersRemoved (byte :: ring) ring = 0 := by
  simp [delimitersRemoved, hbyte]

theorem withinBounds_returnEmpty {out : List UInt8} {cap delimiters : Nat}
    {status : ReadFrameStatus} (hstatus : status ≠ .ok) (hdelimiters : delimiters ≤ 1) :
    WithinBounds N ⟨some out, cap, delimiters⟩ (returnEmpty status out) :=
  ⟨Nat.zero_le _, fun h => absurd h hstatus, fun _ => ⟨rfl, rfl⟩, hdelimiters⟩

theorem withinBounds_delivered {out : List UInt8} {cap delimiters : Nat} {w : FrameWaiter Q}
    (hcap : w.pending.length ≤ cap) (hdelimiters : delimiters ≤ 1) :
    WithinBounds N ⟨some out, cap, delimiters⟩
      ⟨.ok, w.pending.length, some (copyOut w.pending out)⟩ := by
  refine ⟨Nat.le_min.mpr ⟨w.length_pending_le, hcap⟩, ?_, fun h => absurd rfl h, hdelimiters⟩
  intro _
  refine ⟨out, copyOut w.pending out, rfl, rfl, List.drop_left, ?_⟩
  intro hroom
  have hfits : w.pending.length ≤ out.length := Nat.le_trans hcap hroom
  simp only [copyOut, List.length_append, List.length_drop]
  omega

/-- A step of the call in progress that does not return. -/
theorem monitored_continue {m : Monitor Q} {w : FrameWaiter Q} {call : ReadCall} {pc : ReadPc}
    (hm : Monitored m) (hpending : packetDelimiter ∉ w.pending) (hcurrent : m.current = some call)
    (hfollows : Follows call pc)
    (hremoved : delimitersRemoved m.state.waiter.ring w.ring = 0) :
    Monitored (observe m .consume { m.state with waiter := w, reading := some pc }) := by
  refine ⟨hpending, ?_, ?_, ?_⟩
  · simpa [observe] using hm.calls
  · simpa [observe] using hm.recorded
  · rintro pc' hpc
    obtain rfl : pc = pc' := Option.some.inj hpc
    refine ⟨call, ?_, hfollows⟩
    simp [observe, callOf, hcurrent, hremoved]

/-- The last step of the call in progress. -/
theorem monitored_return {m : Monitor Q} {w : FrameWaiter Q} {out : List UInt8} {cap : Nat}
    {r : ReadResult} (hm : Monitored m) (hpending : packetDelimiter ∉ w.pending)
    (hcurrent : m.current = some ⟨some out, cap, 0⟩)
    (hbounds : WithinBounds N
      ⟨some out, cap, delimitersRemoved m.state.waiter.ring w.ring⟩ r) :
    Monitored (observe m .consume { m.state with
      waiter := w, reading := none, returned := m.state.returned ++ [r] }) := by
  refine ⟨hpending, ?_, ?_, by simp [observe]⟩
  · intro p hp
    simp only [observe, callOf, hcurrent, Option.map_some, List.drop_left, List.filterMap_cons,
      List.filterMap_nil, List.mem_append, List.mem_singleton, Nat.zero_add] at hp
    rcases hp with hp | rfl
    · exact hm.calls p hp
    · exact hbounds
  · simp [observe, callOf, hcurrent, hm.recorded]

/-- A step of the producer touches neither the call in progress nor the pending bytes. -/
theorem monitored_produce {m : Monitor Q} {a : Action} {t : StepState Q} (hm : Monitored m)
    (hcall : callOf m t a = m.current) (hpending : t.waiter.pending = m.state.waiter.pending)
    (hreading : t.reading = m.state.reading) (hreturned : t.returned = m.state.returned) :
    Monitored (observe m a t) := by
  refine ⟨?_, ?_, ?_, ?_⟩
  · rw [observe, hpending]
    exact hm.pending
  · simpa [observe, hreturned] using hm.calls
  · simpa [observe, hreturned] using hm.recorded
  · rintro pc hpc
    have hpc : m.state.reading = some pc := hreading.symm.trans hpc
    obtain ⟨call, hcurrent, hfollows⟩ := hm.follows pc hpc
    refine ⟨call, ?_, hfollows⟩
    simp [observe, hreading, hpc, hcall, hcurrent]

theorem monitored_read {m : Monitor Q} {outputBuffer : Option (List UInt8)} {cap : Nat}
    {t : StepState Q} (hm : Monitored m)
    (hstep : step m.state (.read outputBuffer cap) = some t) :
    Monitored (observe m (.read outputBuffer cap) t) := by
  obtain ⟨hidle, ⟨out, rfl, rfl⟩ | ⟨rfl, rfl⟩⟩ := read_outcome_of_step hstep
  · refine ⟨hm.pending, ?_, ?_, ?_⟩
    · simpa [observe] using hm.calls
    · simpa [observe] using hm.recorded
    · rintro pc hpc
      obtain rfl : ReadPc.removing out cap = pc := Option.some.inj hpc
      exact ⟨⟨some out, cap, 0⟩, by simp [observe, callOf], rfl⟩
  · refine ⟨hm.pending, ?_, ?_, ?_⟩
    · intro p hp
      simp only [observe, callOf, Option.map_some, List.drop_left, List.filterMap_cons,
        List.filterMap_nil, List.mem_append, List.mem_singleton] at hp
      rcases hp with hp | rfl
      · exact hm.calls p hp
      · exact ⟨Nat.zero_le _, by simp, fun _ => ⟨rfl, rfl⟩, Nat.zero_le _⟩
    · simp [observe, callOf, hm.recorded]
    · rintro pc hpc
      exact absurd (hidle.symm.trans hpc) (by simp)

theorem monitored_consume {m : Monitor Q} {t : StepState Q} (hm : Monitored m)
    (hstep : step m.state .consume = some t) : Monitored (observe m .consume t) := by
  obtain ⟨pc, w, hreading, ⟨pc', houtcome, rfl⟩ | ⟨r, houtcome, rfl⟩⟩ := consume_outcome hstep
  all_goals obtain ⟨call, hcurrent, hfollows⟩ := hm.follows pc hreading
  · cases houtcome with
    | ranEmpty out cap hring =>
        exact monitored_continue hm hm.pending hcurrent ⟨cap, hfollows⟩ (delimitersRemoved_self _)
    | assembled out cap byte buffer hbyte hring hsize =>
        refine monitored_continue hm ?_ hcurrent hfollows (hring ▸ delimitersRemoved_byte hbyte _)
        simpa using not_mem_concat hm.pending hbyte
    | filled out cap byte buffer hbyte hring hsize =>
        exact monitored_continue hm hm.pending hcurrent ⟨by simp, cap, hfollows⟩
          (hring ▸ delimitersRemoved_byte hbyte _)
    | overflowed out hoverflow =>
        exact monitored_continue hm hm.pending hcurrent ⟨by simp, hfollows⟩
          (delimitersRemoved_self _)
    | droppedByte out status byte buffer hbyte hring =>
        exact monitored_continue hm hm.pending hcurrent hfollows
          (hring ▸ delimitersRemoved_byte hbyte _)
  · cases houtcome with
    | rejected out cap buffer hring hcap =>
        apply monitored_return hm (by simp) (hfollows ▸ hcurrent)
        exact withinBounds_returnEmpty (by simp) (delimitersRemoved_le_one (Or.inl hring))
    | delivered out cap buffer hring hcap =>
        apply monitored_return hm (by simp) (hfollows ▸ hcurrent)
        exact withinBounds_delivered hcap (delimitersRemoved_le_one (Or.inl hring))
    | unfinished out hoverflow =>
        obtain ⟨cap, rfl⟩ := hfollows
        apply monitored_return hm hm.pending hcurrent
        exact withinBounds_returnEmpty (by simp) (delimitersRemoved_le_one (Or.inr rfl))
    | droppedAll out status hring =>
        obtain ⟨hstatus, cap, rfl⟩ := hfollows
        apply monitored_return hm (by simp) hcurrent
        exact withinBounds_returnEmpty hstatus (delimitersRemoved_le_one (Or.inr rfl))
    | droppedFrame out status buffer hring =>
        obtain ⟨hstatus, cap, rfl⟩ := hfollows
        apply monitored_return hm (by simp) hcurrent
        exact withinBounds_returnEmpty hstatus (delimitersRemoved_le_one (Or.inl hring))

theorem monitored_step {m n : Monitor Q} {a : Action} (hm : Monitored m)
    (hstep : monitor m a = some n) : Monitored n := by
  obtain ⟨t, ht, rfl⟩ := Option.map_eq_some_iff.mp hstep
  cases a with
  | feed byte =>
      obtain ⟨-, rfl⟩ := feed_outcome_of_step ht
      exact monitored_produce hm rfl rfl rfl rfl
  | produce =>
      obtain ⟨byte, pc, w, next, called, -, houtcome, rfl⟩ := produce_outcome ht
      refine monitored_produce hm rfl ?_ rfl rfl
      cases houtcome <;> rfl
  | read outputBuffer cap => exact monitored_read hm ht
  | consume => exact monitored_consume hm ht

/-- The bounds hold after every run, and of every call that has returned in it. -/
theorem bounded_of_run (Q : Ringbuffer N) (callback : Bool) (schedule : List Action)
    (m : Monitor Q) (hexec : exec monitor (Monitor.init Q callback) schedule = some m) :
    Bounded m := by
  have hm : Monitored m :=
    exec_stable (I := Monitored) (fun _ _ _ hm hstep => monitored_step hm hstep)
      (monitored_init callback) hexec
  exact ⟨m.state.waiter.pendingFrame.size_le, fun _ _ hstep => writesInBounds_step hstep,
    hm.pending, hm.calls, hm.recorded⟩

/-- Bytes `1 2 3 0` through a ring of two bytes: the frame is too long for the
pending buffer, and a null pointer comes in between. -/
def oversizeSchedule : List Action :=
  [.feed 1, .produce, .produce, .feed 2, .produce, .produce, .read (some [9]) 1, .consume,
    .consume, .consume, .consume, .read none 1, .feed 3, .produce, .produce, .feed 0, .produce,
    .produce, .read (some [9]) 0, .consume, .consume]

theorem bounded_oversizeSchedule :
    ∃ m, exec monitor (Monitor.init (fifo 2) false) oversizeSchedule = some m ∧
      m.finished.map (fun p => p.2.status) = [.incompleteFrame, .bufferNullptr, .bufferTooSmall] ∧
      Bounded m := by
  refine ⟨(exec monitor (Monitor.init (fifo 2) false) oversizeSchedule).get (by decide),
    by simp, by decide, ?_⟩
  exact bounded_of_run (fifo 2) false oversizeSchedule _ (by simp)

end EasyLoRa.AssemblerBounds
