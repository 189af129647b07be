import EasyLoRa.AssemblerBounds
import EasyLoRa.FrameMailbox
import EasyLoRa.OversizeFrames

namespace EasyLoRa.Linearizability

open EasyLoRa.ByteQueue
open EasyLoRa.DelimitedFrames
open EasyLoRa.FrameMailbox
open EasyLoRa.FrameWaiterModel
open EasyLoRa.FrameWaiterOutcomes
open EasyLoRa.FrameWaiterSteps
open EasyLoRa.AssemblerBounds
open EasyLoRa.OversizeFrames
open EasyLoRa.TransitionSystem

variable {N : Nat} {Q : Ringbuffer N}

/-- The next access decides the answer of the call: it finds the ring empty, or removes
a delimiter. -/
def decides (w : FrameWaiter Q) : ReadPc → Bool
  | .exchanging _ => false
  | _ => w.ring.head?.all fun byte => byte = packetDelimiter

/-- The call that takes effect in the step. `feed` does so when it inserts its byte. -/
def effect (m : Monitor Q) : Action → List (Call UInt8)
  | .produce =>
      match m.state.feeding with
      | some (byte, .inserting) => [.put byte]
      | _ => []
  | .consume =>
      match m.state.reading, m.current with
      | some pc, some call =>
          if decides m.state.waiter pc then [.take call.bufferCapacity] else []
      | _, _ => []
  | _ => []

/-- What a result says about the frames; a null output pointer says nothing. -/
def answerOf (r : ReadResult) : Option (Answer UInt8) :=
  match r.status with
  | .ok => some (.frame r.payload)
  | .bufferTooSmall => some .tooLong
  | .incompleteFrame => some .incomplete
  | _ => none

/-- The answer of a call that has found the ring empty and still looks at the overflow
flag. -/
def inFlight : Option ReadPc → List (Answer UInt8)
  | some (.exchanging _) => [.incomplete]
  | _ => []

@[simp] theorem inFlight_none : inFlight none = [] := rfl

/-- The mailbox has received the same bytes and given the same answers, that of the call
in progress included once it has taken effect. -/
structure Linearized (s : StepState Q) (a : Mailbox UInt8) : Prop where
  received : a.received = s.stream
  answers : a.answers = s.returned.filterMap answerOf ++ inFlight s.reading
  answered : ∀ r ∈ s.returned, r.status = .bufferNullptr ∨ (answerOf r).isSome = true

/-- The bytes the mailbox still holds. In the loop that drops a frame it holds those the
loop has removed already, more than `N`. -/
def Holds (s : StepState Q) (unread : List UInt8) : Prop :=
  match s.reading with
  | some (.dropping _ status) =>
      status = .bufferTooSmall ∧ ∃ lost, packetDelimiter ∉ lost ∧ N < lost.length ∧
        unread = lost ++ s.waiter.ring
  | _ => unread = s.waiter.unread

/-- The simulation relation between the waiter and the mailbox. -/
structure Matches (s : StepState Q) (a : Mailbox UInt8) : Prop where
  linearized : Linearized s a
  overflow : s.waiter.overflow = false
  dropping : s.waiter.droppingFeedBytes = false
  producer : Inserting s
  holds : Holds s a.unread

theorem matches_init (callback : Bool) :
    Matches (StepState.init Q callback) (Mailbox.empty : Mailbox UInt8) := by
  refine ⟨⟨rfl, rfl, by simp [StepState.init]⟩, rfl, rfl, by simp [Inserting, StepState.init], ?_⟩
  simp [Holds, StepState.init, Mailbox.empty, FrameWaiter.unread]

theorem holds_concat {s t : StepState Q} {unread : List UInt8} {byte : UInt8}
    (h : Holds s unread) (hreading : t.reading = s.reading)
    (hpending : t.waiter.pending = s.waiter.pending)
    (hring : t.waiter.ring = s.waiter.ring ++ [byte]) : Holds t (unread ++ [byte]) := by
  unfold Holds at h ⊢
  rw [hreading]
  split at h
  · obtain ⟨hstatus, lost, hlost, hlength, rfl⟩ := h
    exact ⟨hstatus, lost, hlost, hlength, by rw [hring, List.append_assoc]⟩
  · rw [h, FrameWaiter.unread, FrameWaiter.unread, hpending, hring, List.append_assoc]

/-- A byte goes into the ring. -/
theorem matches_put {s : StepState Q} {a : Mailbox UInt8} (h : Matches s a) {byte : UInt8}
    {buffer : Q.Buffer} {taken : Bool} (hring : Q.contents buffer = s.waiter.ring ++ [byte])
    {feeding : Option (UInt8 × FeedPc)} (hfeeding : ∀ p ∈ feeding, p.2 = .calling)
    (finished : List UInt8) (callbacks : Nat) :
    Matches { s with
      waiter := { s.waiter with buffer := buffer }
      feeding := feeding
      fed := s.fed ++ [(byte, taken)]
      finished := finished
      callbacks := callbacks }
      { a with received := a.received ++ [byte], unread := a.unread ++ [byte] } := by
  refine ⟨⟨?_, h.linearized.answers, h.linearized.answered⟩, h.overflow, h.dropping, ?_, ?_⟩
  · simp [StepState.stream, h.linearized.received]
  · exact fun p hp => Or.inr (Or.inr (hfeeding p hp))
  · exact holds_concat h.holds rfl rfl hring

theorem matches_produce {m : Monitor Q} {a : Mailbox UInt8} {t : StepState Q}
    (h : Matches m.state a) (hfit : InsertsFit m.state .produce)
    (hstep : step m.state .produce = some t) :
    ∃ b, exec (serve (takeFrame packetDelimiter N)) a (effect m .produce) = some b ∧
      Matches t b := by
  obtain ⟨byte, pc, w, next, called, hfeeding, houtcome, rfl⟩ := produce_outcome hstep
  have hpc := h.producer (byte, pc) hfeeding
  cases houtcome with
  | foundDropping hdropping => simp [h.dropping] at hdropping
  | foundEnd hdropping => simp [h.dropping] at hdropping
  | foundClear hdropping =>
      refine ⟨a, by simp [effect, hfeeding], ?_⟩
      simp only [fate, hdropping, Bool.false_eq_true, reduceIte, List.append_nil]
      exact ⟨⟨h.linearized.received, h.linearized.answers, h.linearized.answered⟩, h.overflow,
        h.dropping, by simp [Inserting], h.holds⟩
  | cleared => simp at hpc
  | refused hring =>
      have hroom := hfit (by simp [hfeeding])
      omega
  | inserted buffer hring hcall =>
      exact ⟨_, by simp [effect, hfeeding, exec, serve], matches_put h hring (by simp) _ _⟩
  | insertedEnd buffer hring hbyte hcallback =>
      exact ⟨_, by simp [effect, hfeeding, exec, serve], matches_put h hring (by simp) _ _⟩
  | markedOverflow => simp at hpc
  | markedDropping => simp at hpc
  | called =>
      refine ⟨a, by simp [effect, hfeeding], ?_⟩
      simp only [fate, List.append_nil]
      exact ⟨⟨h.linearized.received, h.linearized.answers, h.linearized.answered⟩, h.overflow,
        h.dropping, by simp [Inserting], h.holds⟩

theorem answered_concat {returned : List ReadResult} {r : ReadResult} {answer : Answer UInt8}
    (hanswered : ∀ r ∈ returned, r.status = .bufferNullptr ∨ (answerOf r).isSome = true)
    (hanswer : answerOf r = some answer) :
    ∀ r' ∈ returned ++ [r], r'.status = .bufferNullptr ∨ (answerOf r').isSome = true := by
  intro r' hr'
  rcases List.mem_append.mp hr' with hr' | hr'
  · exact hanswered r' hr'
  · obtain rfl := List.mem_singleton.mp hr'
    exact Or.inr (by simp [hanswer])

/-- The call takes effect in the step in which it returns. -/
theorem linearized_return {s : StepState Q} {a : Mailbox UInt8} {r : ReadResult}
    {answer : Answer UInt8} (h : Linearized s a) (hidle : inFlight s.reading = [])
    (hanswer : answerOf r = some answer) (w : FrameWaiter Q) (unread : List UInt8) :
    Linearized { s with waiter := w, reading := none, returned := s.returned ++ [r] }
      { a with unread := unread, answers := a.answers ++ [answer] } := by
  refine ⟨h.received, ?_, answered_concat h.answered hanswer⟩
  simp [h.answers, hidle, hanswer]

theorem matches_progress {m : Monitor Q} {a : Mailbox UInt8} {pc pc' : ReadPc}
    {w : FrameWaiter Q} (hm : Monitored m) (h : Matches m.state a)
    (hreading : m.state.reading = some pc)
    (hread : ReadStepOutcome m.state.waiter pc (w, .inl pc')) :
    ∃ b, exec (serve (takeFrame packetDelimiter N)) a (effect m .consume) = some b ∧
      Matches { m.state with waiter := w, reading := some pc' } b := by
  obtain ⟨call, hcurrent, hfollows⟩ := hm.follows pc hreading
  obtain ⟨hreceived, hanswers, hanswered⟩ := h.linearized
  have hholds := h.holds
  simp only [Holds, hreading] at hholds
  cases hread with
  | ranEmpty out cap hring =>
      have hunread : a.unread = m.state.waiter.pending := by
        simpa [FrameWaiter.unread, hring] using hholds
      have htake : takeFrame packetDelimiter N call.bufferCapacity a.unread =
          (.incomplete, a.unread) :=
        takeFrame_of_not_mem (hunread ▸ hm.pending) (hunread ▸ m.state.waiter.length_pending_le) _
      refine ⟨{ a with answers := a.answers ++ [.incomplete] }, ?_, ⟨hreceived, ?_, hanswered⟩,
        h.overflow, h.dropping, h.producer, hholds⟩
      · simp [effect, hreading, hcurrent, decides, hring, exec, serve, htake]
      · simp [hanswers, hreading, inFlight]
  | assembled out cap byte buffer hbyte hring hsize =>
      refine ⟨a, ?_, ⟨hreceived, ?_, hanswered⟩, h.overflow, h.dropping, h.producer, ?_⟩
      · simp [effect, hreading, hcurrent, decides, hring, hbyte]
      · simpa [hreading, inFlight] using hanswers
      · simpa [Holds, FrameWaiter.unread, hring] using hholds
  | filled out cap byte buffer hbyte hring hsize =>
      refine ⟨a, ?_, ⟨hreceived, ?_, hanswered⟩, h.overflow, h.dropping, h.producer,
        rfl, m.state.waiter.pending ++ [byte], not_mem_concat hm.pending hbyte, ?_, ?_⟩
      · simp [effect, hreading, hcurrent, decides, hring, hbyte]
      · simpa [hreading, inFlight] using hanswers
      · simp [hsize]
      · simpa [FrameWaiter.unread, hring] using hholds
  | overflowed out hoverflow => simp [h.overflow] at hoverflow
  | droppedByte out status byte buffer hbyte hring =>
      obtain ⟨hstatus, lost, hlost, hlength, hunread⟩ := hholds
      refine ⟨a, ?_, ⟨hreceived, ?_, hanswered⟩, h.overflow, h.dropping, h.producer,
        hstatus, lost ++ [byte], not_mem_concat hlost hbyte, ?_, ?_⟩
      · simp [effect, hreading, hcurrent, decides, hring, hbyte]
      · simpa [hreading, inFlight] using hanswers
      · rw [List.length_append]
        omega
      · simpa [hring] using hunread

theorem matches_returned {m : Monitor Q} {a : Mailbox UInt8} {pc : ReadPc} {r : ReadResult}
    {w : FrameWaiter Q} (hm : Monitored m) (h : Matches m.state a)
    (hreading : m.state.reading = some pc)
    (hread : ReadStepOutcome m.state.waiter pc (w, .inr r)) :
    ∃ b, exec (serve (takeFrame packetDelimiter N)) a (effect m .consume) = some b ∧
      Matches { m.state with
        waiter := w, reading := none, returned := m.state.returned ++ [r] } b := by
  obtain ⟨call, hcurrent, hfollows⟩ := hm.follows pc hreading
  have hholds := h.holds
  simp only [Holds, hreading] at hholds
  cases hread with
  | rejected out cap buffer hring hcap =>
      obtain rfl : call = ⟨some out, cap, 0⟩ := hfollows
      have htake : takeFrame packetDelimiter N cap a.unread =
          (.tooLong, Q.contents buffer) := by
        rw [hholds, FrameWaiter.unread, hring,
          takeFrame_delimited hm.pending m.state.waiter.length_pending_le,
          if_neg (Nat.not_le.mpr hcap)]
      refine ⟨_, ?_, linearized_return h.linearized (by simp [hreading, inFlight]) rfl _
        (Q.contents buffer), h.overflow, h.dropping, h.producer, ?_⟩
      · simp [effect, hreading, hcurrent, decides, hring, exec, serve, htake]
      · simp [Holds, FrameWaiter.unread]
  | delivered out cap buffer hring hcap =>
      obtain rfl : call = ⟨some out, cap, 0⟩ := hfollows
      have htake : takeFrame packetDelimiter N cap a.unread =
          (.frame m.state.waiter.pending, Q.contents buffer) := by
        rw [hholds, FrameWaiter.unread, hring,
          takeFrame_delimited hm.pending m.state.waiter.length_pending_le, if_pos hcap]
      have hanswer : answerOf ⟨.ok, m.state.waiter.pending.length,
          some (copyOut m.state.waiter.pending out)⟩ = some (.frame m.state.waiter.pending) := by
        simp [answerOf, payload_delivered]
      refine ⟨_, ?_, linearized_return h.linearized (by simp [hreading, inFlight]) hanswer _
        (Q.contents buffer), h.overflow, h.dropping, h.producer, ?_⟩
      · simp [effect, hreading, hcurrent, decides, hring, exec, serve, htake]
      · simp [Holds, FrameWaiter.unread]
  | unfinished out hoverflow =>
      obtain ⟨hreceived, hanswers, hanswered⟩ := h.linearized
      refine ⟨a, by simp [effect, hreading, hcurrent, decides],
        ⟨hreceived, ?_, answered_concat hanswered rfl⟩, h.overflow, h.dropping, h.producer, hholds⟩
      simpa [hreading, inFlight, answerOf, returnEmpty] using hanswers
  | droppedAll out status hring =>
      obtain ⟨rfl, lost, hlost, hlength, hunread⟩ := hholds
      have htake : takeFrame packetDelimiter N call.bufferCapacity a.unread = (.tooLong, []) := by
        rw [hunread, hring, takeFrame_of_long hlost hlength]
        rfl
      refine ⟨_, ?_, linearized_return h.linearized (by simp [hreading, inFlight]) rfl _ [],
        h.overflow, h.dropping, h.producer, by simp [Holds, FrameWaiter.unread, hring]⟩
      simp [effect, hreading, hcurrent, decides, hring, exec, serve, htake]
  | droppedFrame out status buffer hring =>
      obtain ⟨rfl, lost, hlost, hlength, hunread⟩ := hholds
      have htake : takeFrame packetDelimiter N call.bufferCapacity a.unread =
          (.tooLong, Q.contents buffer) := by
        rw [hunread, hring, takeFrame_of_long hlost hlength]
        simp [skipFrame]
      refine ⟨_, ?_, linearized_return h.linearized (by simp [hreading, inFlight]) rfl _
        (Q.contents buffer), h.overflow, h.dropping, h.producer, ?_⟩
      · simp [effect, hreading, hcurrent, decides, hring, exec, serve, htake]
      · simp [Holds, FrameWaiter.unread]

theorem matches_read {m : Monitor Q} {a : Mailbox UInt8} {t : StepState Q}
    {outputBuffer : Option (List UInt8)} {cap : Nat} (h : Matches m.state a)
    (hstep : step m.state (.read outputBuffer cap) = some t) : Matches t a := by
  obtain ⟨hidle, ⟨out, -, rfl⟩ | ⟨-, rfl⟩⟩ := read_outcome_of_step hstep
  · refine ⟨⟨h.linearized.received, ?_, h.linearized.answered⟩, h.overflow, h.dropping,
      h.producer, ?_⟩
    · simpa [hidle, inFlight] using h.linearized.answers
    · simpa [Holds, hidle] using h.holds
  · refine ⟨⟨h.linearized.received, ?_, ?_⟩, h.overflow, h.dropping, h.producer, h.holds⟩
    · have hsilent : answerOf (⟨.bufferNullptr, 0, none⟩ : ReadResult) = none := rfl
      simpa [hsilent] using h.linearized.answers
    · intro r hr
      rcases List.mem_append.mp hr with hr | hr
      · exact h.linearized.answered r hr
      · obtain rfl := List.mem_singleton.mp hr
        exact Or.inl rfl

theorem matches_step {m n : Monitor Q} {a : Mailbox UInt8} {act : Action}
    (h : Monitored m ∧ Matches m.state a) (hfit : InsertsFit m.state act)
    (hstep : monitor m act = some n) :
    ∃ b, exec (serve (takeFrame packetDelimiter N)) a (effect m act) = some b ∧
      Monitored n ∧ Matches n.state b := by
  obtain ⟨hm, h⟩ := h
  have hn := monitored_step hm hstep
  obtain ⟨t, ht, rfl⟩ := Option.map_eq_some_iff.mp hstep
  have hmatch : ∃ b, exec (serve (takeFrame packetDelimiter N)) a (effect m act) = some b ∧
      Matches t b := by
    cases act with
    | feed byte =>
        obtain ⟨-, rfl⟩ := feed_outcome_of_step ht
        exact ⟨a, rfl, ⟨h.linearized.received, h.linearized.answers, h.linearized.answered⟩,
          h.overflow, h.dropping, by simp [Inserting], h.holds⟩
    | produce => exact matches_produce h hfit ht
    | read outputBuffer cap => exact ⟨a, rfl, matches_read h ht⟩
    | consume =>
        obtain ⟨pc, w, hreading, ⟨pc', hread, rfl⟩ | ⟨r, hread, rfl⟩⟩ := consume_outcome ht
        · exact matches_progress hm h hreading hread
        · exact matches_returned hm h hreading hread
  obtain ⟨b, hexec, hb⟩ := hmatch
  exact ⟨b, hexec, hn, hb⟩

/-- Linearizability while no insert fails. The calls, each at the access that decides it,
are a run of the atomic mailbox with the same received bytes and the same answers. As
this holds of every beginning of the run, too, the order of the calls in the mailbox is
one in which they could have followed each other in time. The mailbox throws away what it
finds of a frame longer than `N` bytes; while there is no such frame in the stream, it is
the one that takes whole frames only. -/
theorem linearizable (Q : Ringbuffer N) (callback : Bool) (schedule : List Action)
    (m : Monitor Q)
    (hfit : Meets monitor (fun m => InsertsFit m.state) (Monitor.init Q callback) schedule)
    (hexec : exec monitor (Monitor.init Q callback) schedule = some m) :
    ∃ a, exec (serve (takeFrame packetDelimiter N)) Mailbox.empty
        (trace monitor effect (Monitor.init Q callback) schedule) = some a ∧
      Linearized m.state a ∧
      (Short packetDelimiter N m.state.stream →
        exec (serve (takeWhole packetDelimiter)) Mailbox.empty
          (trace monitor effect (Monitor.init Q callback) schedule) = some a) := by
  obtain ⟨a, htrace, -, ha⟩ := exec_simulation
    (R := fun (m : Monitor Q) a => Monitored m ∧ Matches m.state a)
    (fun _ _ _ _ h hfit hstep => matches_step h hfit hstep)
    ⟨monitored_init callback, matches_init callback⟩ hfit hexec
  refine ⟨a, htrace, ha.linearized, fun hshort => ?_⟩
  rw [← ha.linearized.received] at hshort
  exact (exec_of_short hshort htrace).1

/-- The first call of `tryReadFrame` finds the ring empty before the bytes `7 0` arrive and
returns after them. -/
def overlappingSchedule : List Action :=
  [.read (some []) 2, .feed 7, .consume, .produce, .produce, .feed 0, .produce, .produce,
    .consume, .read (some []) 2, .consume, .consume]

theorem linearized_overlappingSchedule :
    ∃ m a, exec monitor (Monitor.init (fifo 2) false) overlappingSchedule = some m ∧
      trace monitor effect (Monitor.init (fifo 2) false) overlappingSchedule =
        [.take 2, .put 7, .put 0, .take 2] ∧
      exec (serve (takeWhole packetDelimiter)) Mailbox.empty
        [.take 2, .put 7, .put 0, .take 2] = some a ∧
      a.answers = [.incomplete, .frame [7]] ∧ Linearized m.state a := by
  have hrun : ∃ m, exec monitor (Monitor.init (fifo 2) false) overlappingSchedule = some m ∧
      trace monitor effect (Monitor.init (fifo 2) false) overlappingSchedule =
        [.take 2, .put 7, .put 0, .take 2] ∧ Short packetDelimiter 2 m.state.stream :=
    ⟨(exec monitor (Monitor.init (fifo 2) false) overlappingSchedule).get (by decide), by simp,
      by decide, by decide⟩
  obtain ⟨m, hexec, heffects, hshort⟩ := hrun
  obtain ⟨a, -, ha, hwhole⟩ :=
    linearizable (fifo 2) false overlappingSchedule m (by decide) hexec
  have htrace := hwhole hshort
  rw [heffects] at htrace
  refine ⟨m, a, hexec, heffects, htrace, ?_, ha⟩
  obtain rfl := Option.some.inj htrace
  decide

end EasyLoRa.Linearizability
