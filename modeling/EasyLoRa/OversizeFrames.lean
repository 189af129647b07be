import Mathlib.Data.List.Forall2
import EasyLoRa.FrameWaiterSteps

namespace EasyLoRa.OversizeFrames

open EasyLoRa.ByteQueue
open EasyLoRa.DelimitedFrames
open EasyLoRa.FrameWaiterModel
open EasyLoRa.FrameWaiterOutcomes
open EasyLoRa.FrameWaiterSteps
open EasyLoRa.TransitionSystem

variable {N : Nat} {Q : Ringbuffer N}

/-- What the consumer was told about frames: a payload, or that a frame was too long. -/
def answers (returned : List ReadResult) : List (Option (List UInt8)) :=
  returned.filterMap fun r =>
    match r.status with
    | .ok => some (some r.payload)
    | .bufferTooSmall => some none
    | _ => none

def Answers (answer : Option (List UInt8)) (f : List UInt8) : Prop :=
  answer = none ∨ answer = some f

/-- The answers belong one by one to the first frames of the stream, in order. So a
payload is a whole frame, and a frame that was too long is in no payload and is
reported once. -/
def AnsweredOnce (s : StepState Q) : Prop :=
  ∃ answered, answered <+: frames packetDelimiter s.stream ∧
    List.Forall₂ Answers (answers s.returned) answered

/-- No ring insert fails. -/
def InsertsFit (s : StepState Q) : Action → Prop
  | .produce => s.feeding.map Prod.snd = some .inserting → s.waiter.ring.length < N
  | _ => True

def droppingOversize : ReadPc → Bool
  | .dropping _ status => status = .bufferTooSmall
  | _ => false

/-- The loop that drops the rest of a frame that is too long does not run the ring empty. -/
def DropsWhole (s : StepState Q) : Action → Prop
  | .consume => s.reading.any droppingOversize = true → s.waiter.ring ≠ []
  | _ => True

instance (s : StepState Q) (a : Action) : Decidable (InsertsFit s a) := by
  induction a using FrameWaiterSteps.Action.casesOn <;> dsimp only [InsertsFit] <;> infer_instance

instance (s : StepState Q) (a : Action) : Decidable (DropsWhole s a) := by
  induction a using FrameWaiterSteps.Action.casesOn <;> dsimp only [DropsWhole] <;> infer_instance

@[simp] theorem answers_nil : answers [] = [] := rfl

theorem answers_concat_ok (returned : List ReadResult) (f out : List UInt8) :
    answers (returned ++ [⟨.ok, f.length, some (copyOut f out)⟩]) =
      answers returned ++ [some f] := by
  simp [answers, payload_delivered]

theorem answers_concat_bufferTooSmall (returned : List ReadResult) (out : List UInt8) :
    answers (returned ++ [returnEmpty .bufferTooSmall out]) = answers returned ++ [none] := by
  simp [answers, returnEmpty]

theorem answers_concat_other (returned : List ReadResult) {r : ReadResult}
    (hok : r.status ≠ .ok) (hsmall : r.status ≠ .bufferTooSmall) :
    answers (returned ++ [r]) = answers returned := by
  cases hstatus : r.status <;> simp_all [answers]

/-- The bytes of the stream that belong to no answered frame: pending or in the ring,
or removed from it by the loop that drops the rest of a frame. -/
def Remaining (s : StepState Q) (rest : List UInt8) : Prop :=
  match s.reading with
  | some (.dropping _ status) =>
      status = .bufferTooSmall ∧
        ∃ lost, packetDelimiter ∉ lost ∧ rest = lost ++ s.waiter.ring
  | _ => packetDelimiter ∉ s.waiter.pending ∧ rest = s.waiter.unread

/-- No call of `feed` is on its way to a flag. -/
def Inserting (s : StepState Q) : Prop :=
  ∀ p ∈ s.feeding, p.2 = .loading ∨ p.2 = .inserting ∨ p.2 = .calling

structure AnsweringEach (s : StepState Q) : Prop where
  overflow : s.waiter.overflow = false
  dropping : s.waiter.droppingFeedBytes = false
  producer : Inserting s
  split : ∃ answered rest, s.stream = encode packetDelimiter answered ++ rest ∧
    (∀ f ∈ answered, packetDelimiter ∉ f) ∧
    List.Forall₂ Answers (answers s.returned) answered ∧ Remaining s rest

theorem answeringEach_init (callback : Bool) : AnsweringEach (StepState.init Q callback) := by
  refine ⟨rfl, rfl, by simp [Inserting, StepState.init], [], [], rfl, by simp, .nil, ?_⟩
  simp [Remaining, StepState.init, FrameWaiter.unread]

theorem answeredOnce_of_answeringEach {s : StepState Q} (hs : AnsweringEach s) :
    AnsweredOnce s := by
  obtain ⟨answered, rest, hstream, hwhole, hanswers, -⟩ := hs.split
  refine ⟨answered, ?_, hanswers⟩
  rw [hstream, frames_encode_append hwhole]
  exact List.prefix_append _ _

/-- The byte in progress goes into the ring. -/
theorem remaining_concat {s t : StepState Q} {rest : List UInt8} {byte : UInt8}
    (h : Remaining s rest) (hreading : t.reading = s.reading)
    (hpending : t.waiter.pending = s.waiter.pending)
    (hring : t.waiter.ring = s.waiter.ring ++ [byte]) : Remaining t (rest ++ [byte]) := by
  unfold Remaining at h ⊢
  rw [hreading]
  split at h
  · obtain ⟨hstatus, lost, hlost, rfl⟩ := h
    exact ⟨hstatus, lost, hlost, by rw [hring, List.append_assoc]⟩
  · obtain ⟨hnone, rfl⟩ := h
    exact ⟨hpending ▸ hnone, by rw [FrameWaiter.unread, FrameWaiter.unread, hpending, hring,
      List.append_assoc]⟩

theorem answeringEach_produce {s t : StepState Q} (hs : AnsweringEach s)
    (hfit : InsertsFit s .produce) (hstep : step s .produce = some t) : AnsweringEach t := by
  obtain ⟨byte, pc, w, next, called, hfeeding, houtcome, rfl⟩ := produce_outcome hstep
  have hpc := hs.producer (byte, pc) hfeeding
  obtain ⟨answered, rest, hstream, hwhole, hanswers, hrest⟩ := hs.split
  cases houtcome with
  | foundDropping hdropping => simp [hs.dropping] at hdropping
  | foundEnd hdropping => simp [hs.dropping] at hdropping
  | foundClear hdropping =>
      refine ⟨hs.overflow, hs.dropping, ?_, answered, rest, ?_, hwhole, hanswers, hrest⟩
      · simp [Inserting]
      · simpa [StepState.stream, fate, hdropping] using hstream
  | cleared => simp at hpc
  | refused hring =>
      have hroom := hfit (by simp [hfeeding])
      omega
  | inserted buffer hring hcall =>
      refine ⟨hs.overflow, hs.dropping, by simp [Inserting], answered, rest ++ [byte], ?_,
        hwhole, hanswers, remaining_concat hrest rfl rfl hring⟩
      rw [← List.append_assoc, ← hstream]
      simp [StepState.stream, fate]
  | insertedEnd buffer hring hbyte hcallback =>
      refine ⟨hs.overflow, hs.dropping, by simp [Inserting], answered, rest ++ [byte], ?_,
        hwhole, hanswers, remaining_concat hrest rfl rfl hring⟩
      rw [← List.append_assoc, ← hstream]
      simp [StepState.stream, fate]
  | markedOverflow => simp at hpc
  | markedDropping => simp at hpc
  | called =>
      refine ⟨hs.overflow, hs.dropping, by simp [Inserting], answered, rest, ?_, hwhole,
        hanswers, hrest⟩
      simpa [StepState.stream, fate] using hstream

/-- The consumer removes the delimiter of the first remaining frame and answers it. -/
theorem answered_concat {stream rest f : List UInt8} {answered : List (List UInt8)}
    {told : List (Option (List UInt8))} {answer : Option (List UInt8)}
    (hstream : stream = encode packetDelimiter answered ++ (f ++ packetDelimiter :: rest))
    (hwhole : ∀ f ∈ answered, packetDelimiter ∉ f) (hf : packetDelimiter ∉ f)
    (hanswers : List.Forall₂ Answers told answered) (hanswer : Answers answer f) :
    stream = encode packetDelimiter (answered ++ [f]) ++ rest ∧
      (∀ g ∈ answered ++ [f], packetDelimiter ∉ g) ∧
      List.Forall₂ Answers (told ++ [answer]) (answered ++ [f]) := by
  refine ⟨?_, ?_, ?_⟩
  · rw [hstream, encode_append, encode_singleton]
    simp
  · intro g hg
    rcases List.mem_append.mp hg with hg | hg
    · exact hwhole g hg
    · obtain rfl := List.mem_singleton.mp hg
      exact hf
  · exact List.rel_append hanswers (.cons hanswer .nil)

theorem answeringEach_consume {s t : StepState Q} (hs : AnsweringEach s)
    (hdrops : DropsWhole s .consume) (hstep : step s .consume = some t) : AnsweringEach t := by
  obtain ⟨answered, rest, hstream, hwhole, hanswers, hrest⟩ := hs.split
  obtain ⟨pc, w, hreading, ⟨pc', houtcome, rfl⟩ | ⟨r, houtcome, rfl⟩⟩ := consume_outcome hstep
  all_goals simp only [Remaining, hreading] at hrest
  · cases houtcome with
    | ranEmpty out cap hring =>
        exact ⟨hs.overflow, hs.dropping, hs.producer, answered, rest, hstream, hwhole, hanswers,
          hrest⟩
    | assembled out cap byte buffer hbyte hring hsize =>
        refine ⟨hs.overflow, hs.dropping, hs.producer, answered, rest, hstream, hwhole, hanswers,
          ?_, ?_⟩
        · simpa using not_mem_concat hrest.1 hbyte
        · simp [hrest.2, FrameWaiter.unread, hring]
    | filled out cap byte buffer hbyte hring hsize =>
        refine ⟨hs.overflow, hs.dropping, hs.producer, answered, rest, hstream, hwhole, hanswers,
          rfl, s.waiter.pending ++ [byte], ?_, ?_⟩
        · simpa using not_mem_concat hrest.1 hbyte
        · simp [hrest.2, FrameWaiter.unread, hring]
    | overflowed out hoverflow => simp [hs.overflow] at hoverflow
    | droppedByte out status byte buffer hbyte hring =>
        obtain ⟨hstatus, lost, hlost, rfl⟩ := hrest
        refine ⟨hs.overflow, hs.dropping, hs.producer, answered, _, hstream, hwhole, hanswers,
          hstatus, lost ++ [byte], ?_, ?_⟩
        · simpa using not_mem_concat hlost hbyte
        · simp [hring]
  · cases houtcome with
    | rejected out cap buffer hring hcap =>
        have hfront : s.stream = encode packetDelimiter answered ++
            (s.waiter.pending ++ packetDelimiter :: Q.contents buffer) := by
          rw [hstream, hrest.2, FrameWaiter.unread, hring]
        obtain ⟨hstream, hwhole, hanswers⟩ := answered_concat hfront hwhole hrest.1 hanswers
          (Or.inl rfl)
        refine ⟨hs.overflow, hs.dropping, hs.producer, _, _, hstream, hwhole, ?_, ?_⟩
        · rwa [answers_concat_bufferTooSmall]
        · simp [Remaining, FrameWaiter.unread]
    | delivered out cap buffer hring hcap =>
        have hfront : s.stream = encode packetDelimiter answered ++
            (s.waiter.pending ++ packetDelimiter :: Q.contents buffer) := by
          rw [hstream, hrest.2, FrameWaiter.unread, hring]
        obtain ⟨hstream, hwhole, hanswers⟩ := answered_concat hfront hwhole hrest.1 hanswers
          (Or.inr rfl)
        refine ⟨hs.overflow, hs.dropping, hs.producer, _, _, hstream, hwhole, ?_, ?_⟩
        · rwa [answers_concat_ok]
        · simp [Remaining, FrameWaiter.unread]
    | unfinished out hoverflow =>
        refine ⟨hs.overflow, hs.dropping, hs.producer, answered, rest, hstream, hwhole, ?_, hrest⟩
        rwa [answers_concat_other _ (by simp [returnEmpty]) (by simp [returnEmpty])]
    | droppedAll out status hring =>
        exact absurd hring (hdrops (by simp [hreading, droppingOversize, hrest.1]))
    | droppedFrame out status buffer hring =>
        obtain ⟨rfl, lost, hlost, rfl⟩ := hrest
        rw [hring] at hstream
        obtain ⟨hstream, hwhole, hanswers⟩ := answered_concat hstream hwhole hlost hanswers
          (Or.inl rfl)
        refine ⟨hs.overflow, hs.dropping, hs.producer, _, _, hstream, hwhole, ?_, ?_⟩
        · rwa [answers_concat_bufferTooSmall]
        · simp [Remaining, FrameWaiter.unread]

theorem answeringEach_read {s t : StepState Q} {outputBuffer : Option (List UInt8)} {cap : Nat}
    (hs : AnsweringEach s) (hstep : step s (.read outputBuffer cap) = some t) :
    AnsweringEach t := by
  obtain ⟨answered, rest, hstream, hwhole, hanswers, hrest⟩ := hs.split
  obtain ⟨hidle, ⟨out, -, rfl⟩ | ⟨-, rfl⟩⟩ := read_outcome_of_step hstep
  · simp only [Remaining, hidle] at hrest
    exact ⟨hs.overflow, hs.dropping, hs.producer, answered, rest, hstream, hwhole, hanswers, hrest⟩
  · refine ⟨hs.overflow, hs.dropping, hs.producer, answered, rest, hstream, hwhole, ?_, hrest⟩
    rwa [answers_concat_other _ (by simp) (by simp)]

theorem answeringEach_step {s t : StepState Q} {a : Action} (hs : AnsweringEach s)
    (hcondition : InsertsFit s a ∧ DropsWhole s a) (hstep : step s a = some t) :
    AnsweringEach t := by
  cases a with
  | feed byte =>
      obtain ⟨-, rfl⟩ := feed_outcome_of_step hstep
      exact { hs with producer := by simp [Inserting] }
  | produce => exact answeringEach_produce hs hcondition.1 hstep
  | read outputBuffer cap => exact answeringEach_read hs hstep
  | consume => exact answeringEach_consume hs hcondition.2 hstep

/-- While no insert fails and no drop loop runs the ring empty, every frame the
consumer has gone past was answered once, by its payload or by `BufferTooSmall`. -/
theorem answeredOnce_of_dropsWhole (Q : Ringbuffer N) (callback : Bool)
    (schedule : List Action) (s : StepState Q)
    (hfit : Meets step InsertsFit (StepState.init Q callback) schedule)
    (hdrops : Meets step DropsWhole (StepState.init Q callback) schedule)
    (hexec : exec step (StepState.init Q callback) schedule = some s) : AnsweredOnce s := by
  apply answeredOnce_of_answeringEach
  exact exec_invariant (I := AnsweringEach)
    (fun _ _ _ hs hcondition hstep => answeringEach_step hs hcondition hstep)
    (answeringEach_init callback) (meets_and hfit hdrops) hexec

theorem mem_of_forall₂_answers {told : List (Option (List UInt8))}
    {answered : List (List UInt8)} (h : List.Forall₂ Answers told answered) {f : List UInt8}
    (hf : some f ∈ told) : f ∈ answered := by
  induction h with
  | nil => simp at hf
  | cons hanswer _ ih =>
      rcases List.mem_cons.mp hf with rfl | hf
      · rcases hanswer with h | h
        · cases h
        · exact Option.some.inj h ▸ List.mem_cons_self
      · exact List.mem_cons_of_mem _ (ih hf)

/-- Where every frame is answered once, a payload is a whole frame of the stream. -/
theorem mem_frames_of_answeredOnce {s : StepState Q} (hs : AnsweredOnce s) {f : List UInt8}
    (hf : some f ∈ answers s.returned) : f ∈ frames packetDelimiter s.stream := by
  obtain ⟨answered, hprefix, hanswers⟩ := hs
  exact hprefix.subset (mem_of_forall₂_answers hanswers hf)

/-- Bytes `1 2 3 4 0` through a ring of two bytes. The third byte is removed and found
too much while the rest of the frame has not been fed. -/
def cutSchedule : List Action :=
  [.feed 1, .produce, .produce, .feed 2, .produce, .produce, .read (some []) 4, .consume,
    .consume, .feed 3, .produce, .produce, .consume, .consume, .feed 4, .produce, .produce,
    .feed 0, .produce, .produce, .read (some []) 4, .consume, .consume]

/-- The end of a frame for which `BufferTooSmall` was returned is delivered. -/
theorem end_of_frame_delivered :
    ∃ s, exec step (StepState.init (fifo 2) false) cutSchedule = some s ∧
      Meets step InsertsFit (StepState.init (fifo 2) false) cutSchedule ∧
      frames packetDelimiter s.stream = [[1, 2, 3, 4]] ∧
      answers s.returned = [none, some [4]] ∧ ¬AnsweredOnce s := by
  have hrun : ∃ s, exec step (StepState.init (fifo 2) false) cutSchedule = some s ∧
      frames packetDelimiter s.stream = [[1, 2, 3, 4]] ∧ answers s.returned = [none, some [4]] :=
    ⟨(exec step (StepState.init (fifo 2) false) cutSchedule).get (by decide), by simp, by decide,
      by decide⟩
  obtain ⟨s, hexec, hframes, hanswers⟩ := hrun
  refine ⟨s, hexec, by decide, hframes, hanswers, ?_⟩
  intro honce
  have hmem : [4] ∈ frames packetDelimiter s.stream :=
    mem_frames_of_answeredOnce honce (by simp [hanswers])
  rw [hframes] at hmem
  exact absurd hmem (by decide)

/-- Bytes `1 2 3 0 5 0`: the delimiter of the long frame is in the ring before its
third byte is removed. -/
def droppedSchedule : List Action :=
  [.feed 1, .produce, .produce, .feed 2, .produce, .produce, .read (some []) 4, .consume,
    .consume, .feed 3, .produce, .produce, .feed 0, .produce, .produce, .consume, .consume,
    .feed 5, .produce, .produce, .feed 0, .produce, .produce, .read (some []) 4, .consume,
    .consume]

theorem answeredOnce_droppedSchedule :
    ∃ s, exec step (StepState.init (fifo 2) false) droppedSchedule = some s ∧
      answers s.returned = [none, some [5]] ∧ AnsweredOnce s := by
  refine ⟨(exec step (StepState.init (fifo 2) false) droppedSchedule).get (by decide), by simp,
    by decide, ?_⟩
  exact answeredOnce_of_dropsWhole (fifo 2) false droppedSchedule _ (by decide) (by decide)
    (by simp)

end EasyLoRa.OversizeFrames
