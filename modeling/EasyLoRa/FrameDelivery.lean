import EasyLoRa.FrameWaiterSteps

namespace EasyLoRa.FrameDelivery

open EasyLoRa.ByteQueue
open EasyLoRa.DelimitedFrames
open EasyLoRa.FrameWaiterModel
open EasyLoRa.FrameWaiterOutcomes
open EasyLoRa.FrameWaiterCalls
open EasyLoRa.FrameWaiterSteps
open EasyLoRa.TransitionSystem

variable {N : Nat} {Q : Ringbuffer N}

/-- The frames of a stream, the unfinished last one included, fit a buffer of
`N` bytes, and none is longer than `longest`. -/
def Fits (N longest : Nat) (stream : List UInt8) : Prop :=
  (∀ f ∈ frames packetDelimiter stream, f.length ≤ N ∧ f.length ≤ longest) ∧
    (tail packetDelimiter stream).length ≤ N

/-- No insert fails, and every read is given an output buffer with room for
`longest` bytes. -/
def Undisturbed (longest : Nat) (s : StepState Q) : Action → Prop
  | .produce => s.feeding.map Prod.snd = some .inserting → s.waiter.ring.length < N
  | .read outputBuffer bufferCapacity => outputBuffer.isSome ∧ longest ≤ bufferCapacity
  | _ => True

instance (N longest : Nat) (stream : List UInt8) : Decidable (Fits N longest stream) :=
  inferInstanceAs (Decidable (_ ∧ _))

instance (longest : Nat) (s : StepState Q) (a : Action) : Decidable (Undisturbed longest s a) := by
  induction a using FrameWaiterSteps.Action.casesOn <;> dsimp only [Undisturbed] <;> infer_instance

theorem fits_of_append {longest : Nat} {xs ys : List UInt8}
    (h : Fits N longest (xs ++ ys)) : Fits N longest xs := by
  obtain ⟨hframes, htail⟩ := h
  constructor
  · exact fun f hf => hframes f ((frames_prefix_append _ xs ys).subset hf)
  · refine (forall_frames_of_append (P := fun f => f.length ≤ N) ?_
      ⟨fun f hf => (hframes f hf).1, htail⟩).2
    intro f g hlength
    rw [List.length_append] at hlength
    omega

/-- The producer's side: where a call in progress can stand, and which bytes and
callbacks are accounted for there. -/
def ProducerAgrees (s : StepState Q) : Prop :=
  match s.feeding with
  | none => s.stream = s.finished
  | some (_, .loading) => s.stream = s.finished
  | some (_, .inserting) => s.stream = s.finished
  | some (byte, .calling) => s.stream = s.finished ++ [byte] ∧ byte = packetDelimiter
  | _ => False

def ConsumerAgrees (longest : Nat) (s : StepState Q) : Prop :=
  match s.reading with
  | none => True
  | some (.removing _ cap) => longest ≤ cap
  | some (.exchanging _) => True
  | some (.dropping _ _) => False

/-- The simulation relation: the stream is split between the payloads already
delivered, the pending frame and the ring. -/
structure Delivering (longest : Nat) (s : StepState Q) : Prop where
  overflow : s.waiter.overflow = false
  dropping : s.waiter.droppingFeedBytes = false
  callback : s.waiter.callback = true
  pending : packetDelimiter ∉ s.waiter.pending
  split : encode packetDelimiter (delivered s.returned) ++ s.waiter.unread = s.stream
  whole : ∀ f ∈ delivered s.returned, packetDelimiter ∉ f
  producer : ProducerAgrees s
  consumer : ConsumerAgrees longest s
  callbacks : s.callbacks = s.finished.count packetDelimiter
  statuses : ∀ r ∈ s.returned, r.status = .ok ∨ r.status = .incompleteFrame

theorem delivering_init (longest : Nat) : Delivering longest (StepState.init Q true) := by
  constructor <;>
    simp [StepState.init, StepState.stream, FrameWaiter.unread, ProducerAgrees,
      ConsumerAgrees]

theorem stream_prefix_started {longest : Nat} {s : StepState Q} (hs : Delivering longest s) :
    s.stream <+: s.started := by
  have hproducer := hs.producer
  unfold ProducerAgrees at hproducer
  unfold StepState.started
  split at hproducer
  · next h => simp [h, hproducer]
  · next h => simp [h, hproducer]
  · next h => simp [h, hproducer]
  · next h => simp [h, hproducer.1]
  · exact hproducer.elim

theorem frames_stream {longest : Nat} {s : StepState Q} (hs : Delivering longest s) :
    frames packetDelimiter s.stream =
      delivered s.returned ++ frames packetDelimiter s.waiter.unread := by
  rw [← hs.split, frames_encode_append hs.whole]

theorem tail_stream {longest : Nat} {s : StepState Q} (hs : Delivering longest s) :
    tail packetDelimiter s.stream = tail packetDelimiter s.waiter.unread := by
  rw [← hs.split, tail_encode_append]

theorem split_concat {longest : Nat} {s : StepState Q} (hs : Delivering longest s)
    {byte : UInt8} {taken : Bool} {buffer : Q.Buffer}
    (hring : Q.contents buffer = s.waiter.ring ++ [byte]) :
    encode packetDelimiter (delivered s.returned) ++
        FrameWaiter.unread { s.waiter with buffer := buffer } =
      (s.fed ++ [(byte, taken)]).map Prod.fst := by
  have hsplit := hs.split
  rw [FrameWaiter.unread] at hsplit
  rw [FrameWaiter.unread, ring_mk, pending_mk, bytes_pendingFrame, hring, List.map_append,
    ← List.append_assoc, ← List.append_assoc, List.append_assoc (encode _ _), hsplit]
  rfl

theorem delivering_feed {longest : Nat} {s t : StepState Q} {byte : UInt8}
    (hs : Delivering longest s) (hstep : step s (.feed byte) = some t) :
    Delivering longest t := by
  obtain ⟨hfeeding, rfl⟩ := feed_outcome_of_step hstep
  have hproducer := hs.producer
  simp only [ProducerAgrees, hfeeding] at hproducer
  exact { hs with producer := hproducer }

theorem delivering_produce {longest : Nat} {s t : StepState Q}
    (hs : Delivering longest s) (hcondition : Undisturbed longest s .produce)
    (hstep : step s .produce = some t) : Delivering longest t := by
  obtain ⟨byte, pc, w, next, called, hfeeding, houtcome, rfl⟩ := produce_outcome hstep
  have hproducer := hs.producer
  simp only [ProducerAgrees, hfeeding] at hproducer
  cases houtcome with
  | foundDropping hdropping => simp [hs.dropping] at hdropping
  | foundEnd hdropping => simp [hs.dropping] at hdropping
  | foundClear hdropping =>
      have hfed : s.fed ++ fate s.waiter byte .loading = s.fed := by simp [fate, hdropping]
      simp only [hfed]
      exact { hs with producer := hproducer, callbacks := by simpa using hs.callbacks }
  | cleared => exact hproducer.elim
  | refused hring =>
      have hroom := hcondition (by simp [hfeeding])
      omega
  | inserted buffer hring hcall =>
      have hbyte : byte ≠ packetDelimiter := fun h => hcall ⟨h, hs.callback⟩
      refine { hs with split := split_concat hs hring, producer := ?_, callbacks := ?_ }
      · simpa [ProducerAgrees, StepState.stream, fate] using hproducer
      · simpa [hbyte] using hs.callbacks
  | insertedEnd buffer hring hbyte hcallback =>
      refine { hs with split := split_concat hs hring, producer := ?_, callbacks := ?_ }
      · simpa [ProducerAgrees, StepState.stream, fate, hbyte] using hproducer
      · simpa using hs.callbacks
  | markedOverflow => exact hproducer.elim
  | markedDropping => exact hproducer.elim
  | called =>
      obtain ⟨hstream, hbyte⟩ := hproducer
      refine { hs with split := ?_, producer := ?_, callbacks := ?_ }
      · simpa [StepState.stream, fate] using hs.split
      · simpa [ProducerAgrees, StepState.stream, fate] using hstream
      · simpa [hbyte] using hs.callbacks

theorem delivering_read {longest : Nat} {s t : StepState Q}
    {outputBuffer : Option (List UInt8)} {cap : Nat} (hs : Delivering longest s)
    (hcondition : Undisturbed longest s (.read outputBuffer cap))
    (hstep : step s (.read outputBuffer cap) = some t) : Delivering longest t := by
  obtain ⟨-, ⟨out, -, rfl⟩ | ⟨rfl, -⟩⟩ := read_outcome_of_step hstep
  · exact { hs with consumer := hcondition.2 }
  · simp [Undisturbed] at hcondition

theorem length_pending_of_fits {longest : Nat} {s : StepState Q} (hs : Delivering longest s)
    (hfits : Fits N longest s.stream) {byte : UInt8} {rest : List UInt8}
    (hbyte : byte ≠ packetDelimiter) (hring : s.waiter.ring = byte :: rest) :
    s.waiter.pending.length < N := by
  have hsplit : s.waiter.unread = (s.waiter.pending ++ [byte]) ++ rest := by
    simp [FrameWaiter.unread, hring]
  have hopening : packetDelimiter ∉ s.waiter.pending ++ [byte] := by
    simpa using not_mem_concat hs.pending hbyte
  rcases append_mem_frames_or_not_mem hopening rest with ⟨g, hframe⟩ | hnone
  · rw [← hsplit] at hframe
    have hlen := (hfits.1 _ (by rw [frames_stream hs]; exact List.mem_append_right _ hframe)).1
    simp only [List.length_append, List.length_singleton] at hlen
    omega
  · have hlen := hfits.2
    rw [tail_stream hs, hsplit, tail_of_not_mem hnone] at hlen
    simp only [List.length_append, List.length_singleton] at hlen
    omega

theorem delivering_consume {longest : Nat} {s t : StepState Q}
    (hs : Delivering longest s) (hfits : Fits N longest s.stream)
    (hstep : step s .consume = some t) : Delivering longest t := by
  obtain ⟨pc, w, hreading, ⟨pc', houtcome, rfl⟩ | ⟨r, houtcome, rfl⟩⟩ := consume_outcome hstep
  all_goals
    have hconsumer := hs.consumer
    simp only [ConsumerAgrees, hreading] at hconsumer
  · cases houtcome with
    | ranEmpty out cap hring => exact { hs with consumer := trivial }
    | assembled out cap byte buffer hbyte hring hsize =>
        refine { hs with pending := ?_, split := ?_, consumer := hconsumer }
        · simpa using not_mem_concat hs.pending hbyte
        · have hsplit := hs.split
          rw [FrameWaiter.unread, hring] at hsplit
          simpa [FrameWaiter.unread, StepState.stream] using hsplit
    | filled out cap byte buffer hbyte hring hsize =>
        have := length_pending_of_fits hs hfits hbyte hring
        omega
    | overflowed out hoverflow => simp [hs.overflow] at hoverflow
    | droppedByte => exact hconsumer.elim
  · cases houtcome with
    | rejected out cap buffer hring hcap =>
        have hframe : s.waiter.pending ∈ frames packetDelimiter s.stream := by
          rw [frames_stream hs, FrameWaiter.unread, hring, frames_frame_append hs.pending]
          simp
        have := (hfits.1 _ hframe).2
        omega
    | delivered out cap buffer hring hcap =>
        refine { hs with
          pending := by simp, split := ?_, whole := ?_, consumer := trivial, statuses := ?_ }
        · have hsplit := hs.split
          rw [FrameWaiter.unread, hring] at hsplit
          rw [delivered_concat_ok, encode_append, encode_singleton]
          simpa [FrameWaiter.unread, StepState.stream] using hsplit
        · rw [delivered_concat_ok]
          intro f hf
          rcases List.mem_append.mp hf with hf | hf
          · exact hs.whole f hf
          · obtain rfl := List.mem_singleton.mp hf
            exact hs.pending
        · intro r hr
          rcases List.mem_append.mp hr with hr | hr
          · exact hs.statuses r hr
          · obtain rfl := List.mem_singleton.mp hr
            exact Or.inl rfl
    | unfinished out hoverflow =>
        have hdelivered : delivered (s.returned ++ [returnEmpty .incompleteFrame out]) =
            delivered s.returned := delivered_concat_of_ne _ (by simp [returnEmpty])
        refine { hs with split := ?_, whole := ?_, consumer := trivial, statuses := ?_ }
        · rw [hdelivered]
          exact hs.split
        · rw [hdelivered]
          exact hs.whole
        · intro r hr
          rcases List.mem_append.mp hr with hr | hr
          · exact hs.statuses r hr
          · obtain rfl := List.mem_singleton.mp hr
            exact Or.inr rfl
    | droppedAll => exact hconsumer.elim
    | droppedFrame => exact hconsumer.elim

theorem started_prefix_step {s t : StepState Q} {a : Action} (hstep : step s a = some t) :
    s.started <+: t.started := by
  cases a with
  | feed byte =>
      obtain ⟨hfeeding, rfl⟩ := feed_outcome_of_step hstep
      simp [StepState.started, hfeeding]
  | produce =>
      obtain ⟨byte, pc, w, next, called, hfeeding, -, rfl⟩ := produce_outcome hstep
      cases next <;> simp [StepState.started, hfeeding]
  | read outputBuffer cap =>
      obtain ⟨-, ⟨out, -, rfl⟩ | ⟨-, rfl⟩⟩ := read_outcome_of_step hstep <;>
        exact List.prefix_rfl
  | consume =>
      obtain ⟨pc, w, -, ⟨pc', -, rfl⟩ | ⟨r, -, rfl⟩⟩ := consume_outcome hstep <;>
        exact List.prefix_rfl

theorem fits_of_isPrefix {longest : Nat} {xs ys : List UInt8} (hextends : xs <+: ys)
    (h : Fits N longest ys) : Fits N longest xs := by
  obtain ⟨zs, rfl⟩ := hextends
  exact fits_of_append h

theorem delivering_step {longest : Nat} {s t : StepState Q} {a : Action}
    (hs : Fits N longest s.started → Delivering longest s)
    (hcondition : Undisturbed longest s a) (hstep : step s a = some t) :
    Fits N longest t.started → Delivering longest t := by
  intro hfits
  have hfits := fits_of_isPrefix (started_prefix_step hstep) hfits
  have hs := hs hfits
  cases a with
  | feed byte => exact delivering_feed hs hstep
  | produce => exact delivering_produce hs hcondition hstep
  | read outputBuffer cap => exact delivering_read hs hcondition hstep
  | consume =>
      exact delivering_consume hs (fits_of_isPrefix (stream_prefix_started hs) hfits) hstep

/-- What a run delivers. The stream counts a byte once it is in the ring, so it
extends the bytes whose `feed` call has returned and is extended by the bytes
for which `feed` has been called. -/
structure DeliversExactly (s : StepState Q) : Prop where
  finished_prefix : s.finished <+: s.stream
  stream_prefix : s.stream <+: s.started
  inOrder : delivered s.returned <+: frames packetDelimiter s.stream
  nothingLost : encode packetDelimiter (delivered s.returned) ++
    (s.waiter.pending ++ s.waiter.ring) = s.stream
  caughtUp : s.waiter.ring = [] →
    delivered s.returned = frames packetDelimiter s.stream ∧
      s.waiter.pending = tail packetDelimiter s.stream
  callbacks : s.callbacks = s.finished.count packetDelimiter
  noRejection : ∀ r ∈ s.returned, r.status ≠ .overflow ∧ r.status ≠ .bufferTooSmall

theorem finished_prefix_stream {longest : Nat} {s : StepState Q}
    (hs : Delivering longest s) : s.finished <+: s.stream := by
  have hproducer := hs.producer
  unfold ProducerAgrees at hproducer
  split at hproducer
  · rw [hproducer]
  · rw [hproducer]
  · rw [hproducer]
  · rw [hproducer.1]
    exact List.prefix_append _ _
  · exact hproducer.elim

theorem deliversExactly_of_delivering {longest : Nat} {s : StepState Q}
    (hs : Delivering longest s) : DeliversExactly s := by
  refine ⟨finished_prefix_stream hs, stream_prefix_started hs, ?_, hs.split, ?_, hs.callbacks, ?_⟩
  · rw [frames_stream hs]
    exact List.prefix_append _ _
  · intro hring
    have hunread : s.waiter.unread = s.waiter.pending := by simp [FrameWaiter.unread, hring]
    rw [frames_stream hs, tail_stream hs, hunread, frames_of_not_mem hs.pending,
      tail_of_not_mem hs.pending, List.append_nil]
    exact ⟨rfl, rfl⟩
  · intro r hr
    rcases hs.statuses r hr with h | h <;> simp [h]

/-- Exactly-once delivery in order, for every interleaving of the single accesses
in which no insert fails. -/
theorem deliversExactly (Q : Ringbuffer N) (longest : Nat) (schedule : List Action)
    (s : StepState Q)
    (hmeets : Meets step (Undisturbed longest) (StepState.init Q true) schedule)
    (hexec : exec step (StepState.init Q true) schedule = some s)
    (hfits : Fits N longest s.started) : DeliversExactly s := by
  have hs : Fits N longest s.started → Delivering longest s :=
    exec_invariant (I := fun s => Fits N longest s.started → Delivering longest s)
      (fun _ _ _ hs hcondition hstep => delivering_step hs hcondition hstep)
      (fun _ => delivering_init longest) hmeets hexec
  exact deliversExactly_of_delivering (hs hfits)

/-- Bytes `1 0 0` through a ring of two bytes, the consumer's accesses falling
between those of the producer. -/
def interleavedSchedule : List Action :=
  [.feed 1, .produce, .read (some [9]) 1, .produce, .consume, .feed 0, .consume, .produce,
    .produce, .consume, .read (some [9]) 1, .consume, .produce, .feed 0, .produce, .produce,
    .read (some [9]) 1, .consume]

theorem deliversExactly_interleavedSchedule :
    ∃ s, exec step (StepState.init (fifo 2) true) interleavedSchedule = some s ∧
      delivered s.returned = [[1], []] ∧ DeliversExactly s := by
  refine ⟨(exec step (StepState.init (fifo 2) true) interleavedSchedule).get (by decide),
    by simp, by decide, ?_⟩
  exact deliversExactly (fifo 2) 1 interleavedSchedule _ (by decide) (by simp) (by decide)

end EasyLoRa.FrameDelivery
