import EasyLoRa.FrameWaiterSteps

namespace EasyLoRa.ProducerSkips

open EasyLoRa.ByteQueue
open EasyLoRa.FrameWaiterModel
open EasyLoRa.FrameWaiterOutcomes
open EasyLoRa.FrameWaiterSteps
open EasyLoRa.TransitionSystem

variable {N : Nat} {Q : Ringbuffer N}

/-- A fed byte enters the ring, is refused by it, or is not offered to it. -/
inductive Fate where
  | accepted
  | refused
  | skipped
deriving DecidableEq, Repr

/-- The fate that a step decides. -/
def fates (s : StepState Q) : Action → List (UInt8 × Fate)
  | .produce =>
      match s.feeding with
      | some (byte, .loading) =>
          if s.waiter.droppingFeedBytes then [(byte, .skipped)] else []
      | some (byte, .inserting) =>
          [(byte, if (Q.insert s.waiter.buffer byte).isSome then .accepted else .refused)]
      | _ => []
  | _ => []

/-- The last byte was lost and did not end its frame. -/
def Owes (fed : List (UInt8 × Fate)) : Prop :=
  ∃ p ∈ fed.getLast?, p.2 ≠ .accepted ∧ p.1 ≠ packetDelimiter

instance (fed : List (UInt8 × Fate)) : Decidable (Owes fed) :=
  inferInstanceAs (Decidable (∃ p ∈ fed.getLast?, _))

/-- A byte is skipped exactly when the byte before it was lost and belongs to the same
frame: a failed insert costs the rest of its frame, the delimiter included, and
nothing after it. -/
def Confined (fed : List (UInt8 × Fate)) : Prop :=
  ∀ before p after, fed = before ++ p :: after → (p.2 = .skipped ↔ Owes before)

/-- Every delimiter that is offered to the ring finds room. -/
def DelimitersFit (s : StepState Q) : Action → Prop
  | .produce =>
      s.feeding = some (packetDelimiter, .inserting) → s.waiter.ring.length < N
  | _ => True

instance (s : StepState Q) (a : Action) : Decidable (DelimitersFit s a) := by
  induction a using FrameWaiterSteps.Action.casesOn <;> dsimp only [DelimitersFit] <;> infer_instance

@[simp] theorem not_owes_nil : ¬Owes [] := by
  simp [Owes]

@[simp] theorem owes_concat (fed : List (UInt8 × Fate)) (p : UInt8 × Fate) :
    Owes (fed ++ [p]) ↔ p.2 ≠ .accepted ∧ p.1 ≠ packetDelimiter := by
  simp [Owes]

theorem confined_nil : Confined [] := by
  intro before p after h
  simp at h

theorem confined_concat {fed : List (UInt8 × Fate)} {p : UInt8 × Fate} (h : Confined fed)
    (hp : p.2 = .skipped ↔ Owes fed) : Confined (fed ++ [p]) := by
  intro before q after hsplit
  rcases List.eq_nil_or_concat after with rfl | ⟨front, last, rfl⟩
  · obtain ⟨rfl, hq⟩ := List.append_inj' hsplit rfl
    obtain rfl : p = q := by simpa using hq
    exact hp
  · have hsplit : fed ++ [p] = (before ++ q :: front) ++ [last] := by simpa using hsplit
    obtain ⟨rfl, -⟩ := List.append_inj' hsplit rfl
    exact h before q front rfl

/-- How the call of `feed` in progress goes together with the fates so far. Where
nothing more is to be stored, the flag says whether a byte is owed. -/
def Agrees (s : StepState Q) (fed : List (UInt8 × Fate)) : Prop :=
  match s.feeding with
  | none => fed.map Prod.fst = s.finished ∧ (s.waiter.droppingFeedBytes = true ↔ Owes fed)
  | some (_, .loading) =>
      fed.map Prod.fst = s.finished ∧ (s.waiter.droppingFeedBytes = true ↔ Owes fed)
  | some (_, .inserting) =>
      fed.map Prod.fst = s.finished ∧ s.waiter.droppingFeedBytes = false ∧ ¬Owes fed
  | some (byte, .clearing) => fed.map Prod.fst = s.finished ++ [byte] ∧ ¬Owes fed
  | some (byte, .calling) =>
      fed.map Prod.fst = s.finished ++ [byte] ∧ s.waiter.droppingFeedBytes = false ∧ ¬Owes fed
  | some (byte, .storingOverflow) => fed.map Prod.fst = s.finished ++ [byte] ∧ Owes fed
  | some (byte, .storingDropping) => fed.map Prod.fst = s.finished ++ [byte] ∧ Owes fed

theorem agrees_of_consumer {s t : StepState Q} {fed : List (UInt8 × Fate)} (h : Agrees s fed)
    (hfeeding : t.feeding = s.feeding) (hfinished : t.finished = s.finished)
    (hdropping : t.waiter.droppingFeedBytes = s.waiter.droppingFeedBytes) : Agrees t fed := by
  unfold Agrees
  rw [hfeeding, hfinished, hdropping]
  exact h

theorem fates_of_dropping {s : StepState Q} {byte : UInt8}
    (hfeeding : s.feeding = some (byte, .loading))
    (hdropping : s.waiter.droppingFeedBytes = true) : fates s .produce = [(byte, .skipped)] := by
  simp [fates, hfeeding, hdropping]

theorem fates_of_contents {s : StepState Q} {byte : UInt8} {buffer : Q.Buffer}
    (hfeeding : s.feeding = some (byte, .inserting))
    (hring : Q.contents buffer = s.waiter.ring ++ [byte]) :
    fates s .produce = [(byte, .accepted)] := by
  simp [fates, hfeeding, isSome_insert_of_contents hring]

/-- An access that stores a flag or calls back decides no fate. -/
theorem fates_of_later {s : StepState Q} {byte : UInt8} {pc : FeedPc}
    (hfeeding : s.feeding = some (byte, pc)) (hloading : pc ≠ .loading)
    (hinserting : pc ≠ .inserting) : fates s .produce = [] := by
  cases pc with
  | loading => contradiction
  | inserting => contradiction
  | _ => simp [fates, hfeeding]

theorem agrees_produce {s t : StepState Q} {fed : List (UInt8 × Fate)} (h : Agrees s fed)
    (hconfined : Confined fed) (hfit : DelimitersFit s .produce)
    (hstep : step s .produce = some t) :
    Agrees t (fed ++ fates s .produce) ∧ Confined (fed ++ fates s .produce) := by
  obtain ⟨byte, pc, w, next, called, hfeeding, houtcome, rfl⟩ := produce_outcome hstep
  simp only [Agrees, hfeeding] at h
  cases houtcome with
  | foundDropping hdropping hbyte =>
      obtain ⟨hfinished, howes⟩ := h
      rw [fates_of_dropping hfeeding hdropping]
      constructor
      · simp [Agrees, hfinished, hdropping, hbyte]
      · exact confined_concat hconfined (iff_of_true rfl (howes.mp hdropping))
  | foundEnd hdropping hbyte =>
      obtain ⟨hfinished, howes⟩ := h
      rw [fates_of_dropping hfeeding hdropping]
      constructor
      · simp [Agrees, hfinished, hbyte]
      · exact confined_concat hconfined (iff_of_true rfl (howes.mp hdropping))
  | foundClear hdropping =>
      have hfates : fates s .produce = [] := by simp [fates, hfeeding, hdropping]
      rw [hfates, List.append_nil]
      simp [Agrees, h.1, hdropping, hconfined, ← h.2]
  | refused hring =>
      obtain ⟨hfinished, hdropping, howes⟩ := h
      have hinsert := (Q.insert_eq_none_iff s.waiter.buffer byte).mpr hring
      have hfates : fates s .produce = [(byte, .refused)] := by simp [fates, hfeeding, hinsert]
      have hbyte : byte ≠ packetDelimiter := by
        rintro rfl
        exact absurd hring (Nat.ne_of_lt (hfit hfeeding))
      rw [hfates]
      constructor
      · simp [Agrees, hfinished, hbyte]
      · exact confined_concat hconfined (iff_of_false (by simp) howes)
  | inserted buffer hring hcall =>
      obtain ⟨hfinished, hdropping, howes⟩ := h
      rw [fates_of_contents hfeeding hring]
      constructor
      · simp [Agrees, hfinished, hdropping]
      · exact confined_concat hconfined (iff_of_false (by simp) howes)
  | insertedEnd buffer hring hbyte hcallback =>
      obtain ⟨hfinished, hdropping, howes⟩ := h
      rw [fates_of_contents hfeeding hring]
      constructor
      · simp [Agrees, hfinished, hdropping]
      · exact confined_concat hconfined (iff_of_false (by simp) howes)
  | _ =>
      rw [fates_of_later hfeeding (by simp) (by simp), List.append_nil]
      simp [Agrees, h.1, h.2, hconfined]

theorem agrees_step {s t : StepState Q} {a : Action} {fed : List (UInt8 × Fate)}
    (h : Agrees s fed) (hconfined : Confined fed) (hfit : DelimitersFit s a)
    (hstep : step s a = some t) :
    Agrees t (fed ++ fates s a) ∧ Confined (fed ++ fates s a) := by
  cases a with
  | produce => exact agrees_produce h hconfined hfit hstep
  | feed byte =>
      obtain ⟨hfeeding, rfl⟩ := feed_outcome_of_step hstep
      simp only [Agrees, hfeeding] at h
      rw [show fates s (.feed byte) = [] from rfl, List.append_nil]
      exact ⟨h, hconfined⟩
  | read outputBuffer cap =>
      rw [show fates s (.read outputBuffer cap) = [] from rfl, List.append_nil]
      obtain ⟨-, ⟨out, -, rfl⟩ | ⟨-, rfl⟩⟩ := read_outcome_of_step hstep
      · exact ⟨agrees_of_consumer h rfl rfl rfl, hconfined⟩
      · exact ⟨agrees_of_consumer h rfl rfl rfl, hconfined⟩
  | consume =>
      rw [show fates s .consume = [] from rfl, List.append_nil]
      obtain ⟨pc, w, -, ⟨pc', houtcome, rfl⟩ | ⟨r, houtcome, rfl⟩⟩ := consume_outcome hstep
      · refine ⟨agrees_of_consumer h rfl rfl ?_, hconfined⟩
        cases houtcome <;> rfl
      · refine ⟨agrees_of_consumer h rfl rfl ?_, hconfined⟩
        cases houtcome <;> rfl

/-- Where no delimiter is refused, an overflow costs the producer the rest of the
frame it hits: the skips are confined, and after a delimiter nothing is being
dropped any more. -/
theorem confined_of_delimitersFit (Q : Ringbuffer N) (callback : Bool) (schedule : List Action)
    (s : StepState Q) (hmeets : Meets step DelimitersFit (StepState.init Q callback) schedule)
    (hexec : exec step (StepState.init Q callback) schedule = some s) :
    Confined (trace step fates (StepState.init Q callback) schedule) ∧
      (s.feeding = none → s.finished.getLast? = some packetDelimiter →
        s.waiter.droppingFeedBytes = false) := by
  have hinit : Agrees (StepState.init Q callback) [] ∧ Confined [] := by
    constructor
    · simp [Agrees, StepState.init]
    · exact confined_nil
  obtain ⟨hagrees, hconfined⟩ := exec_trace_invariant
    (I := fun s fed => Agrees s fed ∧ Confined fed)
    (fun _ _ _ _ h hfit hstep => agrees_step h.1 h.2 hfit hstep) hinit hmeets hexec
  refine ⟨hconfined, ?_⟩
  intro hidle hlast
  simp only [Agrees, hidle] at hagrees
  obtain ⟨hfinished, howes⟩ := hagrees
  rw [← hfinished, List.getLast?_map] at hlast
  obtain ⟨p, hp, hbyte⟩ := Option.map_eq_some_iff.mp hlast
  rw [← Bool.not_eq_true, howes]
  rintro ⟨q, hq, -, hne⟩
  obtain rfl : p = q := Option.some.inj (hp.symm.trans hq)
  exact hne hbyte

/-- Bytes `1 2 0 5 0` in a ring of two bytes that is emptied after the third: the
delimiter of the first frame is refused. -/
def refusedDelimiterSchedule : List Action :=
  [.feed 1, .produce, .produce, .feed 2, .produce, .produce, .feed 0, .produce, .produce,
    .produce, .produce, .read (some []) 2, .consume, .consume, .feed 5, .produce, .feed 0,
    .produce, .produce]

/-- The frame after the one that overflowed is skipped from its first byte to its
delimiter, with an empty ring. -/
theorem frame_skipped_after_delimiter :
    ∃ s, exec step (StepState.init (fifo 2) true) refusedDelimiterSchedule = some s ∧
      trace step fates (StepState.init (fifo 2) true) refusedDelimiterSchedule =
        [(1, .accepted), (2, .accepted), (0, .refused), (5, .skipped), (0, .skipped)] ∧
      s.waiter.ring = [] ∧
      ¬Confined (trace step fates (StepState.init (fifo 2) true) refusedDelimiterSchedule) := by
  have htrace : trace step fates (StepState.init (fifo 2) true) refusedDelimiterSchedule =
      [(1, .accepted), (2, .accepted), (0, .refused), (5, .skipped), (0, .skipped)] := by decide
  refine ⟨(exec step (StepState.init (fifo 2) true) refusedDelimiterSchedule).get (by decide),
    by simp, htrace, by decide, ?_⟩
  rw [htrace]
  intro hconfined
  have howes := (hconfined [(1, .accepted), (2, .accepted), (0, .refused)] (5, .skipped)
    [(0, .skipped)] rfl).mp rfl
  exact absurd howes (by decide)

/-- Bytes `1 2 3 0 5 0`: here a byte of the first frame is refused. -/
def refusedByteSchedule : List Action :=
  [.feed 1, .produce, .produce, .feed 2, .produce, .produce, .feed 3, .produce, .produce,
    .produce, .produce, .feed 0, .produce, .produce, .read (some []) 2, .consume, .consume,
    .feed 5, .produce, .produce, .feed 0, .produce, .produce, .produce]

theorem confined_refusedByteSchedule :
    trace step fates (StepState.init (fifo 2) true) refusedByteSchedule =
      [(1, .accepted), (2, .accepted), (3, .refused), (0, .skipped), (5, .accepted),
        (0, .accepted)] ∧
      Confined (trace step fates (StepState.init (fifo 2) true) refusedByteSchedule) :=
  ⟨by decide, (confined_of_delimitersFit (fifo 2) true refusedByteSchedule
    ((exec step (StepState.init (fifo 2) true) refusedByteSchedule).get (by decide)) (by decide)
    (by simp)).1⟩

end EasyLoRa.ProducerSkips
