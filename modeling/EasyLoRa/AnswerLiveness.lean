import EasyLoRa.CoreAnswers
import EasyLoRa.FairRuns

namespace EasyLoRa.AnswerLiveness

open EasyLoRa.ByteQueue
open EasyLoRa.DelimitedFrames
open EasyLoRa.FrameWaiterModel
open EasyLoRa.FrameWaiterOutcomes
open EasyLoRa.FrameWaiterCalls
open EasyLoRa.FrameWaiterSteps
open EasyLoRa.FrameDelivery
open EasyLoRa.CoreReceive
open EasyLoRa.CoreTransmit
open EasyLoRa.CoreAnswers
open EasyLoRa.ReceiveWakeup
open EasyLoRa.FairRuns
open EasyLoRa.TransitionSystem

variable {N T : Nat} {Q : Ringbuffer N} {R : Ringbuffer T}
variable {respond : List UInt8 → Option (List UInt8)}

/-- A call of `tryReadFrame` is in progress exactly while Core 1 is inside it. -/
def InCall (s : CoreState Q R) : Prop := s.core1 = .reading ↔ s.rx.reading.isSome = true

/-- Fewer than `k` frames are answered. -/
def OwesAnswer (k : Nat) (s : CoreState Q R) : Prop := (handled s).length < k

/-- How many frames are to be returned until `k` are. -/
def owed (k : Nat) (s : CoreState Q R) : Nat := k - (delivered s.rx.returned).length

/-- How far Core 1 is from the next byte it removes, while the ring holds a frame. -/
def approach (s : CoreState Q R) : Nat :=
  match s.core1 with
  | .polling => 1
  | .reading =>
      match s.rx.reading with
      | some (.removing _ _) => 0
      | _ => 6
  | .responding _ => 2
  | .waiting => 5
  | .asleep => if s.event then 3 else 4

/-- The bytes to remove until the `k`th frame is complete, and then the way of Core 1 to
the next one of them. -/
def rank (k : Nat) (s : CoreState Q R) : Nat :=
  7 * lengthTo packetDelimiter (owed k s) s.rx.waiter.ring + approach s

/-- Only the interrupt handler can go on when Core 1 is asleep without an event. -/
def helpful (s : CoreState Q R) : CoreAction :=
  if s.core1 = .asleep ∧ s.event = false then .uart else .core1

structure Serving (respond : List UInt8 → Option (List UInt8)) (k : Nat) (s : CoreState Q R) :
    Prop where
  answering : Answering respond s
  inCall : InCall s
  fits : Fits N N s.rx.started
  complete : k ≤ (frames packetDelimiter s.rx.stream).length

theorem inCall_init : InCall (CoreState.init Q R) := by
  simp [InCall, CoreState.init, StepState.init]

/-- Where Core 1 comes from when it polls again. -/
theorem source_of_polling {s t : CoreState Q R} (hstep : coreStep respond s .core1 = some t)
    (hpolling : t.core1 = .polling) :
    (∃ f, s.core1 = .responding f) ∨
      (s.core1 = .waiting ∨ s.core1 = .asleep) ∧ s.event = true := by
  simp only [coreStep, core1Step] at hstep
  split at hstep
  · obtain ⟨rx, -, rfl⟩ := Option.map_eq_some_iff.mp hstep
    contradiction
  · next hcore =>
      obtain ⟨rx, -, rfl⟩ := Option.map_eq_some_iff.mp hstep
      split at hpolling
      · next r _ _ =>
          by_cases hok : r.status = .ok <;> simp [hok] at hpolling
      · simp [hcore] at hpolling
  · next f hcore => exact Or.inl ⟨f, hcore⟩
  · next hcore =>
      split at hstep
      · next hevent => exact Or.inr ⟨Or.inl hcore, hevent⟩
      · obtain rfl := Option.some.inj hstep
        contradiction
  · next hcore =>
      split at hstep
      · next hevent => exact Or.inr ⟨Or.inr hcore, hevent⟩
      · contradiction

theorem inCall_step {s t : CoreState Q R} {a : CoreAction} (hs : InCall s)
    (hcallback : s.rx.waiter.callback = true) (hstep : coreStep respond s a = some t) :
    InCall t := by
  cases a with
  | irq byte =>
      obtain ⟨-, rfl⟩ := irq_outcome hstep
      exact hs
  | uart =>
      obtain ⟨-, hcore, hreading, -, -⟩ := uart_outcome hcallback hstep
      rwa [InCall, hcore, hreading]
  | core1 =>
      have hsource := source_of_polling hstep
      cases core1_outcome hstep with
      | polled => simp [InCall]
      | progressed pc pc' w hcore => simp [InCall, hcore]
      | returned pc r w => by_cases hok : r.status = .ok <;> simp [InCall, hok]
      | responded f tx event hcore => simpa [InCall, hcore] using hs
      | woke =>
          rcases hsource rfl with ⟨f, hcore⟩ | ⟨hcore | hcore, -⟩ <;>
            simpa [InCall, hcore] using hs
      | slept hcore => simpa [InCall, hcore] using hs

theorem owed_le_count {k : Nat} {s : CoreState Q R} (hs : Serving respond k s) :
    owed k s ≤ s.rx.waiter.ring.count packetDelimiter := by
  have hcomplete := hs.complete
  have hpending := List.count_eq_zero.mpr hs.answering.delivering.pending
  rw [frames_stream hs.answering.delivering, List.length_append, length_frames,
    FrameWaiter.unread, List.count_append, hpending] at hcomplete
  unfold owed
  omega

theorem owed_pos {k : Nat} {s : CoreState Q R} (howes : OwesAnswer k s)
    (hcore : ∀ f, s.core1 ≠ .responding f) : 0 < owed k s := by
  unfold OwesAnswer at howes
  rw [handled_of_not_responding hcore] at howes
  unfold owed
  omega

theorem mem_ring_of_owes {k : Nat} {s : CoreState Q R} (hs : Serving respond k s)
    (howes : OwesAnswer k s) (hcore : ∀ f, s.core1 ≠ .responding f) :
    packetDelimiter ∈ s.rx.waiter.ring :=
  List.count_pos_iff.mp (Nat.lt_of_lt_of_le (owed_pos howes hcore) (owed_le_count hs))

/-- A delimiter in the ring has been announced, so the handler is about to call back when
Core 1 sleeps without an event. -/
theorem calling_of_asleep {k : Nat} {s : CoreState Q R} (hs : Serving respond k s)
    (howes : OwesAnswer k s) (hcore : s.core1 = .asleep) (hevent : s.event = false) :
    ∃ byte, s.rx.feeding = some (byte, .calling) := by
  have hmem := mem_ring_of_owes hs howes (by simp [hcore])
  have hsignalled : ¬ Unsignalled s := fun hunsignalled =>
    not_forgotten_of_served hs.answering.served ⟨hcore, hunsignalled, hmem⟩
  have hcalling : s.rx.feeding.map Prod.snd = some .calling := by
    by_contra hcalling
    exact hsignalled ⟨hevent, hcalling⟩
  obtain ⟨⟨byte, pc⟩, hfeeding, rfl⟩ := Option.map_eq_some_iff.mp hcalling
  exact ⟨byte, hfeeding⟩

theorem helpful_enabled {k : Nat} {s : CoreState Q R} (hs : Serving respond k s)
    (howes : OwesAnswer k s) : coreStep respond s (helpful s) ≠ none := by
  by_cases hwaits : s.core1 = .asleep ∧ s.event = false
  · obtain ⟨byte, hfeeding⟩ := calling_of_asleep hs howes hwaits.1 hwaits.2
    simp [helpful, hwaits, coreStep, step, hfeeding]
  · rw [helpful, if_neg hwaits]
    have hinCall := hs.inCall
    cases hcore : s.core1 with
    | polling =>
        have hidle : s.rx.reading = none := by simpa [InCall, hcore] using hinCall
        simp [coreStep, core1Step, hcore, step, hidle, readEntry]
    | reading =>
        obtain ⟨pc, hreading⟩ := Option.isSome_iff_exists.mp (hinCall.mp hcore)
        simp only [coreStep, core1Step, hcore, step, hreading]
        split <;> simp
    | responding f =>
        simp only [coreStep, core1Step, hcore]
        split <;> simp
    | waiting =>
        simp only [coreStep, core1Step, hcore]
        split <;> simp
    | asleep =>
        have hevent : s.event = true := by simpa [hcore] using hwaits
        simp [coreStep, core1Step, hcore, hevent]

theorem uart_appends {s t : CoreState Q R} (hstep : coreStep respond s .uart = some t) :
    t.core1 = s.core1 ∧ t.rx.reading = s.rx.reading ∧ t.rx.returned = s.rx.returned ∧
      (∃ bytes, t.rx.waiter.ring = s.rx.waiter.ring ++ bytes) ∧
      (s.event = true → t.event = true) := by
  simp only [coreStep, Option.map_eq_some_iff] at hstep
  obtain ⟨rx, hrx, rfl⟩ := hstep
  obtain ⟨byte, pc, w, next, called, -, houtcome, rfl⟩ := produce_outcome hrx
  refine ⟨rfl, rfl, rfl, ?_, fun hevent => by simp [hevent]⟩
  cases houtcome with
  | inserted buffer hring => exact ⟨[byte], hring⟩
  | insertedEnd buffer hring => exact ⟨[byte], hring⟩
  | _ => exact ⟨[], (List.append_nil _).symm⟩

theorem rank_uart {k : Nat} {s t : CoreState Q R} (hs : Serving respond k s)
    (howes : OwesAnswer k s) (hstep : coreStep respond s .uart = some t) :
    rank k t < rank k s ∨
      (.uart ≠ helpful s ∧ rank k t = rank k s ∧ helpful t = helpful s) := by
  by_cases hwaits : s.core1 = .asleep ∧ s.event = false
  · -- the access in progress is the call of `__sev`
    obtain ⟨byte, hfeeding⟩ := calling_of_asleep hs howes hwaits.1 hwaits.2
    simp only [coreStep, step, hfeeding, feedStep, Option.map_some, Option.some.injEq] at hstep
    subst hstep
    left
    simp [rank, approach, owed, hwaits]
  · obtain ⟨hcore, hreading, hreturned, ⟨bytes, hring⟩, hevent⟩ := uart_appends hstep
    have howed : owed k t = owed k s := by rw [owed, hreturned, owed]
    have hasleep : s.core1 = .asleep → s.event = true ∧ t.event = true := by
      intro hasleep
      have hset : s.event = true := by simpa [hasleep] using hwaits
      exact ⟨hset, hevent hset⟩
    have happroach : approach t = approach s := by
      unfold approach
      rw [hcore, hreading]
      split
      · rfl
      · rfl
      · rfl
      · rfl
      · next hcore => simp [hasleep hcore]
    have hhelpful : helpful t = helpful s := by
      unfold helpful
      rw [hcore]
      by_cases hcore' : s.core1 = .asleep
      · simp [hcore', hasleep hcore']
      · simp [hcore']
    refine Or.inr ⟨by simp [helpful, hwaits], ?_, hhelpful⟩
    rw [rank, howed, hring, lengthTo_append _ (owed_le_count hs), happroach, rank]

theorem rank_progressed {k : Nat} {s : CoreState Q R} {pc pc' : ReadPc} {w : FrameWaiter Q}
    (hs : Serving respond k s) (howes : OwesAnswer k s) (hcore : s.core1 = .reading)
    (hreading : s.rx.reading = some pc) (hread : ReadStepOutcome s.rx.waiter pc (w, .inl pc')) :
    rank k { s with rx := { s.rx with waiter := w, reading := some pc' } } < rank k s := by
  have hdelivering := hs.answering.delivering
  have hmem := mem_ring_of_owes hs howes (by simp [hcore])
  have hpos := owed_pos howes (by simp [hcore])
  have hconsumer := hdelivering.consumer
  simp only [ConsumerAgrees, hreading] at hconsumer
  cases hread with
  | ranEmpty out cap hring => simp [hring] at hmem
  | assembled out cap byte buffer hbyte hring hsize =>
      obtain ⟨n, hn⟩ : ∃ n, owed k s = n + 1 := ⟨owed k s - 1, by omega⟩
      simp only [owed] at hn
      simp [rank, approach, owed, hcore, hreading, hring, hn, lengthTo, hbyte]
  | filled out cap byte buffer hbyte hring hsize =>
      have hfits := fits_of_isPrefix (stream_prefix_started hdelivering) hs.fits
      have hroom := length_pending_of_fits hdelivering hfits hbyte hring
      omega
  | overflowed out hoverflow => simp [hdelivering.overflow] at hoverflow
  | droppedByte => exact hconsumer.elim

theorem rank_returned {k : Nat} {s : CoreState Q R} {pc : ReadPc} {r : ReadResult}
    {w : FrameWaiter Q} (hs : Serving respond k s) (howes : OwesAnswer k s)
    (hcore : s.core1 = .reading) (hreading : s.rx.reading = some pc)
    (hread : ReadStepOutcome s.rx.waiter pc (w, .inr r)) :
    rank k { s with
      rx := { s.rx with waiter := w, reading := none, returned := s.rx.returned ++ [r] }
      receivedFrameCodifiedBuffer := r.outputBuffer.getD []
      core1 := if r.status = .ok then .responding r.payload else .waiting } < rank k s := by
  have hdelivering := hs.answering.delivering
  have hpos := owed_pos howes (by simp [hcore])
  have hconsumer := hdelivering.consumer
  simp only [ConsumerAgrees, hreading] at hconsumer
  cases hread with
  | rejected out cap buffer hring hcap =>
      have hlength := s.rx.waiter.length_pending_le
      omega
  | delivered out cap buffer hring hcap =>
      obtain ⟨n, hn⟩ : ∃ n, owed k s = n + 1 := ⟨owed k s - 1, by omega⟩
      simp only [owed] at hn
      have hless : k - ((delivered s.rx.returned).length + 1) = n := by omega
      simp [rank, approach, owed, hcore, hreading, hring, delivered_concat_ok, hn, hless,
        lengthTo]
      omega
  | unfinished out hoverflow =>
      simp [rank, approach, owed, hcore, hreading, delivered_concat, returnEmpty]
  | droppedAll => exact hconsumer.elim
  | droppedFrame => exact hconsumer.elim

theorem rank_core1 {k : Nat} {s t : CoreState Q R} (hs : Serving respond k s)
    (howes : OwesAnswer k s) (hstep : coreStep respond s .core1 = some t) :
    rank k t < rank k s := by
  have hsource := source_of_polling hstep
  by_cases hresponding : ∃ f, s.core1 = .responding f
  · obtain ⟨f, hcore⟩ := hresponding
    obtain ⟨hrx, hpolling, -⟩ := core1_responding hcore hstep
    simp [rank, approach, owed, hrx, hpolling, hcore]
  · cases core1_outcome hstep with
    | polled hcore => simp [rank, approach, owed, hcore]
    | progressed pc pc' w hcore hreading hread =>
        exact rank_progressed hs howes hcore hreading hread
    | returned pc r w hcore hreading hread => exact rank_returned hs howes hcore hreading hread
    | responded f tx event hcore => exact absurd ⟨f, hcore⟩ hresponding
    | woke =>
        rcases hsource rfl with hcore | ⟨hcore | hcore, hevent⟩
        · exact absurd hcore hresponding
        · simp [rank, approach, owed, hcore]
        · simp [rank, approach, owed, hcore, hevent]
    | slept hcore hevent => simp [rank, approach, owed, hcore, hevent]

theorem rank_step {k : Nat} {s t : CoreState Q R} {a : CoreAction}
    (hs : Serving respond k s) (howes : OwesAnswer k s) (hstep : coreStep respond s a = some t) :
    rank k t < rank k s ∨
      (a ≠ helpful s ∧ rank k t = rank k s ∧ helpful t = helpful s) := by
  cases a with
  | irq byte =>
      obtain ⟨-, rfl⟩ := irq_outcome hstep
      refine Or.inr ⟨?_, rfl, rfl⟩
      unfold helpful
      split <;> simp
  | uart => exact rank_uart hs howes hstep
  | core1 => exact Or.inl (rank_core1 hs howes hstep)

theorem stream_prefix_step {s t : StepState Q} {a : Action} (hstep : step s a = some t) :
    s.stream <+: t.stream := by
  cases a with
  | feed byte =>
      obtain ⟨-, rfl⟩ := feed_outcome_of_step hstep
      exact List.prefix_rfl
  | produce =>
      obtain ⟨byte, pc, w, next, called, -, -, rfl⟩ := produce_outcome hstep
      simp [StepState.stream]
  | read outputBuffer cap =>
      obtain ⟨-, ⟨out, -, rfl⟩ | ⟨-, rfl⟩⟩ := read_outcome_of_step hstep <;>
        exact List.prefix_rfl
  | consume =>
      obtain ⟨pc, w, -, ⟨pc', -, rfl⟩ | ⟨r, -, rfl⟩⟩ := consume_outcome hstep <;>
        exact List.prefix_rfl

theorem stream_prefix_core {s t : CoreState Q R} {a : CoreAction}
    (hstep : coreStep respond s a = some t) : s.rx.stream <+: t.rx.stream := by
  rcases rx_outcome hstep with hrx | ⟨b, hrx, -⟩
  · rw [hrx]
  · exact stream_prefix_step hrx

section

variable {run : Nat → CoreState Q R} {label : Nat → Option CoreAction}

theorem answering_run (hrun : IsRun (coreStep respond) (CoreState.init Q R) run label)
    (hfits : ∀ n, Fits N N (run n).rx.started) (hmeets : RunMeets RxFits run label) (n : Nat) :
    Answering respond (run n) ∧ InCall (run n) := by
  have hinvariant := hrun.invariant
    (I := fun s => Fits N N s.rx.started → Answering respond s ∧ InCall s)
    (C := RxFits) ?_ (fun _ => ⟨answering_init, inCall_init⟩) hmeets n
  · exact hinvariant (hfits n)
  · intro s a t hs hcondition hstep hfitsT
    obtain ⟨hanswering, hinCall⟩ := hs (fits_of_isPrefix (started_prefix_core hstep) hfitsT)
    exact ⟨answering_step hanswering hcondition hfitsT hstep,
      inCall_step hinCall hanswering.served.callback hstep⟩

theorem stream_prefix_run (hrun : IsRun (coreStep respond) (CoreState.init Q R) run label)
    {m n : Nat} (hmn : m ≤ n) : (run m).rx.stream <+: (run n).rx.stream :=
  hrun.relates (r := fun s t => s.rx.stream <+: t.rx.stream) (fun _ => List.prefix_rfl)
    (fun _ _ _ => List.IsPrefix.trans)
    (fun k l hlabel => stream_prefix_core (hrun.steps k l hlabel)) hmn

theorem frames_prefix_run (hrun : IsRun (coreStep respond) (CoreState.init Q R) run label)
    {m n : Nat} (hmn : m ≤ n) :
    frames packetDelimiter (run m).rx.stream <+: frames packetDelimiter (run n).rx.stream := by
  obtain ⟨later, hlater⟩ := stream_prefix_run hrun hmn
  rw [← hlater]
  exact frames_prefix_append _ _ _

theorem handled_prefix_run (hrun : IsRun (coreStep respond) (CoreState.init Q R) run label)
    (hanswering : ∀ n, Answering respond (run n)) {m n : Nat} (hmn : m ≤ n) :
    handled (run m) <+: handled (run n) :=
  hrun.relates (r := fun s t => handled s <+: handled t) (fun _ => List.prefix_rfl)
    (fun _ _ _ => List.IsPrefix.trans)
    (fun k l hlabel =>
      (transmitting_step (hanswering k).transmitting (hrun.steps k l hlabel)).1) hmn

theorem eventually_handled (hrun : IsRun (coreStep respond) (CoreState.init Q R) run label)
    (hfits : ∀ n, Fits N N (run n).rx.started) (hmeets : RunMeets RxFits run label)
    (huart : WeaklyFair (coreStep respond) run label .uart)
    (hcore1 : WeaklyFair (coreStep respond) run label .core1) (n : Nat) :
    ∃ m, n ≤ m ∧
      (frames packetDelimiter (run n).rx.stream).length ≤ (handled (run m)).length := by
  have hanswering := answering_run hrun hfits hmeets
  generalize hk : (frames packetDelimiter (run n).rx.stream).length = k
  have hserving : ∀ m, k ≤ (frames packetDelimiter (run m).rx.stream).length →
      Serving respond k (run m) := fun m hcomplete =>
    ⟨(hanswering m).1, (hanswering m).2, hfits m, hcomplete⟩
  obtain ⟨m, hm, hanswered⟩ := eventually_not_of_helpful
    (P := fun s => k ≤ (frames packetDelimiter s.rx.stream).length ∧ OwesAnswer k s)
    (rank k) helpful hrun
    (fun s => by unfold helpful; split; exacts [huart, hcore1])
    (fun m hP => helpful_enabled (hserving m hP.1) hP.2)
    (fun m l hlabel hP _ => rank_step (hserving m hP.1) hP.2 (hrun.steps m l hlabel)) n
  refine ⟨m, hm, ?_⟩
  have hcomplete := (frames_prefix_run hrun hm).length_le
  by_contra howes
  exact hanswered ⟨hk ▸ hcomplete, Nat.lt_of_not_le howes⟩

theorem answerStream_grows {fs gs : List (List UInt8)} (h : fs <+: gs) :
    answerStream respond fs <+: answerStream respond gs := by
  obtain ⟨rest, rfl⟩ := h
  rw [answerStream, answerStream, List.filterMap_append, encode_append]
  exact List.prefix_append _ _

/-- In a fair run in which no Rx insert fails and all frames fit, every frame that is
complete at some moment is from some moment on answered, in the order of arrival, and
its answer is in the Tx ring as far as that has room. -/
theorem eventually_answered (Q : Ringbuffer N) (R : Ringbuffer T)
    (respond : List UInt8 → Option (List UInt8)) (run : Nat → CoreState Q R)
    (label : Nat → Option CoreAction)
    (hrun : IsRun (coreStep respond) (CoreState.init Q R) run label)
    (hfits : ∀ n, Fits N N (run n).rx.started) (hmeets : RunMeets RxFits run label)
    (huart : WeaklyFair (coreStep respond) run label .uart)
    (hcore1 : WeaklyFair (coreStep respond) run label .core1) (n : Nat) :
    ∃ m, ∀ k, m ≤ k →
      frames packetDelimiter (run n).rx.stream <+: handled (run k) ∧
      (answerStream respond (frames packetDelimiter (run n).rx.stream)).take T <+:
        (run k).tx.ring := by
  have hanswering := answering_run hrun hfits hmeets
  obtain ⟨m, hm, hlength⟩ := eventually_handled hrun hfits hmeets huart hcore1 n
  refine ⟨m, fun k hk => ?_⟩
  have hlater := handled_prefix_run hrun (fun n => (hanswering n).1) hk
  have hall : frames packetDelimiter (run n).rx.stream <+: handled (run k) :=
    List.prefix_of_prefix_length_le (frames_prefix_run hrun (Nat.le_trans hm hk))
      (handled_prefix_frames (hanswering k).1) (Nat.le_trans hlength hlater.length_le)
  refine ⟨hall, ?_⟩
  rw [(hanswering k).1.transmitting.filling.ring]
  exact (answerStream_grows hall).take T

end

theorem started_prefix_visited {schedule : List CoreAction} {s : CoreState Q R}
    (hexec : exec (coreStep respond) (CoreState.init Q R) schedule = some s) (n : Nat) :
    (visited (coreStep respond) (CoreState.init Q R) schedule n).rx.started <+: s.rx.started := by
  have hlast := visited_of_length_le hexec (Nat.le_max_right n schedule.length)
  rw [← hlast]
  exact (isRun_visited hexec).relates (r := fun s t => s.rx.started <+: t.rx.started)
    (fun _ => List.prefix_rfl) (fun _ _ _ => List.IsPrefix.trans)
    (fun k l hlabel => started_prefix_core ((isRun_visited hexec).steps k l hlabel))
    (Nat.le_max_left n schedule.length)

theorem eventually_answered_mixedSchedule :
    ∃ m, ∀ k, m ≤ k →
      [[7]] <+: handled (visited (coreStep respondUnlessEight)
        (CoreState.init (fifo 4) (fifo 8)) mixedSchedule k) := by
  have hrun : ∃ s, exec (coreStep respondUnlessEight) (CoreState.init (fifo 4) (fifo 8))
      mixedSchedule = some s ∧ Fits 4 4 s.rx.started ∧
      coreStep respondUnlessEight s .uart = none ∧
      coreStep respondUnlessEight s .core1 = none :=
    ⟨(exec (coreStep respondUnlessEight) (CoreState.init (fifo 4) (fifo 8)) mixedSchedule).get
      (by decide), by simp, by decide, by rfl, by rfl⟩
  obtain ⟨s, hexec, hfits, huart, hcore1⟩ := hrun
  obtain ⟨m, hanswered⟩ := eventually_answered (fifo 4) (fifo 8) respondUnlessEight _ _
    (isRun_visited hexec) (fun n => fits_of_isPrefix (started_prefix_visited hexec n) hfits)
    (runMeets_visited hexec (by decide)) (weaklyFair_visited hexec huart)
    (weaklyFair_visited hexec hcore1) 7
  refine ⟨m, fun k hk => ?_⟩
  have hframes : frames packetDelimiter (visited (coreStep respondUnlessEight)
      (CoreState.init (fifo 4) (fifo 8)) mixedSchedule 7).rx.stream = [[7]] := by decide
  exact hframes ▸ (hanswered k hk).1

end EasyLoRa.AnswerLiveness
