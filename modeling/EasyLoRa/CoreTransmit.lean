import EasyLoRa.FrameDelivery
import EasyLoRa.CoreWiring

namespace EasyLoRa.CoreTransmit

open EasyLoRa.ByteQueue
open EasyLoRa.DelimitedFrames
open EasyLoRa.FrameWaiterModel
open EasyLoRa.FrameWaiterOutcomes
open EasyLoRa.FrameWaiterCalls
open EasyLoRa.FrameWaiterSteps
open EasyLoRa.CoreReceive
open EasyLoRa.CoreWiring
open EasyLoRa.TransitionSystem

variable {N T : Nat} {Q : Ringbuffer N} {R : Ringbuffer T}
variable {respond : List UInt8 → Option (List UInt8)}

/-- A waiter that has been fed `stream` and never been read. -/
structure Filling (w : FrameWaiter Q) (stream : List UInt8) : Prop where
  ring : w.ring = stream.take N
  overflow : w.overflow = true ↔ N < stream.length
  dropping : w.droppingFeedBytes = true → N < stream.length

theorem filling_init (callback : Bool) : Filling (FrameWaiter.init Q callback) [] := by
  constructor <;> simp

theorem filling_feed {w : FrameWaiter Q} {stream : List UInt8} (hw : Filling w stream)
    (byte : UInt8) : Filling (feed w byte).1 (stream ++ [byte]) := by
  have hkept : N ≤ stream.length → (stream ++ [byte]).take N = stream.take N :=
    List.take_append_of_le_length
  have hlength : w.ring.length = min N stream.length := by rw [hw.ring, List.length_take]
  have houtcome := feed_outcome w byte
  generalize feed w byte = p at houtcome
  cases houtcome with
  | skipped hdropping hbyte =>
      have hfull := hw.dropping hdropping
      have hoverflow := hw.overflow.mpr hfull
      refine ⟨?_, ?_, fun _ => ?_⟩
      · rw [hkept (by omega), hw.ring]
      · simp [hoverflow]
        omega
      · simp
        omega
  | resumed hdropping hbyte =>
      have hfull := hw.dropping hdropping
      have hoverflow := hw.overflow.mpr hfull
      refine ⟨?_, ?_, by simp⟩
      · rw [hkept (by omega)]
        exact hw.ring
      · simp [hoverflow]
        omega
  | refused hdropping hring =>
      refine ⟨?_, ?_, fun _ => ?_⟩
      · rw [hkept (by omega)]
        exact hw.ring
      · simp
        omega
      · simp
        omega
  | accepted buffer hdropping hroom hring =>
      have hshort : stream.length < N := by omega
      have hclear : w.overflow = false := by
        rw [← Bool.not_eq_true, hw.overflow]
        omega
      refine ⟨?_, ?_, by simp [hdropping]⟩
      · rw [ring_mk, hring, hw.ring, List.take_of_length_le (by omega),
          List.take_of_length_le (by simp; omega)]
      · simp [hclear]
        omega

theorem filling_feedRange {w : FrameWaiter Q} {stream : List UInt8} (hw : Filling w stream)
    (range : List UInt8) : Filling (feedRange w range).1 (stream ++ range) := by
  have hfold : ∀ (p : FrameWaiter Q × Bool) (stream : List UInt8), Filling p.1 stream →
      Filling (range.foldl
        (fun p byte => ((feed p.1 byte).1, p.2 || (feed p.1 byte).2)) p).1
        (stream ++ range) := by
    induction range with
    | nil => simp
    | cons byte range ih =>
        intro p stream hp
        simpa using ih ((feed p.1 byte).1, p.2 || (feed p.1 byte).2) (stream ++ [byte])
          (filling_feed hp byte)
  exact hfold (w, false) stream hw

theorem filling_insertDelimiter {w : FrameWaiter Q} {stream : List UInt8}
    (hw : Filling w stream) :
    Filling (insertDelimiter w).1 (stream ++ [packetDelimiter]) :=
  filling_feed hw packetDelimiter

/-- The received frames that Core 1 is done with: those `tryReadFrame` has returned
with `OK`, but for the one it is answering. -/
def handled (s : CoreState Q R) : List (List UInt8) :=
  match s.core1 with
  | .responding _ => (delivered s.rx.returned).dropLast
  | _ => delivered s.rx.returned

/-- What Core 1 has fed to the Tx waiter: the answers, each followed by the delimiter. -/
def answerStream (respond : List UInt8 → Option (List UInt8)) (fs : List (List UInt8)) :
    List UInt8 :=
  encode packetDelimiter (fs.filterMap respond)

theorem answerStream_concat_none {f : List UInt8} (hf : respond f = none)
    (fs : List (List UInt8)) : answerStream respond (fs ++ [f]) = answerStream respond fs := by
  simp [answerStream, hf]

theorem answerStream_concat_some {f codified : List UInt8} (hf : respond f = some codified)
    (fs : List (List UInt8)) :
    answerStream respond (fs ++ [f]) =
      answerStream respond fs ++ codified ++ [packetDelimiter] := by
  simp [answerStream, hf, encode_append]

/-- The Tx waiter holds the answers to the handled frames, and the frame being
answered is the last one that was returned. -/
structure Transmitting (respond : List UInt8 → Option (List UInt8)) (s : CoreState Q R) :
    Prop where
  filling : Filling s.tx (answerStream respond (handled s))
  answering : ∀ f, s.core1 = .responding f → (delivered s.rx.returned).getLast? = some f

theorem handled_of_not_responding {s : CoreState Q R} (h : ∀ f, s.core1 ≠ .responding f) :
    handled s = delivered s.rx.returned := by
  unfold handled
  split
  · next f hcore => exact absurd hcore (h f)
  · rfl

theorem delivered_of_responding {s : CoreState Q R} {f : List UInt8}
    (hs : Transmitting respond s) (hcore : s.core1 = .responding f) :
    delivered s.rx.returned = handled s ++ [f] := by
  have hlast := hs.answering f hcore
  simp only [handled, hcore]
  exact (List.dropLast_append_getLast? f hlast).symm

theorem delivered_concat (returned : List ReadResult) (r : ReadResult) :
    delivered (returned ++ [r]) =
      delivered returned ++ if r.status = .ok then [r.payload] else [] := by
  by_cases hok : r.status = .ok <;> simp [delivered, hok]

theorem transmitting_init : Transmitting respond (CoreState.init Q R) :=
  ⟨filling_init true, by simp [CoreState.init]⟩

/-- What answering a frame does to the two waiters. -/
theorem core1_responding {s t : CoreState Q R} {f : List UInt8}
    (hcore : s.core1 = .responding f) (hstep : coreStep respond s .core1 = some t) :
    t.rx = s.rx ∧ t.core1 = .polling ∧
      ((respond f = none ∧ t.tx = s.tx) ∨
        ∃ codified, respond f = some codified ∧
          t.tx = (insertDelimiter (feedRange s.tx codified).1).1) := by
  simp only [coreStep, core1Step, hcore] at hstep
  cases hrespond : respond f with
  | none =>
      rw [hrespond] at hstep
      obtain rfl := Option.some.inj hstep
      exact ⟨rfl, rfl, Or.inl ⟨rfl, rfl⟩⟩
  | some codified =>
      rw [hrespond] at hstep
      obtain rfl := Option.some.inj hstep
      exact ⟨rfl, rfl, Or.inr ⟨codified, rfl, rfl⟩⟩

theorem transmitting_responded {s t : CoreState Q R} {f : List UInt8}
    (hs : Transmitting respond s) (hcore : s.core1 = .responding f)
    (hstep : coreStep respond s .core1 = some t) :
    handled t = handled s ++ [f] ∧ Transmitting respond t := by
  obtain ⟨hrx, hpolling, htx⟩ := core1_responding hcore hstep
  have hhandled : handled t = handled s ++ [f] := by
    rw [handled_of_not_responding (by simp [hpolling]), hrx, delivered_of_responding hs hcore]
  refine ⟨hhandled, ?_, by simp [hpolling]⟩
  rw [hhandled]
  rcases htx with ⟨hf, htx⟩ | ⟨codified, hf, htx⟩
  · rw [answerStream_concat_none hf, htx]
    exact hs.filling
  · rw [answerStream_concat_some hf, htx]
    exact filling_insertDelimiter (filling_feedRange hs.filling codified)

/-- Every other step of Core 1 leaves the handled frames and the Tx waiter alone. -/
theorem transmitting_other {s t : CoreState Q R} (hs : Transmitting respond s)
    (hcore : ∀ f, s.core1 ≠ .responding f) (hstep : coreStep respond s .core1 = some t) :
    handled t = handled s ∧ Transmitting respond t := by
  have hbefore := handled_of_not_responding hcore
  have hkeeps : handled t = handled s → t.tx = s.tx →
      (∀ f, t.core1 = .responding f → (delivered t.rx.returned).getLast? = some f) →
      handled t = handled s ∧ Transmitting respond t := by
    intro hhandled htx hanswering
    exact ⟨hhandled, by rw [hhandled, htx]; exact hs.filling, hanswering⟩
  cases core1_outcome hstep with
  | polled => exact hkeeps hbefore.symm rfl (by simp)
  | progressed pc pc' w hreading =>
      refine hkeeps ?_ rfl (by simp [hreading])
      rw [hbefore, handled_of_not_responding (by simpa using hcore)]
  | returned pc r w hreading hpc hread =>
      refine hkeeps ?_ rfl ?_
      · rw [hbefore]
        by_cases hok : r.status = .ok <;> simp [handled, delivered_concat, hok]
      · by_cases hok : r.status = .ok <;> simp [delivered_concat, hok]
  | responded f tx event hresponding => exact absurd hresponding (hcore f)
  | woke => exact hkeeps hbefore.symm rfl (by simp)
  | slept => exact hkeeps hbefore.symm rfl (by simp)

/-- What one step does to the list of handled frames. -/
theorem transmitting_step {s t : CoreState Q R} {a : CoreAction} (hs : Transmitting respond s)
    (hstep : coreStep respond s a = some t) :
    handled s <+: handled t ∧ Transmitting respond t := by
  cases a with
  | irq byte =>
      obtain ⟨-, rfl⟩ := irq_outcome hstep
      exact ⟨List.prefix_rfl, hs.filling, hs.answering⟩
  | uart =>
      simp only [coreStep, Option.map_eq_some_iff] at hstep
      obtain ⟨rx, hrx, rfl⟩ := hstep
      obtain ⟨byte, pc, w, next, called, -, -, rfl⟩ := produce_outcome hrx
      exact ⟨List.prefix_rfl, hs.filling, hs.answering⟩
  | core1 =>
      by_cases hresponding : ∃ f, s.core1 = .responding f
      · obtain ⟨f, hcore⟩ := hresponding
        obtain ⟨hhandled, ht⟩ := transmitting_responded hs hcore hstep
        exact ⟨hhandled ▸ List.prefix_append _ _, ht⟩
      · obtain ⟨hhandled, ht⟩ :=
          transmitting_other hs (fun f hcore => hresponding ⟨f, hcore⟩) hstep
        exact ⟨hhandled ▸ List.prefix_rfl, ht⟩

theorem transmitting_of_run {schedule : List CoreAction} {s : CoreState Q R}
    (hexec : exec (coreStep respond) (CoreState.init Q R) schedule = some s) :
    Transmitting respond s :=
  exec_stable (I := Transmitting respond) (fun _ _ _ hs hstep => (transmitting_step hs hstep).2)
    transmitting_init hexec

theorem frames_answerStream
    (hwhole : ∀ f codified, respond f = some codified → packetDelimiter ∉ codified)
    (fs : List (List UInt8)) :
    frames packetDelimiter (answerStream respond fs) = fs.filterMap respond := by
  have hanswers : ∀ f ∈ fs.filterMap respond, packetDelimiter ∉ f := by
    intro codified hmem
    obtain ⟨f, -, hf⟩ := List.mem_filterMap.mp hmem
    exact hwhole f codified hf
  simpa [answerStream] using frames_encode_append hanswers []

theorem frames_prefix_of_filling
    (hwhole : ∀ f codified, respond f = some codified → packetDelimiter ∉ codified)
    {w : FrameWaiter R} {fs : List (List UInt8)} (hw : Filling w (answerStream respond fs)) :
    frames packetDelimiter w.ring <+: fs.filterMap respond := by
  have hprefix := frames_prefix_append packetDelimiter w.ring
    ((answerStream respond fs).drop T)
  rwa [hw.ring, List.take_append_drop, ← hw.ring, frames_answerStream hwhole] at hprefix

/-- After any run the Tx ring holds the first `T` bytes of the answers to the frames
Core 1 is done with, and the overflow flag says whether something is missing. If no
answer contains the delimiter, the complete frames in the ring are the first answers. -/
theorem txRing_of_run (Q : Ringbuffer N) (R : Ringbuffer T)
    (respond : List UInt8 → Option (List UInt8)) (schedule : List CoreAction)
    (s : CoreState Q R)
    (hexec : exec (coreStep respond) (CoreState.init Q R) schedule = some s) :
    s.tx.ring = (answerStream respond (handled s)).take T ∧
      (s.tx.overflow = true ↔ T < (answerStream respond (handled s)).length) ∧
      ((∀ f codified, respond f = some codified → packetDelimiter ∉ codified) →
        frames packetDelimiter s.tx.ring <+: (handled s).filterMap respond) := by
  have hfilling := (transmitting_of_run hexec).filling
  exact ⟨hfilling.ring, hfilling.overflow, fun hwhole => frames_prefix_of_filling hwhole hfilling⟩

/-- Frames `7` and `8`, answered by themselves, and room for three bytes: the second
answer loses its delimiter. -/
def echoSchedule : List CoreAction :=
  [.irq 7, .uart, .uart, .irq 0, .uart, .uart, .uart, .irq 8, .uart, .uart, .irq 0, .uart, .uart,
    .uart] ++ List.replicate 8 .core1

theorem txRing_echoSchedule :
    ∃ s, exec (coreStep some) (CoreState.init (fifo 4) (fifo 3)) echoSchedule = some s ∧
      handled s = [[7], [8]] ∧ s.tx.ring = [7, 0, 8] ∧ s.tx.overflow = true ∧
      s.tx.ring = (answerStream some (handled s)).take 3 := by
  refine ⟨(exec (coreStep some) (CoreState.init (fifo 4) (fifo 3)) echoSchedule).get
    (by decide), by simp, by decide, by decide, by decide, ?_⟩
  exact (txRing_of_run (fifo 4) (fifo 3) some echoSchedule _ (by simp)).1

/-- Core 1 has never had a frame in hand. -/
structure Silent (s : CoreState Q R) : Prop where
  unfed : Unfed s.rx
  tx : s.tx = FrameWaiter.init R true
  idle : ∀ f, s.core1 ≠ .responding f

theorem silent_core1 {s t : CoreState Q R} (hs : Silent s)
    (hstep : coreStep respond s .core1 = some t) : Silent t := by
  have hunfed := unfed_core1 hs.unfed hstep
  cases core1_outcome hstep with
  | polled => exact ⟨hunfed, hs.tx, by simp⟩
  | progressed => exact ⟨hunfed, hs.tx, hs.idle⟩
  | returned pc r w =>
      refine ⟨hunfed, hs.tx, ?_⟩
      simp [hunfed.returned r (by simp)]
  | responded f tx event hresponding => exact absurd hresponding (hs.idle f)
  | woke => exact ⟨hunfed, hs.tx, by simp⟩
  | slept => exact ⟨hunfed, hs.tx, by simp⟩

/-- Core 0 works on another waiter. -/
theorem silent_firmwareStep {s t : FirmwareState Q R} {a : CoreAction}
    (hs : Silent (s.view .core1)) (hstep : firmwareStep linkage respond s a = some t) :
    Silent (t.view .core1) := by
  have hunfed := unfed_firmwareStep (s := s) hs.unfed hstep
  obtain ⟨c, hcore, rfl⟩ := Option.map_eq_some_iff.mp hstep
  cases a with
  | irq byte =>
      obtain ⟨rx, -, rfl⟩ := Option.map_eq_some_iff.mp hcore
      exact ⟨hunfed, hs.tx, hs.idle⟩
  | uart =>
      obtain ⟨rx, -, rfl⟩ := Option.map_eq_some_iff.mp hcore
      exact ⟨hunfed, hs.tx, hs.idle⟩
  | core1 =>
      rw [show instanceOf linkage (unitOf .core1) = .core1 from rfl, view_store]
      exact silent_core1 hs hcore

/-- As the firmware is linked, Core 1 is never given a frame and transmits nothing,
whatever arrives and however frames are to be answered. -/
theorem silent_of_run (Q : Ringbuffer N) (R : Ringbuffer T)
    (respond : List UInt8 → Option (List UInt8)) (schedule : List CoreAction)
    (s : FirmwareState Q R)
    (hexec : exec (firmwareStep linkage respond) (FirmwareState.init Q R) schedule = some s) :
    s.tx.ring = [] ∧ ∀ r ∈ results linkage s, r.status = .incompleteFrame := by
  have hinit : Silent ((FirmwareState.init Q R).view .core1) :=
    ⟨unfed_init true, rfl, by simp [FirmwareState.view, FirmwareState.init]⟩
  have hs : Silent (s.view .core1) :=
    exec_stable (I := fun s : FirmwareState Q R => Silent (s.view .core1))
      (fun _ _ _ hs hstep => silent_firmwareStep hs hstep) hinit hexec
  refine ⟨?_, hs.unfed.returned⟩
  rw [show s.tx = FrameWaiter.init R true from hs.tx]
  exact FrameWaiter.ring_init true

/-- One frame of one byte arrives on Core 0, and Core 1 would answer every frame. -/
theorem silent_feedThenPoll :
    ∃ s, exec (firmwareStep linkage some)
        (FirmwareState.init (fifo rxBufferSize) (fifo txBufferSize)) (feedThenPoll [7, 0]) =
          some s ∧
      received linkage s = [7, 0] ∧ (results linkage s).length = 1 ∧ s.tx.ring = [] := by
  refine ⟨(exec (firmwareStep linkage some)
    (FirmwareState.init (fifo rxBufferSize) (fifo txBufferSize)) (feedThenPoll [7, 0])).get
      (by decide), by simp, by decide, by decide, ?_⟩
  exact (silent_of_run (fifo rxBufferSize) (fifo txBufferSize) some (feedThenPoll [7, 0]) _
    (by simp)).1

end EasyLoRa.CoreTransmit
