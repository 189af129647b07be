import EasyLoRa.CoreTransmit
import EasyLoRa.ReceiveWakeup

namespace EasyLoRa.CoreAnswers

open EasyLoRa.ByteQueue
open EasyLoRa.DelimitedFrames
open EasyLoRa.FrameWaiterModel
open EasyLoRa.FrameWaiterOutcomes
open EasyLoRa.FrameWaiterCalls
open EasyLoRa.FrameWaiterSteps
open EasyLoRa.FrameDelivery
open EasyLoRa.CoreReceive
open EasyLoRa.CoreTransmit
open EasyLoRa.ReceiveWakeup
open EasyLoRa.TransitionSystem

variable {N T : Nat} {Q : Ringbuffer N} {R : Ringbuffer T}
variable {respond : List UInt8 → Option (List UInt8)}

/-- No insert into the Rx ring fails. -/
def RxFits (s : CoreState Q R) : CoreAction → Prop
  | .uart => s.rx.feeding.map Prod.snd = some .inserting → s.rx.waiter.ring.length < N
  | _ => True

instance (s : CoreState Q R) (a : CoreAction) : Decidable (RxFits s a) := by
  induction a using CoreAction.casesOn <;> dsimp only [RxFits] <;> infer_instance

/-- The step of the Rx waiter in a step of the firmware, if there is one. -/
theorem rx_outcome {s t : CoreState Q R} {a : CoreAction}
    (hstep : coreStep respond s a = some t) :
    t.rx = s.rx ∨ ∃ b, step s.rx b = some t.rx ∧ (RxFits s a → Undisturbed N s.rx b) := by
  cases a with
  | irq byte =>
      simp only [coreStep, Option.map_eq_some_iff] at hstep
      obtain ⟨rx, hrx, rfl⟩ := hstep
      exact Or.inr ⟨.feed byte, hrx, fun _ => trivial⟩
  | uart =>
      simp only [coreStep, Option.map_eq_some_iff] at hstep
      obtain ⟨rx, hrx, rfl⟩ := hstep
      exact Or.inr ⟨.produce, hrx, id⟩
  | core1 =>
      cases hcore : s.core1 with
      | polling =>
          simp only [coreStep, core1Step, hcore, Option.map_eq_some_iff] at hstep
          obtain ⟨rx, hrx, rfl⟩ := hstep
          exact Or.inr ⟨_, hrx, fun _ => ⟨rfl, Nat.le_refl N⟩⟩
      | reading =>
          simp only [coreStep, core1Step, hcore, Option.map_eq_some_iff] at hstep
          obtain ⟨rx, hrx, rfl⟩ := hstep
          refine Or.inr ⟨.consume, ?_, fun _ => trivial⟩
          rw [hrx]
          split <;> rfl
      | responding f => exact Or.inl (core1_responding hcore hstep).1
      | waiting =>
          simp only [coreStep, core1Step, hcore] at hstep
          split at hstep <;> exact Or.inl (Option.some.inj hstep ▸ rfl)
      | asleep =>
          simp only [coreStep, core1Step, hcore] at hstep
          split at hstep
          · exact Or.inl (Option.some.inj hstep ▸ rfl)
          · contradiction

theorem started_prefix_core {s t : CoreState Q R} {a : CoreAction}
    (hstep : coreStep respond s a = some t) : s.rx.started <+: t.rx.started := by
  rcases rx_outcome hstep with hrx | ⟨b, hrx, -⟩
  · rw [hrx]
  · exact started_prefix_step hrx

/-- Where all frames fit, so does the first one that is not read yet. -/
theorem firstFits_of_delivering {rx : StepState Q} (hdelivering : Delivering N rx)
    (hfits : Fits N N rx.started) : FirstFits N rx.waiter.unread := by
  intro f hf _
  have hstream := fits_of_isPrefix (stream_prefix_started hdelivering) hfits
  refine (hstream.1 f ?_).1
  rw [frames_stream hdelivering]
  exact List.mem_append_right _ (List.mem_of_mem_head? hf)

/-- The frames arrive undamaged, none is forgotten, and the answers are in the Tx
waiter. -/
structure Answering (respond : List UInt8 → Option (List UInt8)) (s : CoreState Q R) :
    Prop where
  delivering : Delivering N s.rx
  served : Served s
  transmitting : Transmitting respond s

theorem answering_init : Answering respond (CoreState.init Q R) :=
  ⟨delivering_init N, served_init, transmitting_init⟩

theorem answering_step {s t : CoreState Q R} {a : CoreAction} (hs : Answering respond s)
    (hcondition : RxFits s a) (hfits : Fits N N t.rx.started)
    (hstep : coreStep respond s a = some t) : Answering respond t := by
  have hbefore : Fits N N s.rx.started := fits_of_isPrefix (started_prefix_core hstep) hfits
  refine ⟨?_, ?_, (transmitting_step hs.transmitting hstep).2⟩
  · rcases rx_outcome hstep with hrx | ⟨b, hrx, hundisturbed⟩
    · rw [hrx]
      exact hs.delivering
    · exact delivering_step (fun _ => hs.delivering) (hundisturbed hcondition) hrx hfits
  · refine served_step hs.served ?_ hstep
    cases a with
    | irq byte => trivial
    | uart => trivial
    | core1 => exact fun _ _ => firstFits_of_delivering hs.delivering hbefore

theorem answering_of_run {schedule : List CoreAction} {s : CoreState Q R}
    (hfits : Fits N N s.rx.started)
    (hmeets : Meets (coreStep respond) RxFits (CoreState.init Q R) schedule)
    (hexec : exec (coreStep respond) (CoreState.init Q R) schedule = some s) :
    Answering respond s :=
  exec_invariant (I := fun s : CoreState Q R => Fits N N s.rx.started → Answering respond s)
    (fun _ _ _ hs hcondition hstep hfits =>
      answering_step (hs (fits_of_isPrefix (started_prefix_core hstep) hfits)) hcondition hfits
        hstep)
    (fun _ => answering_init) hmeets hexec hfits

theorem handled_prefix_delivered {s : CoreState Q R} (hs : Transmitting respond s) :
    handled s <+: delivered s.rx.returned := by
  by_cases hresponding : ∃ f, s.core1 = .responding f
  · obtain ⟨f, hcore⟩ := hresponding
    rw [delivered_of_responding hs hcore]
    exact List.prefix_append _ _
  · rw [handled_of_not_responding fun f hcore => hresponding ⟨f, hcore⟩]

theorem handled_prefix_frames {s : CoreState Q R} (hs : Answering respond s) :
    handled s <+: frames packetDelimiter s.rx.stream := by
  rw [frames_stream hs.delivering]
  exact (handled_prefix_delivered hs.transmitting).trans (List.prefix_append _ _)

/-- Core 1 is blocked in `__wfe` and nothing is about to wake it. -/
def Quiet (s : CoreState Q R) : Prop := s.core1 = .asleep ∧ Unsignalled s

instance (s : CoreState Q R) : Decidable (Quiet s) :=
  inferInstanceAs (Decidable (_ ∧ _))

theorem stream_of_quiet {s : CoreState Q R} (hs : Answering respond s) (hquiet : Quiet s) :
    s.rx.stream = s.rx.finished := by
  have hproducer := hs.delivering.producer
  have hcalling := hquiet.2.2
  unfold ProducerAgrees at hproducer
  split at hproducer
  · exact hproducer
  · exact hproducer
  · exact hproducer
  · next hfeeding => simp [hfeeding] at hcalling
  · exact hproducer.elim

theorem handled_of_quiet {s : CoreState Q R} (hs : Answering respond s) (hquiet : Quiet s) :
    handled s = frames packetDelimiter s.rx.finished := by
  have hring : packetDelimiter ∉ s.rx.waiter.ring := fun hmem =>
    not_forgotten_of_served hs.served ⟨hquiet.1, hquiet.2, hmem⟩
  have hunread : packetDelimiter ∉ s.rx.waiter.unread := by
    simpa [FrameWaiter.unread] using ⟨hs.delivering.pending, hring⟩
  rw [handled_of_not_responding (by simp [hquiet.1]), ← stream_of_quiet hs hquiet,
    frames_stream hs.delivering, frames_of_not_mem hunread, List.append_nil]

/-- Core 1 never answers out of order or twice, and when it is blocked with nothing to
wake it, every complete frame fed so far is answered in the Tx waiter. -/
theorem answered_of_run (Q : Ringbuffer N) (R : Ringbuffer T)
    (respond : List UInt8 → Option (List UInt8)) (schedule : List CoreAction)
    (s : CoreState Q R) (hfits : Fits N N s.rx.started)
    (hmeets : Meets (coreStep respond) RxFits (CoreState.init Q R) schedule)
    (hexec : exec (coreStep respond) (CoreState.init Q R) schedule = some s) :
    handled s <+: frames packetDelimiter s.rx.stream ∧
      (Quiet s →
        handled s = frames packetDelimiter s.rx.finished ∧
        s.tx.ring = (answerStream respond (frames packetDelimiter s.rx.finished)).take T) := by
  have hs := answering_of_run hfits hmeets hexec
  refine ⟨handled_prefix_frames hs, fun hquiet => ?_⟩
  have hhandled := handled_of_quiet hs hquiet
  exact ⟨hhandled, hhandled ▸ hs.transmitting.filling.ring⟩

def respondUnlessEight (f : List UInt8) : Option (List UInt8) :=
  if f = [8] then none else some (1 :: f)

/-- Frames `7`, `8` and the empty one, then an unfinished frame. There is no answer to
`8`, and Core 1 is awake when its end arrives. -/
def mixedSchedule : List CoreAction :=
  [7, 0, 8].flatMap receive ++ List.replicate 6 .core1 ++ [0, 0, 9].flatMap receive ++
    List.replicate 14 .core1

theorem answered_mixedSchedule :
    ∃ s, exec (coreStep respondUnlessEight) (CoreState.init (fifo 4) (fifo 8)) mixedSchedule =
        some s ∧
      Quiet s ∧ s.rx.finished = [7, 0, 8, 0, 0, 9] ∧ handled s = [[7], [8], []] ∧
      s.tx.ring = [1, 7, 0, 1, 0] ∧ handled s = frames packetDelimiter s.rx.finished := by
  refine ⟨(exec (coreStep respondUnlessEight) (CoreState.init (fifo 4) (fifo 8))
    mixedSchedule).get (by decide), by simp, by decide, by decide, by decide, by decide, ?_⟩
  exact ((answered_of_run (fifo 4) (fifo 8) respondUnlessEight mixedSchedule _ (by decide)
    (by decide) (by simp)).2 (by decide)).1

end EasyLoRa.CoreAnswers
