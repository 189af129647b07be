import EasyLoRa.CoreReceive

namespace EasyLoRa.ReceiveWedge

open EasyLoRa.ByteQueue
open EasyLoRa.FrameWaiterModel
open EasyLoRa.FrameWaiterOutcomes
open EasyLoRa.FrameWaiterSteps
open EasyLoRa.CoreReceive
open EasyLoRa.TransitionSystem

variable {N T : Nat} {Q : Ringbuffer N} {R : Ringbuffer T}
variable {respond : List UInt8 → Option (List UInt8)}

/-- Core 1 is blocked in `__wfe`, nothing is about to wake it, and the ring is full. -/
def Wedged (s : CoreState Q R) : Prop :=
  s.core1 = .asleep ∧ Unsignalled s ∧ s.rx.waiter.ring.length = N

instance (s : CoreState Q R) : Decidable (Wedged s) :=
  inferInstanceAs (Decidable (_ ∧ _))

/-- Core 1 removes another byte before it can sleep, if there is one. -/
def Looking (s : CoreState Q R) : Prop :=
  match s.core1, s.rx.reading with
  | .polling, _ => True
  | .responding _, _ => True
  | .reading, some (.removing _ _) => True
  | .reading, some (.dropping _ _) => True
  | .reading, some (.exchanging _) => s.rx.waiter.overflow = true
  | _, _ => False

instance (s : CoreState Q R) : Decidable (Looking s) := by
  unfold Looking
  split <;> infer_instance

/-- No insert fills the ring with a byte inside a frame while no event is set and
Core 1 has stopped looking. -/
def LeavesRoom (s : CoreState Q R) : CoreAction → Prop
  | .uart =>
      ∀ byte ∈ (s.rx.feeding.filter fun call => call.2 = .inserting).map Prod.fst,
        byte ≠ packetDelimiter → s.rx.waiter.ring.length + 1 = N → s.event = false → Looking s
  | _ => True

instance (s : CoreState Q R) : ∀ a, Decidable (LeavesRoom s a)
  | .irq _ => inferInstanceAs (Decidable True)
  | .uart => inferInstanceAs (Decidable (∀ byte ∈ Option.map _ _, _))
  | .core1 => inferInstanceAs (Decidable True)

structure Awake (s : CoreState Q R) : Prop where
  callback : s.rx.waiter.callback = true
  looking : Unsignalled s → s.rx.waiter.ring.length = N → Looking s

theorem not_wedged_of_awake {s : CoreState Q R} (hs : Awake s) : ¬ Wedged s := by
  rintro ⟨hcore, hunsignalled, hring⟩
  have hlooking := hs.looking hunsignalled hring
  simp only [Looking, hcore] at hlooking

theorem awake_init : Awake (CoreState.init Q R) := ⟨rfl, fun _ _ => trivial⟩

theorem looking_mono {s t : CoreState Q R} (hcore : t.core1 = s.core1)
    (hreading : t.rx.reading = s.rx.reading)
    (hoverflow : s.rx.waiter.overflow = true → t.rx.waiter.overflow = true)
    (hs : Looking s) : Looking t := by
  unfold Looking at hs ⊢
  rw [hcore, hreading]
  split at hs
  · trivial
  · trivial
  · trivial
  · trivial
  · exact hoverflow hs
  · exact hs

theorem awake_irq {s t : CoreState Q R} {byte : UInt8} (hs : Awake s)
    (hstep : coreStep respond s (.irq byte) = some t) : Awake t := by
  obtain ⟨hfeeding, rfl⟩ := irq_outcome hstep
  constructor
  · exact hs.callback
  · intro hunsignalled hring
    exact looking_mono rfl rfl id (hs.looking ⟨hunsignalled.1, by simp [hfeeding]⟩ hring)

theorem awake_uart {s t : CoreState Q R} (hs : Awake s) (hroom : LeavesRoom s .uart)
    (hstep : coreStep respond s .uart = some t) : Awake t := by
  obtain ⟨houtcome, hcore, hreading, -, hcallback⟩ := uart_outcome hs.callback hstep
  constructor
  · exact hcallback
  · intro hunsignalled hring
    cases houtcome with
    | unsignalling hfeeding hevent hring' hoverflow =>
        rw [hring'] at hring
        exact looking_mono hcore hreading hoverflow
          (hs.looking ⟨hevent ▸ hunsignalled.1, hfeeding⟩ hring)
    | inserted byte hbyte hfeeding hevent hring' hoverflow =>
        rw [hring', List.length_append, List.length_singleton] at hring
        have hlooking : Looking s :=
          hroom byte (by simp [hfeeding]) hbyte hring (hevent ▸ hunsignalled.1)
        exact looking_mono hcore hreading (by simp [hoverflow]) hlooking
    | signalling h => exact absurd hunsignalled h

theorem looking_of_progressed (hN : 0 < N) {s : CoreState Q R} {pc pc' : ReadPc}
    {w : FrameWaiter Q} (hcore : s.core1 = .reading)
    (hread : ReadStepOutcome s.rx.waiter pc (w, .inl pc')) (hring : w.ring.length = N) :
    Looking { s with rx := { s.rx with waiter := w, reading := some pc' } } := by
  cases hread with
  | ranEmpty out cap hempty =>
      rw [hempty, List.length_nil] at hring
      omega
  | assembled => simp [Looking, hcore]
  | filled => simp [Looking, hcore]
  | overflowed => simp [Looking, hcore]
  | droppedByte => simp [Looking, hcore]

theorem length_ring_of_returned (hN : 0 < N) {s : CoreState Q R} {pc : ReadPc}
    {w : FrameWaiter Q} {r : ReadResult} (hcore : s.core1 = .reading)
    (hreading : s.rx.reading = some pc)
    (hread : ReadStepOutcome s.rx.waiter pc (w, .inr r))
    (hlooking : s.rx.waiter.ring.length = N → Looking s) : w.ring.length ≠ N := by
  have hle := s.rx.waiter.length_ring_le
  intro hfull
  cases hread with
  | rejected out cap buffer hring =>
      rw [hring, List.length_cons] at hle
      simp only [ring_mk] at hfull
      omega
  | delivered out cap buffer hring =>
      rw [hring, List.length_cons] at hle
      simp only [ring_mk] at hfull
      omega
  | unfinished out hoverflow =>
      have hlook := hlooking hfull
      simp [Looking, hcore, hreading, hoverflow] at hlook
  | droppedAll out status hring =>
      simp only [ring_mk, contents_buffer, hring, List.length_nil] at hfull
      omega
  | droppedFrame out status buffer hring =>
      rw [hring, List.length_cons] at hle
      simp only [ring_mk] at hfull
      omega

theorem awake_core1 (hN : 0 < N) {s t : CoreState Q R} (hs : Awake s)
    (hstep : coreStep respond s .core1 = some t) : Awake t := by
  cases core1_outcome hstep with
  | polled hcore => exact ⟨hs.callback, fun _ _ => trivial⟩
  | progressed pc pc' w hcore hreading hread =>
      constructor
      · exact hread.callback_eq.trans hs.callback
      · intro _ hring
        exact looking_of_progressed hN hcore hread hring
  | returned pc r w hcore hreading hread =>
      constructor
      · exact hread.callback_eq.trans hs.callback
      · intro hunsignalled hring
        exact absurd hring
          (length_ring_of_returned hN hcore hreading hread (hs.looking hunsignalled))
  | responded receivedFrame tx event hcore => exact ⟨hs.callback, fun _ _ => trivial⟩
  | woke => exact ⟨hs.callback, fun _ _ => trivial⟩
  | slept hcore hevent =>
      constructor
      · exact hs.callback
      · intro hunsignalled hring
        have hlooking := hs.looking hunsignalled hring
        simp only [Looking, hcore] at hlooking

theorem awake_step (hN : 0 < N) {s t : CoreState Q R} {a : CoreAction} (hs : Awake s)
    (hroom : LeavesRoom s a) (hstep : coreStep respond s a = some t) : Awake t := by
  cases a with
  | irq byte => exact awake_irq hs hstep
  | uart => exact awake_uart hs hroom hstep
  | core1 => exact awake_core1 hN hs hstep

/-- The receive path never wedges in a run whose inserts all leave room. -/
theorem not_wedged_of_leavesRoom (Q : Ringbuffer N) (R : Ringbuffer T)
    (respond : List UInt8 → Option (List UInt8)) (hN : 0 < N) (schedule : List CoreAction)
    (s : CoreState Q R)
    (hmeets : Meets (coreStep respond) LeavesRoom (CoreState.init Q R) schedule)
    (hexec : exec (coreStep respond) (CoreState.init Q R) schedule = some s) : ¬ Wedged s :=
  not_wedged_of_awake (exec_invariant (I := Awake)
    (fun _ _ _ hs hroom hstep => awake_step hN hs hroom hstep) awake_init hmeets hexec)

/-- No step of either side leaves the wedged state: every byte is lost, and no
callback fires. -/
theorem wedged_step {s t : CoreState Q R} {a : CoreAction} (hs : Wedged s)
    (hstep : coreStep respond s a = some t) : Wedged t := by
  obtain ⟨hcore, ⟨hevent, hfeeding⟩, hring⟩ := hs
  cases a with
  | irq byte =>
      obtain ⟨-, rfl⟩ := irq_outcome hstep
      exact ⟨hcore, ⟨hevent, by simp⟩, hring⟩
  | uart =>
      simp only [coreStep, Option.map_eq_some_iff] at hstep
      obtain ⟨rx, hrx, rfl⟩ := hstep
      obtain ⟨byte, pc, w, next, called, hcall, houtcome, rfl⟩ := produce_outcome hrx
      have hfull : ∀ buffer : Q.Buffer, Q.contents buffer ≠ s.rx.waiter.ring ++ [byte] := by
        intro buffer hbuffer
        have hroom := room_of_contents hbuffer
        omega
      cases houtcome with
      | inserted buffer hbuffer => exact absurd hbuffer (hfull buffer)
      | insertedEnd buffer hbuffer => exact absurd hbuffer (hfull buffer)
      | called => simp [hcall] at hfeeding
      | _ => exact ⟨hcore, ⟨by simpa using hevent, by simp⟩, hring⟩
  | core1 => simp [coreStep, core1Step, hcore, hevent] at hstep

theorem wedged_exec {s t : CoreState Q R} {schedule : List CoreAction} (hs : Wedged s)
    (hexec : exec (coreStep respond) s schedule = some t) : Wedged t :=
  exec_stable (I := Wedged) (fun _ _ _ hs hstep => wedged_step hs hstep) hs hexec

/-- Core 1 goes to sleep on an empty ring of two bytes, then the frame `1 2 0`
arrives. -/
def fillingSchedule : List CoreAction :=
  [.core1, .core1, .core1, .core1, .irq 1, .uart, .uart, .irq 2, .uart, .uart,
    .irq 0, .uart, .uart, .uart, .uart]

/-- The frame fills the ring before its delimiter, and nobody wakes Core 1. -/
theorem wedged_fillingSchedule :
    ∃ s, exec (coreStep fun _ => none) (CoreState.init (fifo 2) (fifo 2)) fillingSchedule =
        some s ∧ s.rx.finished = [1, 2, 0] ∧ Wedged s := by
  refine ⟨(exec (coreStep fun _ => none) (CoreState.init (fifo 2) (fifo 2))
    fillingSchedule).get (by decide), by simp, ?_, ?_⟩ <;> decide

/-- The frame fills the ring while Core 1 is about to poll. -/
def drainingSchedule : List CoreAction :=
  [.irq 1, .uart, .uart, .irq 2, .uart, .uart, .irq 0, .uart, .uart, .uart, .uart,
    .core1, .core1, .core1, .core1, .core1, .core1, .core1]

set_option maxRecDepth 2000 in
theorem not_wedged_drainingSchedule :
    ∃ s, exec (coreStep fun _ => none) (CoreState.init (fifo 2) (fifo 2)) drainingSchedule =
        some s ∧ s.rx.finished = [1, 2, 0] ∧ s.rx.waiter.ring = [] ∧ ¬ Wedged s := by
  refine ⟨(exec (coreStep fun _ => none) (CoreState.init (fifo 2) (fifo 2))
    drainingSchedule).get (by decide), by simp, by decide, by decide, ?_⟩
  exact not_wedged_of_leavesRoom (fifo 2) (fifo 2) (fun _ => none) (by decide) drainingSchedule
    _ (by decide) (by simp)

end EasyLoRa.ReceiveWedge
