import EasyLoRa.CoreReceive

namespace EasyLoRa.ReceiveWakeup

open EasyLoRa.ByteQueue
open EasyLoRa.DelimitedFrames
open EasyLoRa.FrameWaiterModel
open EasyLoRa.FrameWaiterOutcomes
open EasyLoRa.FrameWaiterSteps
open EasyLoRa.CoreReceive
open EasyLoRa.TransitionSystem

variable {N T : Nat} {Q : Ringbuffer N} {R : Ringbuffer T}
variable {respond : List UInt8 → Option (List UInt8)}

/-- Core 1 is blocked in `__wfe`, nothing is about to wake it, and the ring holds
the end of a frame. -/
def Forgotten (s : CoreState Q R) : Prop :=
  s.core1 = .asleep ∧ Unsignalled s ∧ packetDelimiter ∈ s.rx.waiter.ring

instance (s : CoreState Q R) : Decidable (Forgotten s) :=
  inferInstanceAs (Decidable (_ ∧ _))

/-- A complete frame longer than `N` bytes has no other complete frame behind it. -/
def FirstFits (N : Nat) (unread : List UInt8) : Prop :=
  ∀ f ∈ (frames packetDelimiter unread).head?,
    1 < (frames packetDelimiter unread).length → f.length ≤ N

instance (N : Nat) (unread : List UInt8) : Decidable (FirstFits N unread) :=
  inferInstanceAs (Decidable (∀ f ∈ List.head? _, _))

/-- No call of `tryReadFrame` begins, while no event is set, on an oversize frame
with another frame behind it. -/
def PollsFitting (s : CoreState Q R) : CoreAction → Prop
  | .core1 => s.core1 = .polling → Unsignalled s → FirstFits N s.rx.waiter.unread
  | _ => True

instance (s : CoreState Q R) (a : CoreAction) : Decidable (PollsFitting s a) := by
  induction a using CoreAction.casesOn <;> dsimp only [PollsFitting] <;> infer_instance

/-- What is left in the ring at each point of Core 1's loop while nothing wakes
it: before it sleeps, no frame end that the call in progress does not reach. -/
def Reaches (s : CoreState Q R) : Prop :=
  match s.core1, s.rx.reading with
  | .polling, _ => True
  | .responding _, _ => True
  | .reading, some (.removing _ _) => FirstFits N s.rx.waiter.unread
  | .reading, some (.dropping _ _) => s.rx.waiter.ring.count packetDelimiter ≤ 1
  | _, _ => packetDelimiter ∉ s.rx.waiter.ring

structure Served (s : CoreState Q R) : Prop where
  callback : s.rx.waiter.callback = true
  pending : packetDelimiter ∉ s.rx.waiter.pending
  capacity : ∀ out cap, s.rx.reading = some (.removing out cap) → cap = N
  reaches : Unsignalled s → Reaches s

theorem not_forgotten_of_served {s : CoreState Q R} (hs : Served s) : ¬ Forgotten s := by
  rintro ⟨hcore, hunsignalled, hring⟩
  have hreaches := hs.reaches hunsignalled
  simp only [Reaches, hcore] at hreaches
  exact hreaches hring

theorem served_init : Served (CoreState.init Q R) :=
  ⟨rfl, by simp [CoreState.init, StepState.init], by simp [CoreState.init, StepState.init],
    fun _ => trivial⟩

theorem firstFits_concat {unread : List UInt8} {byte : UInt8} (hbyte : byte ≠ packetDelimiter)
    (h : FirstFits N unread) : FirstFits N (unread ++ [byte]) := by
  unfold FirstFits at h ⊢
  rwa [frames_concat_of_ne hbyte]

/-- The byte that overfills the pending frame belongs to the last complete frame. -/
theorem count_le_one_of_filled {f rest : List UInt8} (hf : packetDelimiter ∉ f)
    (hlen : N < f.length) (h : FirstFits N (f ++ rest)) :
    rest.count packetDelimiter ≤ 1 := by
  by_contra hcount
  have hmem : packetDelimiter ∈ rest := List.count_pos_iff.mp (by omega)
  obtain ⟨g, xs, rfl, hg⟩ := List.eq_append_cons_of_mem hmem
  have hfg : packetDelimiter ∉ f ++ g := by simp [hf, hg]
  have hframes : frames packetDelimiter (f ++ (g ++ packetDelimiter :: xs)) =
      (f ++ g) :: frames packetDelimiter xs := by
    rw [← List.append_assoc, frames_frame_append hfg]
  have hxs : 0 < (frames packetDelimiter xs).length := by
    rw [length_frames]
    simp only [List.count_append, List.count_cons_self,
      List.count_eq_zero_of_not_mem hg] at hcount
    omega
  have hle := h (f ++ g) (by simp [hframes]) (by simpa [hframes] using hxs)
  rw [List.length_append] at hle
  omega

theorem reaches_of_uart {s t : CoreState Q R} (hcore : t.core1 = s.core1)
    (hreading : t.rx.reading = s.rx.reading)
    (hpending : t.rx.waiter.pending = s.rx.waiter.pending)
    (hring : t.rx.waiter.ring = s.rx.waiter.ring ∨
      ∃ byte ≠ packetDelimiter, t.rx.waiter.ring = s.rx.waiter.ring ++ [byte])
    (hs : Reaches s) : Reaches t := by
  have hunread : FirstFits N s.rx.waiter.unread → FirstFits N t.rx.waiter.unread := by
    intro h
    rcases hring with hring | ⟨byte, hbyte, hring⟩
    · rwa [FrameWaiter.unread, hpending, hring]
    · rw [FrameWaiter.unread, hpending, hring, ← List.append_assoc]
      exact firstFits_concat hbyte h
  have hcount : t.rx.waiter.ring.count packetDelimiter =
      s.rx.waiter.ring.count packetDelimiter := by
    rcases hring with hring | ⟨byte, hbyte, hring⟩ <;> simp [*]
  unfold Reaches at hs ⊢
  rw [hcore, hreading]
  split at hs
  · trivial
  · trivial
  · exact hunread hs
  · simpa only [hcount] using hs
  · rwa [← List.count_eq_zero, hcount, List.count_eq_zero]

theorem served_irq {s t : CoreState Q R} {byte : UInt8} (hs : Served s)
    (hstep : coreStep respond s (.irq byte) = some t) : Served t := by
  obtain ⟨hfeeding, rfl⟩ := irq_outcome hstep
  refine ⟨hs.callback, hs.pending, hs.capacity, fun hunsignalled => ?_⟩
  exact hs.reaches ⟨hunsignalled.1, by simp [hfeeding]⟩

theorem served_uart {s t : CoreState Q R} (hs : Served s)
    (hstep : coreStep respond s .uart = some t) : Served t := by
  obtain ⟨houtcome, hcore, hreading, hpending, hcallback⟩ := uart_outcome hs.callback hstep
  refine ⟨hcallback, hpending ▸ hs.pending, hreading ▸ hs.capacity, fun hunsignalled => ?_⟩
  cases houtcome with
  | unsignalling hfeeding hevent hring hoverflow =>
      exact reaches_of_uart hcore hreading hpending (Or.inl hring)
        (hs.reaches ⟨hevent ▸ hunsignalled.1, hfeeding⟩)
  | inserted byte hbyte hfeeding hevent hring hoverflow =>
      exact reaches_of_uart hcore hreading hpending (Or.inr ⟨byte, hbyte, hring⟩)
        (hs.reaches ⟨hevent ▸ hunsignalled.1, by simp [hfeeding]⟩)
  | signalling h => exact absurd hunsignalled h

theorem served_progressed {s : CoreState Q R} {pc pc' : ReadPc} {w : FrameWaiter Q}
    (hs : Served s) (hcore : s.core1 = .reading) (hreading : s.rx.reading = some pc)
    (hread : ReadStepOutcome s.rx.waiter pc (w, .inl pc')) :
    Served { s with rx := { s.rx with waiter := w, reading := some pc' } } := by
  have hreaches := hs.reaches
  simp only [Reaches, hcore, hreading] at hreaches
  refine ⟨hread.callback_eq.trans hs.callback, ?_, ?_, fun hunsignalled => ?_⟩
  · cases hread with
    | assembled out cap byte buffer hbyte hring hsize =>
        simpa using not_mem_concat hs.pending hbyte
    | _ => exact hs.pending
  · cases hread with
    | assembled out cap byte buffer hbyte hring hsize =>
        rintro out' cap' heq
        obtain ⟨rfl, rfl⟩ := ReadPc.removing.inj (Option.some.inj heq)
        exact hs.capacity out cap hreading
    | _ => simp
  · have hreaches := hreaches hunsignalled
    simp only [Reaches, hcore]
    cases hread with
    | ranEmpty out cap hring => simp [hring]
    | assembled out cap byte buffer hbyte hring hsize =>
        simpa [FrameWaiter.unread, hring] using hreaches
    | filled out cap byte buffer hbyte hring hsize =>
        refine count_le_one_of_filled (N := N) (f := s.rx.waiter.pending ++ [byte]) ?_ ?_ ?_
        · simpa using not_mem_concat hs.pending hbyte
        · simp [hsize]
        · simpa [FrameWaiter.unread, hring] using hreaches
    | overflowed out hoverflow =>
        simp [List.count_eq_zero_of_not_mem hreaches]
    | droppedByte out status byte buffer hbyte hring =>
        simpa [hring, hbyte] using hreaches

theorem served_returned {s : CoreState Q R} {pc : ReadPc} {w : FrameWaiter Q} {r : ReadResult}
    (hs : Served s) (hcore : s.core1 = .reading) (hreading : s.rx.reading = some pc)
    (hread : ReadStepOutcome s.rx.waiter pc (w, .inr r)) :
    Served { s with
      rx := { s.rx with waiter := w, reading := none, returned := s.rx.returned ++ [r] }
      receivedFrameCodifiedBuffer := r.outputBuffer.getD []
      core1 := if r.status = .ok then .responding r.payload else .waiting } := by
  have hreaches := hs.reaches
  simp only [Reaches, hcore, hreading] at hreaches
  refine ⟨hread.callback_eq.trans hs.callback, ?_, by simp, fun hunsignalled => ?_⟩
  · cases hread with
    | unfinished => exact hs.pending
    | _ => simp
  · have hreaches := hreaches hunsignalled
    cases hread with
    | rejected out cap buffer hring hcap =>
        obtain rfl := hs.capacity out cap hreading
        exact absurd s.rx.waiter.length_pending_le (Nat.not_le.mpr hcap)
    | delivered out cap buffer hring hcap => trivial
    | unfinished out hoverflow => exact hreaches
    | droppedAll out status hring =>
        by_cases hok : status = .ok <;> simp [Reaches, returnEmpty, hok, hring]
    | droppedFrame out status buffer hring =>
        rw [hring, List.count_cons_self] at hreaches
        have hrest : packetDelimiter ∉ Q.contents buffer :=
          List.count_eq_zero.mp (Nat.le_zero.mp (Nat.le_of_succ_le_succ hreaches))
        by_cases hok : status = .ok <;> simp [Reaches, returnEmpty, hok, hrest]

theorem served_core1 {s t : CoreState Q R} (hs : Served s) (hpolls : PollsFitting s .core1)
    (hstep : coreStep respond s .core1 = some t) : Served t := by
  cases core1_outcome hstep with
  | polled hcore =>
      refine ⟨hs.callback, hs.pending, ?_, fun hunsignalled => hpolls hcore hunsignalled⟩
      rintro out cap heq
      exact (ReadPc.removing.inj (Option.some.inj heq)).2.symm
  | progressed pc pc' w hcore hreading hread => exact served_progressed hs hcore hreading hread
  | returned pc r w hcore hreading hread => exact served_returned hs hcore hreading hread
  | responded receivedFrame tx event hcore =>
      exact ⟨hs.callback, hs.pending, hs.capacity, fun _ => trivial⟩
  | woke => exact ⟨hs.callback, hs.pending, hs.capacity, fun _ => trivial⟩
  | slept hcore hevent =>
      refine ⟨hs.callback, hs.pending, hs.capacity, fun hunsignalled => ?_⟩
      have hreaches := hs.reaches hunsignalled
      simp only [Reaches, hcore] at hreaches
      exact hreaches

theorem served_step {s t : CoreState Q R} {a : CoreAction} (hs : Served s)
    (hpolls : PollsFitting s a) (hstep : coreStep respond s a = some t) : Served t := by
  cases a with
  | irq byte => exact served_irq hs hstep
  | uart => exact served_uart hs hstep
  | core1 => exact served_core1 hs hpolls hstep

/-- No wake-up is lost in a run whose polls never begin on an oversize frame with
another one behind it. -/
theorem not_forgotten_of_pollsFitting (Q : Ringbuffer N) (R : Ringbuffer T)
    (respond : List UInt8 → Option (List UInt8)) (schedule : List CoreAction)
    (s : CoreState Q R)
    (hmeets : Meets (coreStep respond) PollsFitting (CoreState.init Q R) schedule)
    (hexec : exec (coreStep respond) (CoreState.init Q R) schedule = some s) :
    ¬ Forgotten s :=
  not_forgotten_of_served (exec_invariant (I := Served)
    (fun _ _ _ hs hpolls hstep => served_step hs hpolls hstep) served_init hmeets hexec)

def receive (byte : UInt8) : List CoreAction :=
  .irq byte :: List.replicate (if byte = packetDelimiter then 3 else 2) .uart

/-- Bytes `0 1 2 3 4 5 0 6 0` in a ring of four bytes: Core 1 takes `1 2 3 4` out
while the event of the first frame is still set, and finds the rest of that
frame at its next poll. -/
def oversizeSchedule : List CoreAction :=
  receive 0 ++ List.replicate 4 .core1 ++ [1, 2, 3, 4].flatMap receive ++
    List.replicate 6 .core1 ++ [5, 0, 6, 0].flatMap receive ++ List.replicate 5 .core1

theorem forgotten_oversizeSchedule :
    ∃ s, exec (coreStep fun _ => none) (CoreState.init (fifo 4) (fifo 4)) oversizeSchedule =
        some s ∧ s.rx.finished = [0, 1, 2, 3, 4, 5, 0, 6, 0] ∧ s.rx.waiter.ring = [6, 0] ∧
      Forgotten s := by
  refine ⟨(exec (coreStep fun _ => none) (CoreState.init (fifo 4) (fifo 4))
    oversizeSchedule).get (by decide), by simp, ?_, ?_, ?_⟩ <;> decide

def fittingSchedule : List CoreAction :=
  receive 0 ++ List.replicate 4 .core1 ++ [1, 2, 3, 4].flatMap receive ++
    List.replicate 6 .core1 ++ [0, 6, 0].flatMap receive ++ List.replicate 5 .core1

theorem not_forgotten_fittingSchedule :
    ∃ s, exec (coreStep fun _ => none) (CoreState.init (fifo 4) (fifo 4)) fittingSchedule =
        some s ∧ s.rx.finished = [0, 1, 2, 3, 4, 0, 6, 0] ∧ ¬ Forgotten s := by
  refine ⟨(exec (coreStep fun _ => none) (CoreState.init (fifo 4) (fifo 4))
    fittingSchedule).get (by decide), by simp, by decide, ?_⟩
  exact not_forgotten_of_pollsFitting (fifo 4) (fifo 4) (fun _ => none) fittingSchedule _
    (by decide) (by simp)

end EasyLoRa.ReceiveWakeup
