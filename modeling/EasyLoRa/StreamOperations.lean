import EasyLoRa.IndexedLists
import EasyLoRa.TransportOutcomes

namespace EasyLoRa.StreamOperations

open EasyLoRa.IndexedLists
open EasyLoRa.TransportModel
open EasyLoRa.TransportSystem
open EasyLoRa.TransportOutcomes
open EasyLoRa.TransitionSystem

/-- The element of every outstanding write is still stored in `txDeque`. -/
def KeepsBuffers (s : Transport) : Prop :=
  ∀ operation ∈ s.writes, operation.element ∈ s.txDeque

instance (s : Transport) : Decidable (KeepsBuffers s) :=
  inferInstanceAs (Decidable (∀ operation ∈ _, _))

def InterruptsIdle (s : Transport) (a : Action) : Prop :=
  interrupts s a = true → s.writes = []

instance (s : Transport) (a : Action) : Decidable (InterruptsIdle s a) :=
  inferInstanceAs (Decidable (_ → _))

/-- The outstanding write, if any, belongs to the open session and was given the
front of the queue. -/
structure OwnsBuffer (s : Transport) : Prop where
  single : s.writes.length ≤ 1
  front : ∀ operation ∈ s.writes,
    Live s operation.generation ∧ s.txDeque.head? = some operation.element

theorem keepsBuffers_of_ownsBuffer {s : Transport} (hs : OwnsBuffer s) : KeepsBuffers s :=
  fun operation hoperation => List.mem_of_head? (hs.front operation hoperation).2

theorem ownsBuffer_init : OwnsBuffer Transport.init := ⟨by decide, by decide⟩

theorem ownsBuffer_of_writes_eq_nil {s : Transport} (h : s.writes = []) : OwnsBuffer s :=
  ⟨by simp [h], by simp [h]⟩

theorem ownsBuffer_step {s t : Transport} {a : Action} (hs : OwnsBuffer s)
    (hidle : InterruptsIdle s a) (hstep : step s a = some t) : OwnsBuffer t := by
  cases step_outcome hstep with
  | openFailed i outcome config port htask hclosing =>
      exact ownsBuffer_of_writes_eq_nil (hidle (by simp [interrupts, opening, htask, hclosing]))
  | opened i outcome config htask hclosing =>
      exact ownsBuffer_of_writes_eq_nil (hidle (by simp [interrupts, opening, htask, hclosing]))
  | closed i outcome htask hclosing =>
      exact ownsBuffer_of_writes_eq_nil (hidle (by simp [interrupts, opening, htask, hclosing]))
  | queued i outcome w htask hclosing hstopped hbusy =>
      constructor
      · exact hs.single
      · intro operation hoperation
        obtain ⟨hlive, hfront⟩ := hs.front operation hoperation
        exact ⟨hlive, by simp [List.head?_append, hfront]⟩
  | started i outcome w htask hclosing hstopped hempty =>
      have hwrites : s.writes = [] := by
        refine List.eq_nil_iff_forall_not_mem.mpr fun operation hoperation => ?_
        simpa [hempty] using (hs.front operation hoperation).2
      constructor
      · simp [hwrites]
      · intro operation hoperation
        obtain rfl : operation = ⟨s.generation, w⟩ := by simpa [hwrites] using hoperation
        exact ⟨⟨hclosing, hstopped, rfl⟩, rfl⟩
  | readFailed i ec bytesRead hread hlive hsuccess hfatal =>
      exact ownsBuffer_of_writes_eq_nil
        (hidle (by simp [interrupts, hread, hlive, hsuccess, hfatal]))
  | writeIgnored i ec operation hwrite hstale =>
      exact absurd (hs.front operation (List.mem_of_getElem? hwrite)).1 hstale
  | writtenLast i operation w hwrite =>
      exact ownsBuffer_of_writes_eq_nil (eraseIdx_eq_nil hs.single hwrite)
  | writtenNext i operation w next rest hwrite hlive hqueue =>
      have hwrites := eraseIdx_eq_nil hs.single hwrite
      constructor
      · simp [hwrites]
      · intro operation hoperation
        obtain rfl : operation = ⟨s.generation, next⟩ := by simpa [hwrites] using hoperation
        exact ⟨⟨hlive.1, hlive.2.1, rfl⟩, rfl⟩
  | writeRecovered i operation failure hwrite =>
      exact ownsBuffer_of_writes_eq_nil (eraseIdx_eq_nil hs.single hwrite)
  | writeFailed i ec operation failure hwrite =>
      exact ownsBuffer_of_writes_eq_nil (eraseIdx_eq_nil hs.single hwrite)
  | undefined i ec operation hwrite =>
      exact ownsBuffer_of_writes_eq_nil (eraseIdx_eq_nil hs.single hwrite)
  | _ => exact ⟨hs.single, hs.front⟩

theorem not_keepsBuffers_of_interrupts {s t : Transport} {a : Action}
    (hbusy : ¬ InterruptsIdle s a) (hstep : step s a = some t) : ¬ KeepsBuffers t := by
  obtain ⟨hinterrupts, hwrites⟩ : interrupts s a = true ∧ s.writes ≠ [] := by
    simpa [InterruptsIdle] using hbusy
  obtain ⟨hqueue, heq⟩ := interrupts_step hinterrupts hstep
  obtain ⟨operation, hoperation⟩ := List.exists_mem_of_ne_nil _ hwrites
  intro hkeeps
  simpa [hqueue] using hkeeps operation (heq ▸ hoperation)

/-- Outstanding writes keep their buffers in exactly the runs that never
interrupt a session while a write is outstanding. -/
theorem keepsBuffers_iff_interruptsIdle (schedule : List Action) (s : Transport)
    (hexec : exec step Transport.init schedule = some s) :
    Always step KeepsBuffers Transport.init schedule ↔
      Meets step InterruptsIdle Transport.init schedule :=
  always_iff_meets (I := OwnsBuffer) (fun _ _ _ hs hidle hstep => ownsBuffer_step hs hidle hstep)
    (fun _ hs => keepsBuffers_of_ownsBuffer hs)
    (fun _ _ _ _ hbusy hstep => not_keepsBuffers_of_interrupts hbusy hstep)
    ownsBuffer_init hexec

def openedWithWrite : List Action :=
  [.post (.openPort defaultBufferConfig), .run 0 .succeeds, .asyncWrite [1] 7, .advance 0,
    .advance 0, .advance 0, .advance 0]

def unpluggedSchedule : List Action :=
  openedWithWrite ++ [.run 0 .succeeds, .completeRead 0 .eof 0]

theorem not_keepsBuffers_unpluggedSchedule :
    ∃ s, exec step Transport.init unpluggedSchedule = some s ∧ s.ended = none ∧
      s.writes.length = 1 ∧ s.txDeque = [] ∧ ¬ KeepsBuffers s := by
  refine ⟨(exec step Transport.init unpluggedSchedule).get (by decide), by simp, ?_, ?_, ?_, ?_⟩ <;>
    decide

def writtenSchedule : List Action :=
  openedWithWrite ++
    [.run 0 .succeeds, .completeWrite 0 .success, .completeRead 0 .eof 0]

theorem keepsBuffers_writtenSchedule :
    Always step KeepsBuffers Transport.init writtenSchedule :=
  (keepsBuffers_iff_interruptsIdle writtenSchedule
    ((exec step Transport.init writtenSchedule).get (by decide)) (by simp)).mpr (by decide)

def Exclusive (s : Transport) : Prop := s.reads.length ≤ 1 ∧ s.writes.length ≤ 1

instance (s : Transport) : Decidable (Exclusive s) := inferInstanceAs (Decidable (_ ∧ _))

/-- No session begins and no write recovers while a read is outstanding, and no
write task starts a write while one of an earlier session is outstanding. -/
def StartsAlone (s : Transport) : Action → Prop
  | .run i outcome =>
      (succeeding s i outcome = true → s.reads = []) ∧ (starting s i = true → s.writes = [])
  | .completeWrite i ec => recovering s i ec = true → s.reads = []
  | _ => True

instance (s : Transport) (a : Action) : Decidable (StartsAlone s a) := by
  induction a using TransportSystem.Action.casesOn <;> dsimp only [StartsAlone] <;> infer_instance

theorem exclusive_step {s t : Transport} {a : Action} (hs : Exclusive s)
    (halone : StartsAlone s a) (hstep : step s a = some t) : Exclusive t := by
  obtain ⟨hreads, hwrites⟩ := hs
  cases step_outcome hstep with
  | opened i outcome config htask hclosing hport houtcome =>
      have hnone : s.reads = [] :=
        halone.1 (by simp [succeeding, opening, htask, hclosing, hport, houtcome])
      exact ⟨by simp [hnone], hwrites⟩
  | started i outcome w htask hclosing hstopped hidle =>
      have hnone : s.writes = [] :=
        halone.2 (by simp [starting, htask, hclosing, hstopped, hidle])
      exact ⟨hreads, by simp [hnone]⟩
  | readIgnored i => exact ⟨length_eraseIdx_le_one hreads i, hwrites⟩
  | delivered i bytesRead hread =>
      exact ⟨by simp [eraseIdx_eq_nil hreads hread], hwrites⟩
  | readRecovered i bytesRead hread =>
      exact ⟨by simp [eraseIdx_eq_nil hreads hread], hwrites⟩
  | readFailed i => exact ⟨length_eraseIdx_le_one hreads i, hwrites⟩
  | writeIgnored i => exact ⟨hreads, length_eraseIdx_le_one hwrites i⟩
  | writtenLast i => exact ⟨hreads, length_eraseIdx_le_one hwrites i⟩
  | writtenNext i operation w next rest hwrite =>
      exact ⟨hreads, by simp [eraseIdx_eq_nil hwrites hwrite]⟩
  | writeRecovered i operation failure hwrite hlive hfailure hnone =>
      have hfront : s.txDeque ≠ [] ∨ s.writeHandler = none :=
        (eq_or_ne s.txDeque []).symm.imp id fun h => (hnone h).2
      have hreads : s.reads = [] := halone (by simp [recovering, hwrite, hlive, hfront])
      exact ⟨by simp [hreads], length_eraseIdx_le_one hwrites i⟩
  | writeFailed i => exact ⟨hreads, length_eraseIdx_le_one hwrites i⟩
  | undefined i => exact ⟨hreads, length_eraseIdx_le_one hwrites i⟩
  | _ => exact ⟨hreads, hwrites⟩

theorem not_exclusive_of_not_startsAlone {s t : Transport} {a : Action}
    (hshared : ¬ StartsAlone s a) (hstep : step s a = some t) : ¬ Exclusive t := by
  rintro ⟨hreads, hwrites⟩
  apply hshared
  cases a with
  | run i outcome =>
      refine ⟨fun hsucceeding => ?_, fun hstarting => ?_⟩
      · rw [succeeding_step hsucceeding hstep, List.length_append] at hreads
        exact List.eq_nil_of_length_eq_zero (by simpa using hreads)
      · obtain ⟨operation, hoperation⟩ := starting_step hstarting hstep
        rw [hoperation, List.length_append] at hwrites
        exact List.eq_nil_of_length_eq_zero (by simpa using hwrites)
  | completeWrite i ec =>
      intro hrecovering
      rw [recovering_step hrecovering hstep, List.length_append] at hreads
      exact List.eq_nil_of_length_eq_zero (by simpa using hreads)
  | _ => trivial

/-- Operations of one kind never overlap in exactly the runs that start them alone. -/
theorem exclusive_iff_startsAlone (schedule : List Action) (s : Transport)
    (hexec : exec step Transport.init schedule = some s) :
    Always step Exclusive Transport.init schedule ↔
      Meets step StartsAlone Transport.init schedule :=
  always_iff_meets (I := Exclusive) (fun _ _ _ hs halone hstep => exclusive_step hs halone hstep)
    (fun _ hs => hs)
    (fun _ _ _ _ hshared hstep => not_exclusive_of_not_startsAlone hshared hstep)
    (by decide) hexec

/-- The device is unplugged, and the transport is opened again before the aborted
write of the first session completes. -/
def reopenedSchedule : List Action :=
  unpluggedSchedule ++
    [.post (.openPort defaultBufferConfig), .run 0 .succeeds, .asyncWrite [2] 8, .advance 0,
      .advance 0, .advance 0, .advance 0, .run 0 .succeeds]

theorem not_exclusive_reopenedSchedule :
    ∃ s, exec step Transport.init reopenedSchedule = some s ∧ s.ended = none ∧
      s.writes.map WriteOperation.generation = [1, 3] ∧ ¬ Exclusive s := by
  refine ⟨(exec step Transport.init reopenedSchedule).get (by decide), by simp, ?_, ?_, ?_⟩ <;>
    decide

def drainedSchedule : List Action :=
  unpluggedSchedule ++
    [.completeWrite 0 (.other 125), .post (.openPort defaultBufferConfig), .run 0 .succeeds,
      .asyncWrite [2] 8, .advance 0, .advance 0, .advance 0, .advance 0, .run 0 .succeeds]

theorem exclusive_drainedSchedule : Always step Exclusive Transport.init drainedSchedule :=
  (exclusive_iff_startsAlone drainedSchedule
    ((exec step Transport.init drainedSchedule).get (by decide)) (by simp)).mpr (by decide)

end EasyLoRa.StreamOperations
