import EasyLoRa.FrameWaiterSteps

namespace EasyLoRa.OverflowDiscards

open EasyLoRa.ByteQueue
open EasyLoRa.DelimitedFrames
open EasyLoRa.FrameWaiterModel
open EasyLoRa.FrameWaiterOutcomes
open EasyLoRa.FrameWaiterSteps
open EasyLoRa.TransitionSystem

variable {N : Nat} {Q : Ringbuffer N}

/-- The system with the bytes in the ring and in the pending buffer, each with the
number of its frame, the frames `feed` has discarded a byte of, and the frames of
the bytes that calls returning `Overflow` have thrown away. -/
structure Ledger {N : Nat} (Q : Ringbuffer N) where
  state : StepState Q
  ring : List (UInt8 × Nat)
  pending : List (UInt8 × Nat)
  lost : List Nat
  thrown : List Nat

def Ledger.init (Q : Ringbuffer N) (callback : Bool) : Ledger Q :=
  ⟨StepState.init Q callback, [], [], [], []⟩

/-- The number of the frame the next byte of the stream belongs to. -/
def frameNumber (s : StepState Q) : Nat := s.stream.count packetDelimiter

/-- The byte whose fate was decided last went into the ring. -/
def lastAccepted (s : StepState Q) : Bool := (s.fed.getLast?.map Prod.snd).getD true

def charged (status : ReadFrameStatus) (bytes : List (UInt8 × Nat)) : List Nat :=
  if status = .overflow then bytes.map Prod.snd else []

/-- The step of the producer decides the fate of these bytes, of none or of one. -/
def noteFates (l : Ledger Q) (t : StepState Q) (fates : List (UInt8 × Bool)) : Ledger Q :=
  { l with
    state := t
    ring := l.ring ++ (fates.filter Prod.snd).map fun p => (p.1, frameNumber l.state)
    lost := l.lost ++ (fates.filter fun p => !p.2).map fun _ => frameNumber l.state }

/-- The step of the consumer removes the first byte of the ring, if it removes one. -/
def noteRemoval (l : Ledger Q) (t : StepState Q) : Ledger Q :=
  match l.state.reading, l.ring with
  | some (.removing _ _), p :: rest =>
      if p.1 = packetDelimiter then { l with state := t, ring := rest, pending := [] }
      else if l.pending.length < N then
        { l with state := t, ring := rest, pending := l.pending ++ [p] }
      else { l with state := t, ring := rest }
  | some (.dropping _ status), p :: rest =>
      if p.1 = packetDelimiter then
        { l with
          state := t
          ring := rest
          pending := []
          thrown := l.thrown ++ charged status (l.pending ++ [p]) }
      else { l with state := t, ring := rest, thrown := l.thrown ++ charged status [p] }
  | some (.dropping _ status), [] =>
      { l with state := t, pending := [], thrown := l.thrown ++ charged status l.pending }
  | _, _ => { l with state := t }

def keep (l : Ledger Q) (a : Action) : Option (Ledger Q) :=
  (step l.state a).map fun t =>
    match a with
    | .produce => noteFates l t (t.fed.drop l.state.fed.length)
    | .consume => noteRemoval l t
    | _ => { l with state := t }

/-- Every byte thrown away belongs to a frame that `feed` has discarded a byte of. -/
def OnlyDamaged (l : Ledger Q) : Prop := ∀ k ∈ l.thrown, k ∈ l.lost

instance (l : Ledger Q) : Decidable (OnlyDamaged l) := inferInstanceAs (Decidable (∀ k ∈ _, _))

def droppingOverflow : ReadPc → Bool
  | .dropping _ status => status = .overflow
  | _ => false

/-- The loop that handles an overflow finds nothing, or nothing but the remains of
frames before the place where the producer stands: no delimiter in the ring, and the
byte fed last was discarded. -/
def FindsRemains (l : Ledger Q) : Action → Prop
  | .consume => l.state.reading.any droppingOverflow = true →
      l.state.waiter.unread = [] ∨
        (packetDelimiter ∉ l.state.waiter.ring ∧ lastAccepted l.state = false)
  | _ => True

instance (l : Ledger Q) (a : Action) : Decidable (FindsRemains l a) := by
  induction a using FrameWaiterSteps.Action.casesOn <;> dsimp only [FindsRemains] <;> infer_instance

/-- Every byte has a delimiter at or behind its place, or belongs to a lost frame, or to
the frame `healthy`. -/
def Covered (lost : List Nat) (healthy : Option Nat) : List (UInt8 × Nat) → Prop
  | [] => True
  | p :: bytes =>
      (packetDelimiter ∈ (p :: bytes).map Prod.fst ∨ p.2 ∈ lost ∨ some p.2 = healthy) ∧
        Covered lost healthy bytes

section

variable {lost more : List Nat} {healthy : Option Nat} {xs ys : List (UInt8 × Nat)}

theorem covered_right (h : Covered lost healthy (xs ++ ys)) : Covered lost healthy ys := by
  induction xs with
  | nil => exact h
  | cons p xs ih => exact ih h.2

theorem covered_remove {p : UInt8 × Nat} (h : Covered lost healthy (xs ++ p :: ys))
    (hp : p.1 ≠ packetDelimiter) : Covered lost healthy (xs ++ ys) := by
  induction xs with
  | nil => exact h.2
  | cons q xs ih =>
      refine ⟨?_, ih h.2⟩
      rcases h.1 with hmem | hrest
      · left
        have hmem : packetDelimiter ∈ ((q :: xs) ++ p :: ys).map Prod.fst := hmem
        show packetDelimiter ∈ ((q :: xs) ++ ys).map Prod.fst
        simpa [hp.symm] using hmem
      · exact Or.inr hrest

theorem covered_concat_delimiter (lost : List Nat) (healthy : Option Nat)
    (xs : List (UInt8 × Nat)) (k : Nat) :
    Covered lost healthy (xs ++ [(packetDelimiter, k)]) := by
  induction xs with
  | nil => exact ⟨Or.inl (by simp), trivial⟩
  | cons q xs ih => exact ⟨Or.inl (by simp), ih⟩

theorem covered_concat {p : UInt8 × Nat} (h : Covered lost healthy xs)
    (hp : some p.2 = healthy) : Covered lost healthy (xs ++ [p]) := by
  induction xs with
  | nil => exact ⟨Or.inr (Or.inr hp), trivial⟩
  | cons q xs ih =>
      refine ⟨?_, ih h.2⟩
      rcases h.1 with hmem | hrest
      · left
        show packetDelimiter ∈ ((q :: xs) ++ [p]).map Prod.fst
        rw [List.map_append]
        exact List.mem_append_left _ hmem
      · exact Or.inr hrest

theorem covered_mono {other : Option Nat} (h : Covered lost healthy xs)
    (hhealthy : ∀ k, some k = healthy → k ∈ lost ++ more ∨ some k = other) :
    Covered (lost ++ more) other xs := by
  induction xs with
  | nil => trivial
  | cons q xs ih =>
      refine ⟨?_, ih h.2⟩
      rcases h.1 with hmem | hlost | hq
      · exact Or.inl hmem
      · exact Or.inr (Or.inl (List.mem_append_left _ hlost))
      · exact Or.inr (hhealthy q.2 hq)

theorem lost_of_covered (h : Covered lost none xs)
    (hnone : packetDelimiter ∉ xs.map Prod.fst) : ∀ p ∈ xs, p.2 ∈ lost := by
  induction xs with
  | nil => simp
  | cons q xs ih =>
      intro p hp
      rcases List.mem_cons.mp hp with rfl | hp
      · rcases h.1 with hmem | hlost | hhealthy
        · exact absurd hmem hnone
        · exact hlost
        · cases hhealthy
      · exact ih h.2 (fun hmem => hnone (List.mem_cons_of_mem _ hmem)) p hp

end

/-- The frame the producer stands in, unless the byte before was discarded. -/
def healthyFrame (s : StepState Q) : Option Nat :=
  if lastAccepted s then some (frameNumber s) else none

theorem eq_of_healthyFrame {s : StepState Q} {k : Nat} (hk : some k = healthyFrame s) :
    k = frameNumber s := by
  unfold healthyFrame at hk
  split at hk
  · exact Option.some.inj hk
  · cases hk

theorem healthyFrame_congr {s t : StepState Q} (hfed : t.fed = s.fed) :
    healthyFrame t = healthyFrame s := by
  unfold healthyFrame lastAccepted frameNumber StepState.stream
  rw [hfed]

/-- The numbered bytes are the bytes of the waiter, and those that may still be thrown
away are the remains of lost frames. -/
structure Kept (l : Ledger Q) : Prop where
  ring : l.ring.map Prod.fst = l.state.waiter.ring
  pending : l.pending.map Prod.fst = l.state.waiter.pending
  unended : packetDelimiter ∉ l.state.waiter.pending
  covered : Covered l.lost (healthyFrame l.state) (l.pending ++ l.ring)
  damaged : OnlyDamaged l

theorem kept_init (callback : Bool) : Kept (Ledger.init Q callback) := by
  constructor
  · simp [Ledger.init, StepState.init]
  · simp [Ledger.init, StepState.init]
  · simp [Ledger.init, StepState.init]
  · trivial
  · simp [OnlyDamaged, Ledger.init]

section

variable {l : Ledger Q} {t : StepState Q} {byte : UInt8}

theorem kept_state (hl : Kept l) (hfed : t.fed = l.state.fed)
    (hring : t.waiter.ring = l.state.waiter.ring)
    (hpending : t.waiter.pending = l.state.waiter.pending) : Kept { l with state := t } := by
  constructor
  · exact hl.ring.trans hring.symm
  · exact hl.pending.trans hpending.symm
  · exact hpending ▸ hl.unended
  · show Covered l.lost (healthyFrame t) (l.pending ++ l.ring)
    rw [healthyFrame_congr hfed]
    exact hl.covered
  · exact hl.damaged

theorem kept_accepted (hl : Kept l) (hfed : t.fed = l.state.fed ++ [(byte, true)])
    (hring : t.waiter.ring = l.state.waiter.ring ++ [byte])
    (hpending : t.waiter.pending = l.state.waiter.pending) :
    Kept (noteFates l t [(byte, true)]) := by
  constructor
  · simp [noteFates, hl.ring, hring]
  · exact hl.pending.trans hpending.symm
  · exact hpending ▸ hl.unended
  · have hlost : (noteFates l t [(byte, true)]).lost = l.lost := by simp [noteFates]
    rw [hlost]
    show Covered l.lost (healthyFrame t) (l.pending ++ (l.ring ++ [(byte, frameNumber l.state)]))
    rw [← List.append_assoc]
    by_cases hbyte : byte = packetDelimiter
    · subst hbyte
      exact covered_concat_delimiter _ _ _ _
    · have hhealthy : healthyFrame t = some (frameNumber l.state) := by
        simp [healthyFrame, lastAccepted, frameNumber, StepState.stream, hfed, hbyte]
      rw [hhealthy]
      refine covered_concat ?_ rfl
      rw [← List.append_nil l.lost]
      exact covered_mono hl.covered fun k hk => Or.inr (congrArg some (eq_of_healthyFrame hk))
  · simpa [OnlyDamaged, noteFates] using hl.damaged

theorem kept_discarded (hl : Kept l) (hfed : t.fed = l.state.fed ++ [(byte, false)])
    (hring : t.waiter.ring = l.state.waiter.ring)
    (hpending : t.waiter.pending = l.state.waiter.pending) :
    Kept (noteFates l t [(byte, false)]) := by
  have hnote : noteFates l t [(byte, false)] =
      { l with state := t, lost := l.lost ++ [frameNumber l.state] } := by simp [noteFates]
  have hhealthy : healthyFrame t = none := by simp [healthyFrame, lastAccepted, hfed]
  rw [hnote]
  constructor
  · exact hl.ring.trans hring.symm
  · exact hl.pending.trans hpending.symm
  · exact hpending ▸ hl.unended
  · show Covered (l.lost ++ [frameNumber l.state]) (healthyFrame t) (l.pending ++ l.ring)
    rw [hhealthy]
    refine covered_mono hl.covered fun k hk => Or.inl ?_
    simp [eq_of_healthyFrame hk]
  · exact fun k hk => List.mem_append_left _ (hl.damaged k hk)

/-- The consumer removes a byte that is no delimiter and keeps it nowhere. -/
theorem kept_dropped (hl : Kept l) {k : Nat} {rest : List (UInt8 × Nat)} {thrown : List Nat}
    (hcons : l.ring = (byte, k) :: rest) (hbyte : byte ≠ packetDelimiter)
    (hfed : t.fed = l.state.fed) (hring : rest.map Prod.fst = t.waiter.ring)
    (hpending : t.waiter.pending = l.state.waiter.pending)
    (hthrown : ∀ j ∈ thrown, j ∈ l.lost) :
    Kept { l with state := t, ring := rest, thrown := thrown } := by
  have hcovered := hl.covered
  rw [hcons] at hcovered
  constructor
  · exact hring
  · exact hl.pending.trans hpending.symm
  · exact hpending ▸ hl.unended
  · show Covered l.lost (healthyFrame t) (l.pending ++ rest)
    rw [healthyFrame_congr hfed]
    exact covered_remove hcovered hbyte
  · exact hthrown

/-- The consumer removes a delimiter, and the pending buffer is reset. -/
theorem kept_ended (hl : Kept l) {k : Nat} {rest : List (UInt8 × Nat)} {thrown : List Nat}
    (hcons : l.ring = (packetDelimiter, k) :: rest) (hfed : t.fed = l.state.fed)
    (hring : rest.map Prod.fst = t.waiter.ring) (hpending : t.waiter.pending = [])
    (hthrown : ∀ j ∈ thrown, j ∈ l.lost) :
    Kept { l with state := t, ring := rest, pending := [], thrown := thrown } := by
  have hcovered := hl.covered
  rw [hcons] at hcovered
  constructor
  · exact hring
  · simp [hpending]
  · simp [hpending]
  · show Covered l.lost (healthyFrame t) rest
    rw [healthyFrame_congr hfed]
    exact (covered_right hcovered).2
  · exact hthrown

end

theorem kept_produce {l m : Ledger Q} (hl : Kept l) (hkeep : keep l .produce = some m) :
    Kept m := by
  obtain ⟨t, hstep, rfl⟩ := Option.map_eq_some_iff.mp hkeep
  obtain ⟨byte, pc, w, next, called, -, houtcome, rfl⟩ := produce_outcome hstep
  simp only [List.drop_left]
  have hnone : ∀ t, noteFates l t [] = { l with state := t } := by simp [noteFates]
  cases houtcome with
  | foundDropping hdropping =>
      simp only [fate, hdropping, if_true]
      exact kept_discarded hl rfl rfl rfl
  | foundEnd hdropping =>
      simp only [fate, hdropping, if_true]
      exact kept_discarded hl rfl rfl rfl
  | foundClear hdropping =>
      simp only [fate, hdropping, Bool.false_eq_true, if_false, hnone]
      exact kept_state hl (List.append_nil _) rfl rfl
  | refused hring =>
      have hinsert : Q.insert l.state.waiter.buffer byte = none :=
        (Q.insert_eq_none_iff _ byte).mpr hring
      simp only [fate, hinsert, Option.isSome_none]
      exact kept_discarded hl rfl rfl rfl
  | inserted buffer hring =>
      simp only [fate, isSome_insert_of_contents hring]
      exact kept_accepted hl rfl hring rfl
  | insertedEnd buffer hring =>
      simp only [fate, isSome_insert_of_contents hring]
      exact kept_accepted hl rfl hring rfl
  | cleared => exact hnone _ ▸ kept_state hl (List.append_nil _) rfl rfl
  | markedOverflow => exact hnone _ ▸ kept_state hl (List.append_nil _) rfl rfl
  | markedDropping => exact hnone _ ▸ kept_state hl (List.append_nil _) rfl rfl
  | called => exact hnone _ ▸ kept_state hl (List.append_nil _) rfl rfl

/-- The first byte of the ring has a number. -/
theorem ring_cons {l : Ledger Q} (hl : Kept l) {byte : UInt8} {buffer : Q.Buffer}
    (hring : l.state.waiter.ring = byte :: Q.contents buffer) :
    ∃ k rest, l.ring = (byte, k) :: rest ∧ rest.map Prod.fst = Q.contents buffer := by
  obtain ⟨p, rest, hcons, hbyte, hrest⟩ := List.map_eq_cons_iff.mp (hl.ring.trans hring)
  subst hbyte
  exact ⟨p.2, rest, hcons, hrest⟩

/-- What the loop that handles an overflow may throw away is lost. -/
theorem lost_of_findsRemains {l : Ledger Q} (hl : Kept l) {out : List UInt8}
    (hfinds : FindsRemains l .consume)
    (hreading : l.state.reading = some (.dropping out .overflow)) :
    packetDelimiter ∉ l.state.waiter.ring ∧ ∀ p ∈ l.pending ++ l.ring, p.2 ∈ l.lost := by
  have hmap : (l.pending ++ l.ring).map Prod.fst = l.state.waiter.unread := by
    rw [List.map_append, hl.pending, hl.ring, FrameWaiter.unread]
  rcases hfinds (by simp [hreading, droppingOverflow]) with hempty | ⟨hring, haccepted⟩
  · have hnil : l.pending ++ l.ring = [] := List.map_eq_nil_iff.mp (hmap.trans hempty)
    rw [hnil]
    have hring := (List.append_eq_nil_iff.mp hempty).2
    simp [hring]
  · refine ⟨hring, ?_⟩
    have hcovered := hl.covered
    rw [healthyFrame, haccepted, if_neg Bool.false_ne_true] at hcovered
    apply lost_of_covered hcovered
    rw [hmap, FrameWaiter.unread, List.mem_append, not_or]
    exact ⟨hl.unended, hring⟩

theorem onlyDamaged_charged {l : Ledger Q} (hl : Kept l) (status : ReadFrameStatus)
    {bytes : List (UInt8 × Nat)} (hlost : status = .overflow → ∀ p ∈ bytes, p.2 ∈ l.lost) :
    ∀ k ∈ l.thrown ++ charged status bytes, k ∈ l.lost := by
  intro k hk
  rcases List.mem_append.mp hk with hk | hk
  · exact hl.damaged k hk
  · unfold charged at hk
    split at hk
    · obtain ⟨p, hp, rfl⟩ := List.mem_map.mp hk
      exact hlost ‹_› p hp
    · cases hk

theorem kept_consume {l m : Ledger Q} (hl : Kept l) (hfinds : FindsRemains l .consume)
    (hkeep : keep l .consume = some m) : Kept m := by
  obtain ⟨t, hstep, rfl⟩ := Option.map_eq_some_iff.mp hkeep
  obtain ⟨pc, w, hreading, ⟨pc', houtcome, rfl⟩ | ⟨r, houtcome, rfl⟩⟩ := consume_outcome hstep
  · cases houtcome with
    | ranEmpty out cap hring =>
        have hnil : l.ring = [] := List.map_eq_nil_iff.mp (hl.ring.trans hring)
        simp only [noteRemoval, hreading, hnil]
        exact hnil ▸ kept_state hl rfl rfl rfl
    | assembled out cap byte buffer hbyte hring hsize =>
        obtain ⟨k, rest, hcons, hrest⟩ := ring_cons hl hring
        have hroom : l.pending.length < N := by
          rwa [← List.length_map Prod.fst, hl.pending, ← size_pendingFrame]
        have hcovered := hl.covered
        simp only [noteRemoval, hreading, hcons, hbyte, hroom, if_true, if_false] at hcovered ⊢
        refine ⟨hrest, ?_, ?_, ?_, hl.damaged⟩
        · simp [hl.pending]
        · simpa using not_mem_concat hl.unended hbyte
        · show Covered l.lost (healthyFrame l.state) (l.pending ++ [(byte, k)] ++ rest)
          rwa [List.append_assoc]
    | filled out cap byte buffer hbyte hring hsize =>
        obtain ⟨k, rest, hcons, hrest⟩ := ring_cons hl hring
        have hfull : ¬l.pending.length < N := by
          rw [← List.length_map Prod.fst, hl.pending]
          omega
        simp only [noteRemoval, hreading, hcons, hbyte, hfull, if_false]
        exact kept_dropped hl hcons hbyte rfl hrest rfl hl.damaged
    | overflowed out hoverflow =>
        simp only [noteRemoval, hreading]
        exact kept_state hl rfl rfl rfl
    | droppedByte out status byte buffer hbyte hring =>
        obtain ⟨k, rest, hcons, hrest⟩ := ring_cons hl hring
        simp only [noteRemoval, hreading, hcons, hbyte, if_false]
        refine kept_dropped hl hcons hbyte rfl hrest rfl ?_
        apply onlyDamaged_charged hl status
        rintro rfl p hp
        apply (lost_of_findsRemains hl hfinds hreading).2
        obtain rfl := List.mem_singleton.mp hp
        simp [hcons]
  · cases houtcome with
    | rejected out cap buffer hring hcap =>
        obtain ⟨k, rest, hcons, hrest⟩ := ring_cons hl hring
        simp only [noteRemoval, hreading, hcons, if_true]
        exact kept_ended hl hcons rfl hrest (by simp) hl.damaged
    | delivered out cap buffer hring hcap =>
        obtain ⟨k, rest, hcons, hrest⟩ := ring_cons hl hring
        simp only [noteRemoval, hreading, hcons, if_true]
        exact kept_ended hl hcons rfl hrest (by simp) hl.damaged
    | unfinished out hoverflow =>
        simp only [noteRemoval, hreading]
        exact kept_state hl rfl rfl rfl
    | droppedAll out status hring =>
        have hnil : l.ring = [] := List.map_eq_nil_iff.mp (hl.ring.trans hring)
        have hdamaged : ∀ j ∈ l.thrown ++ charged status l.pending, j ∈ l.lost := by
          refine onlyDamaged_charged hl status ?_
          rintro rfl p hp
          exact (lost_of_findsRemains hl hfinds hreading).2 p (List.mem_append_left _ hp)
        simp only [noteRemoval, hreading, hnil]
        exact ⟨hring.symm, by simp, by simp, trivial, hdamaged⟩
    | droppedFrame out status buffer hring =>
        obtain ⟨k, rest, hcons, hrest⟩ := ring_cons hl hring
        simp only [noteRemoval, hreading, hcons, if_true]
        refine kept_ended hl hcons rfl hrest (by simp) ?_
        apply onlyDamaged_charged hl status
        rintro rfl
        exact absurd (hring ▸ List.mem_cons_self) (lost_of_findsRemains hl hfinds hreading).1

theorem kept_step {l m : Ledger Q} {a : Action} (hl : Kept l) (hfinds : FindsRemains l a)
    (hkeep : keep l a = some m) : Kept m := by
  cases a with
  | feed byte =>
      obtain ⟨t, hstep, rfl⟩ := Option.map_eq_some_iff.mp hkeep
      obtain ⟨-, rfl⟩ := feed_outcome_of_step hstep
      exact kept_state hl rfl rfl rfl
  | produce => exact kept_produce hl hkeep
  | read outputBuffer cap =>
      obtain ⟨t, hstep, rfl⟩ := Option.map_eq_some_iff.mp hkeep
      obtain ⟨-, ⟨out, -, rfl⟩ | ⟨-, rfl⟩⟩ := read_outcome_of_step hstep
      · exact kept_state hl rfl rfl rfl
      · exact kept_state hl rfl rfl rfl
  | consume => exact kept_consume hl hfinds hkeep

/-- Where the loop that handles an overflow finds remains only, no frame that the ring
has accepted as a whole loses a byte to it. -/
theorem onlyDamaged_of_findsRemains (Q : Ringbuffer N) (callback : Bool)
    (schedule : List Action) (l : Ledger Q)
    (hmeets : Meets keep FindsRemains (Ledger.init Q callback) schedule)
    (hexec : exec keep (Ledger.init Q callback) schedule = some l) : OnlyDamaged l :=
  (exec_invariant (I := Kept) (fun _ _ _ hl hfinds hkeep => kept_step hl hfinds hkeep)
    (kept_init callback) hmeets hexec).damaged

/-- Bytes `1 0 2 0 5 0` in a ring of two bytes. The third is refused and its delimiter
skipped; the fifth arrives before the overflow is reported. -/
def lateReportSchedule : List Action :=
  [.feed 1, .produce, .produce, .feed 0, .produce, .produce, .feed 2, .produce, .produce,
    .produce, .produce, .feed 0, .produce, .produce, .read (some []) 2, .consume, .consume,
    .feed 5, .produce, .produce, .read (some []) 2, .consume, .consume, .consume, .consume,
    .feed 0, .produce, .produce]

/-- The call that reports the overflow of the second frame throws away the byte of the
third, every byte of which the ring accepts. -/
theorem intact_byte_thrown :
    ∃ l, exec keep (Ledger.init (fifo 2) false) lateReportSchedule = some l ∧
      l.state.fed = [(1, true), (0, true), (2, false), (0, false), (5, true), (0, true)] ∧
      frames packetDelimiter l.state.stream = [[1], [2], [5]] ∧
      l.state.returned.map ReadResult.status = [.ok, .overflow] ∧
      l.lost = [1, 1] ∧ l.thrown = [2] ∧ ¬OnlyDamaged l :=
  ⟨(exec keep (Ledger.init (fifo 2) false) lateReportSchedule).get (by decide), by simp,
    by decide, by decide, by decide, by decide, by decide, by decide⟩

/-- Bytes `1 2 3 0`: the overflow of a frame is reported while its first bytes are
pending. -/
def ownReportSchedule : List Action :=
  [.feed 1, .produce, .produce, .feed 2, .produce, .produce, .feed 3, .produce, .produce,
    .produce, .produce, .read (some []) 2, .consume, .consume, .consume, .consume, .consume,
    .feed 0, .produce, .produce]

theorem onlyDamaged_ownReportSchedule :
    ∃ l, exec keep (Ledger.init (fifo 2) false) ownReportSchedule = some l ∧
      l.thrown = [0, 0] ∧ OnlyDamaged l := by
  refine ⟨(exec keep (Ledger.init (fifo 2) false) ownReportSchedule).get (by decide), by simp,
    by decide, ?_⟩
  exact onlyDamaged_of_findsRemains (fifo 2) false ownReportSchedule _ (by decide) (by simp)

end EasyLoRa.OverflowDiscards
