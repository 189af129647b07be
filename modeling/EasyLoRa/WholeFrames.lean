import EasyLoRa.DelimitedFrames
import EasyLoRa.Reception

namespace EasyLoRa.WholeFrames

open EasyLoRa.DelimitedFrames
open EasyLoRa.TransportModel
open EasyLoRa.TransportSystem
open EasyLoRa.TransportOutcomes
open EasyLoRa.TransitionSystem
open EasyLoRa.Reception

/-- The package lies in the stream at `start`, ends with the only delimiter in it, and
follows another one or the beginning of the stream. -/
def WholeFrameAt (d : UInt8) (stream : List UInt8) (start : Nat) (package : List UInt8) : Prop :=
  (stream.take start = [] ∨ (stream.take start).getLast? = some d) ∧
    package <+: stream.drop start ∧ d ∉ package.dropLast ∧ package.getLast? = some d

instance (d : UInt8) (stream : List UInt8) (start : Nat) (package : List UInt8) :
    Decidable (WholeFrameAt d stream start package) :=
  inferInstanceAs (Decidable ((_ ∨ _) ∧ _ ∧ _ ∧ _))

section Delimiter

variable (frameDelimiter : UInt8)

/-- The delimiter is a parameter: the header that defines it is not in the repository. -/
def DeliversWhole (r : Listener) : Prop :=
  ∀ p ∈ r.handed, WholeFrameAt frameDelimiter r.received p.1 p.2

instance (r : Listener) : Decidable (DeliversWhole frameDelimiter r) :=
  inferInstanceAs (Decidable (∀ p ∈ _, _))

/-- What the stream and `async_read_until` do: bytes arrive while there is room in
`rxBuffer`, and a read of the session succeeds with the length up to the first
delimiter in it, or fails with `not_found` when it is full and there is none. -/
def ReadsUntil (r : Listener) : Action → Prop
  | .receive bytes =>
      r.transport.rxBuffer.length + bytes.length ≤ r.transport.bufferConfig.rxBufferMaxSize
  | .completeRead i ec bytesRead =>
      liveRead r.transport i = true →
        (ec = .success → frameDelimiter ∈ r.transport.rxBuffer ∧
          bytesRead = r.transport.rxBuffer.idxOf frameDelimiter + 1) ∧
        (ec = .notFound → frameDelimiter ∉ r.transport.rxBuffer ∧
          r.transport.bufferConfig.rxBufferMaxSize ≤ r.transport.rxBuffer.length)
  | _ => True

instance (r : Listener) (a : Action) : Decidable (ReadsUntil frameDelimiter r a) := by
  induction a using TransportSystem.Action.casesOn <;> dsimp only [ReadsUntil] <;> infer_instance

/-- The frame of the stream that a read ends, its delimiter included. -/
def endedFrame (r : Listener) (bytesRead : Nat) : List UInt8 :=
  tail frameDelimiter (r.received.take (r.place + bytesRead - 1)) ++ [frameDelimiter]

/-- Every frame that is passed on fits `rxBuffer`, and no write has failed with the
recoverable error since it began. -/
def EndsFitting (r : Listener) : Action → Prop
  | .completeRead i ec bytesRead =>
      delivers r.transport (.completeRead i ec bytesRead) = true →
        (endedFrame frameDelimiter r bytesRead).length ≤
            r.transport.bufferConfig.rxBufferMaxSize ∧
          ∀ p ∈ r.interruptions,
            p + (endedFrame frameDelimiter r bytesRead).length ≤ r.place + bytesRead
  | _ => True

instance (r : Listener) (a : Action) : Decidable (EndsFitting frameDelimiter r a) := by
  induction a using TransportSystem.Action.casesOn <;> dsimp only [EndsFitting] <;> infer_instance

/-- While the session is open, `front` is what lies before `rxBuffer` in the stream. It
ends where a frame ends, unless a full buffer or an interruption lies within the frame
that `rxBuffer` goes on with. -/
structure Aligned (r : Listener) (front : List UInt8) : Prop where
  buffered : r.received = front ++ r.transport.rxBuffer
  room : r.transport.rxBuffer.length ≤ r.transport.bufferConfig.rxBufferMaxSize
  frame : tail frameDelimiter front = [] ∨
    r.transport.bufferConfig.rxBufferMaxSize ≤ (tail frameDelimiter front).length ∨
    ∃ p ∈ r.interruptions, front.length < p + (tail frameDelimiter front).length
  interruptions : ∀ p ∈ r.interruptions, p ≤ front.length

variable {frameDelimiter}

theorem place_of_buffered {r : Listener} {front : List UInt8}
    (h : r.received = front ++ r.transport.rxBuffer) : r.place = front.length := by
  simp [Listener.place, h]

theorem wholeFrameAt_append {d : UInt8} {stream package : List UInt8} {start : Nat}
    (h : WholeFrameAt d stream start package) (more : List UInt8) :
    WholeFrameAt d (stream ++ more) start package := by
  obtain ⟨hfollows, hlies, hinner, hlast⟩ := h
  have hstart : start ≤ stream.length := by
    by_contra hbeyond
    rw [List.drop_eq_nil_of_le (Nat.le_of_not_le hbeyond), List.prefix_nil] at hlies
    simp [hlies] at hlast
  refine ⟨?_, ?_, hinner, hlast⟩
  · rwa [List.take_append_of_le_length hstart]
  · rw [List.drop_append_of_le_length hstart]
    exact hlies.trans (List.prefix_append _ _)

/-- The first package of a buffer is a whole frame where no frame is open in front of
the buffer. -/
theorem wholeFrameAt_iff {d : UInt8} {front body rest : List UInt8} (hbody : d ∉ body) :
    WholeFrameAt d (front ++ (body ++ d :: rest)) front.length (body ++ [d]) ↔
      tail d front = [] := by
  have htake : (front ++ (body ++ d :: rest)).take front.length = front := by simp
  have hdrop : (front ++ (body ++ d :: rest)).drop front.length = body ++ [d] ++ rest := by simp
  rw [WholeFrameAt, htake, hdrop, tail_eq_nil_iff]
  simp [hbody]

theorem endedFrame_eq {r : Listener} {front body rest : List UInt8}
    (hreceived : r.received = front ++ (body ++ frameDelimiter :: rest))
    (hplace : r.place = front.length) (hbody : frameDelimiter ∉ body) :
    endedFrame frameDelimiter r (body.length + 1) =
      tail frameDelimiter front ++ body ++ [frameDelimiter] := by
  have htake : r.received.take (r.place + (body.length + 1) - 1) = front ++ body := by
    rw [hreceived, hplace, ← List.append_assoc]
    exact List.take_left' (by rw [List.length_append]; omega)
  rw [endedFrame, htake, tail_append_of_not_mem _ hbody]

/-- What a successful read of the session finds in the buffer. -/
theorem split_of_readsUntil {r : Listener} {i bytesRead : Nat}
    (hcontract : ReadsUntil frameDelimiter r (.completeRead i .success bytesRead))
    (hlive : liveRead r.transport i = true) :
    ∃ body rest, r.transport.rxBuffer = body ++ frameDelimiter :: rest ∧
      frameDelimiter ∉ body ∧ bytesRead = body.length + 1 := by
  obtain ⟨hmem, hlength⟩ := (hcontract hlive).1 rfl
  obtain ⟨body, rest, hbuffer, hbody, hindex⟩ := split_at_delimiter hmem
  exact ⟨body, rest, hbuffer, hbody, by rw [hlength, hindex]⟩

/-- A package is whole exactly where its frame fits the buffer and was not interrupted. -/
theorem whole_iff_fitting {r : Listener} {front body rest : List UInt8}
    (hr : Aligned frameDelimiter r front)
    (hbuffer : r.transport.rxBuffer = body ++ frameDelimiter :: rest)
    (hbody : frameDelimiter ∉ body) :
    WholeFrameAt frameDelimiter r.received r.place (body ++ [frameDelimiter]) ↔
      (endedFrame frameDelimiter r (body.length + 1)).length ≤
          r.transport.bufferConfig.rxBufferMaxSize ∧
        ∀ p ∈ r.interruptions,
          p + (endedFrame frameDelimiter r (body.length + 1)).length ≤
            r.place + (body.length + 1) := by
  have hplace := place_of_buffered hr.buffered
  have hreceived := hr.buffered
  rw [hbuffer] at hreceived
  have hroom := hr.room
  rw [hbuffer, List.length_append, List.length_cons] at hroom
  rw [endedFrame_eq hreceived hplace hbody, hreceived, hplace, wholeFrameAt_iff hbody]
  simp only [List.length_append, List.length_singleton]
  constructor
  · intro hclosed
    rw [hclosed, List.length_nil]
    refine ⟨by omega, fun p hp => ?_⟩
    have hle := hr.interruptions p hp
    omega
  · rintro ⟨hfits, hunbroken⟩
    rcases hr.frame with hclosed | hlong | ⟨p, hp, hinside⟩
    · exact hclosed
    · omega
    · have hle := hunbroken p hp
      omega

theorem aligned_step {r u : Listener} {a : Action}
    (hr : r.transport.stopped = false → ∃ front, Aligned frameDelimiter r front)
    (hcontract : ReadsUntil frameDelimiter r a) (hlisten : listen r a = some u) :
    u.transport.stopped = false → ∃ front, Aligned frameDelimiter u front := by
  intro hrunning
  cases listen_outcome hlisten with
  | began i outcome t hempty =>
      refine ⟨[], ?_, ?_, Or.inl rfl, by simp⟩
      · exact hempty.symm
      · simp [hempty]
  | received bytes t hbuffer hconfig hstopped =>
      obtain ⟨front, hfront⟩ := hr (hstopped ▸ hrunning)
      refine ⟨front, ?_, ?_, hconfig ▸ hfront.frame, hfront.interruptions⟩
      · rw [hbuffer, ← List.append_assoc, ← hfront.buffered]
      · rw [hbuffer, hconfig, List.length_append]
        exact hcontract
  | delivered i bytesRead t hlive hopen hbuffer hconfig =>
      obtain ⟨front, hfront⟩ := hr hopen
      obtain ⟨body, rest, hsplit, hbody, rfl⟩ := split_of_readsUntil hcontract hlive
      have hrest : t.rxBuffer = rest := by
        rw [hbuffer, hsplit]
        simp
      refine ⟨front ++ body ++ [frameDelimiter], ?_, ?_, Or.inl (tail_concat_delimiter _ _),
        fun p hp => ?_⟩
      · show r.received = _
        rw [hfront.buffered, hsplit, hrest]
        simp
      · rw [hconfig, hrest]
        have hroom := hfront.room
        rw [hsplit, List.length_append, List.length_cons] at hroom
        omega
      · have hle := hfront.interruptions p hp
        rw [List.length_append, List.length_append]
        omega
  | overflowed i bytesRead t hlive hopen hbuffer hconfig =>
      obtain ⟨front, hfront⟩ := hr hopen
      obtain ⟨hnone, hfull⟩ := (hcontract hlive).2 rfl
      refine ⟨r.received, ?_, ?_, Or.inr (Or.inl ?_), fun p hp => ?_⟩
      · rw [hbuffer, List.append_nil]
      · rw [hbuffer]
        exact Nat.zero_le _
      · rw [hconfig, hfront.buffered, tail_append_of_not_mem _ hnone, List.length_append]
        omega
      · have hle := hfront.interruptions p hp
        rw [hfront.buffered, List.length_append]
        omega
  | interrupted i t hrecovering hopen hbuffer hconfig =>
      obtain ⟨front, hfront⟩ := hr hopen
      refine ⟨r.received, ?_, ?_, ?_, fun p hp => ?_⟩
      · rw [hbuffer, List.append_nil]
      · rw [hbuffer]
        exact Nat.zero_le _
      · by_cases hclosed : tail frameDelimiter r.received = []
        · exact Or.inl hclosed
        · have hpos := List.length_pos_iff.mpr hclosed
          exact Or.inr (Or.inr ⟨r.received.length, by simp, by omega⟩)
      · rcases List.mem_append.mp hp with hp | hp
        · have hle := hfront.interruptions p hp
          rw [hfront.buffered, List.length_append]
          omega
        · exact Nat.le_of_eq (List.mem_singleton.mp hp)
  | stopped _ t hquiet hstopped => simp [hstopped] at hrunning
  | kept _ t hquiet hbuffer hconfig hstopped =>
      obtain ⟨front, hfront⟩ := hr (hstopped ▸ hrunning)
      refine ⟨front, ?_, ?_, hconfig ▸ hfront.frame, hfront.interruptions⟩
      · rw [hbuffer]
        exact hfront.buffered
      · rw [hbuffer, hconfig]
        exact hfront.room

theorem deliversWhole_step {r u : Listener} {a : Action}
    (hr : r.transport.stopped = false → ∃ front, Aligned frameDelimiter r front)
    (hwhole : DeliversWhole frameDelimiter r) (hcontract : ReadsUntil frameDelimiter r a)
    (hlisten : listen r a = some u) :
    DeliversWhole frameDelimiter u ↔ EndsFitting frameDelimiter r a := by
  cases listen_outcome hlisten with
  | began => exact ⟨fun _ => trivial, fun _ => by simp [DeliversWhole]⟩
  | received bytes =>
      exact ⟨fun _ => trivial, fun _ p hp => wholeFrameAt_append (hwhole p hp) bytes⟩
  | delivered i bytesRead t hlive hopen hbuffer hconfig =>
      obtain ⟨front, hfront⟩ := hr hopen
      obtain ⟨body, rest, hsplit, hbody, rfl⟩ := split_of_readsUntil hcontract hlive
      have hpackage : r.transport.rxBuffer.take (body.length + 1) = body ++ [frameDelimiter] := by
        rw [hsplit, List.append_cons]
        exact List.take_left' (by simp)
      cases hhandler : r.transport.frameHandler with
      | none =>
          constructor
          · intro _ hdelivers
            simp [delivers, hhandler] at hdelivers
          · intro _ p hp
            exact hwhole p (by simpa [hhandler] using hp)
      | some handler =>
          have hdelivers : delivers r.transport
              (.completeRead i .success (body.length + 1)) = true := by
            simp [delivers, hlive, hhandler]
          have hiff := whole_iff_fitting hfront hsplit hbody
          constructor
          · intro h _
            refine hiff.mp (h (r.place, body ++ [frameDelimiter]) ?_)
            simp [hpackage]
          · intro hfits p hp
            simp only [Option.isSome_some, if_true, hpackage, List.mem_append,
              List.mem_singleton] at hp
            rcases hp with hp | rfl
            · exact hwhole p hp
            · exact hiff.mpr (hfits hdelivers)
  | overflowed i bytesRead =>
      exact ⟨fun _ hdelivers => by simp [delivers] at hdelivers, fun _ => hwhole⟩
  | interrupted => exact ⟨fun _ => trivial, fun _ => hwhole⟩
  | stopped _ t hquiet =>
      refine ⟨fun _ => ?_, fun _ => hwhole⟩
      cases a with
      | completeRead i ec bytesRead => simp [EndsFitting, hquiet]
      | _ => trivial
  | kept _ t hquiet =>
      refine ⟨fun _ => ?_, fun _ => hwhole⟩
      cases a with
      | completeRead i ec bytesRead => simp [EndsFitting, hquiet]
      | _ => trivial

/-- Only whole frames are passed on in exactly the runs whose delivered frames all fit
the buffer and are not interrupted. -/
theorem deliversWhole_iff_endsFitting (frameDelimiter : UInt8) (schedule : List Action)
    (r : Listener) (hcontract : Meets listen (ReadsUntil frameDelimiter) Listener.init schedule)
    (hexec : exec listen Listener.init schedule = some r) :
    Always listen (DeliversWhole frameDelimiter) Listener.init schedule ↔
      Meets listen (EndsFitting frameDelimiter) Listener.init schedule :=
  always_iff_meets_within
    (I := fun r => (r.transport.stopped = false → ∃ front, Aligned frameDelimiter r front) ∧
      DeliversWhole frameDelimiter r)
    (fun _ _ _ hr hcontract hfits hlisten => ⟨aligned_step hr.1 hcontract hlisten,
      (deliversWhole_step hr.1 hr.2 hcontract hlisten).mpr hfits⟩)
    (fun _ hr => hr.2)
    (fun _ _ _ hr hcontract hfits hlisten h =>
      hfits ((deliversWhole_step hr.1 hr.2 hcontract hlisten).mp h))
    ⟨by simp [Listener.init, Transport.init], by simp [DeliversWhole, Listener.init]⟩
    hcontract hexec

end Delimiter

def listening : List Action :=
  [.post (.openPort ⟨2, 10, 512⟩), .run 0 .succeeds, .post (.setFrameHandler (some 1)),
    .run 0 .succeeds]

/-- A frame of four bytes, its delimiter included, for a buffer of two. -/
def overlongFrame : List Action :=
  listening ++
    [.receive [1, 2], .completeRead 0 .notFound 0, .receive [3, 0], .completeRead 0 .success 2]

theorem not_deliversWhole_overlongFrame :
    ∃ r, exec listen Listener.init overlongFrame = some r ∧
      Meets listen (ReadsUntil 0) Listener.init overlongFrame ∧ r.transport.ended = none ∧
      r.received = [1, 2, 3, 0] ∧ r.handed = [(2, [3, 0])] ∧ ¬ DeliversWhole 0 r := by
  refine ⟨(exec listen Listener.init overlongFrame).get (by decide), by simp, ?_, ?_, ?_, ?_, ?_⟩
    <;> decide

def fittingFrames : List Action :=
  listening ++
    [.receive [1, 0], .completeRead 0 .success 2, .receive [0], .receive [2],
      .completeRead 0 .success 1, .receive [3], .completeRead 0 .notFound 0]

theorem deliversWhole_fittingFrames :
    Always listen (DeliversWhole 0) Listener.init fittingFrames :=
  (deliversWhole_iff_endsFitting 0 fittingFrames
    ((exec listen Listener.init fittingFrames).get (by decide)) (by decide) (by simp)).mpr
      (by decide)

end EasyLoRa.WholeFrames
