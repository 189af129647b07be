import EasyLoRa.Pumps
import EasyLoRa.WholeFrames

namespace EasyLoRa.ExactFraming

open EasyLoRa.DelimitedFrames
open EasyLoRa.TransportModel
open EasyLoRa.TransportSystem
open EasyLoRa.TransportOutcomes
open EasyLoRa.TransitionSystem
open EasyLoRa.PortState
open EasyLoRa.Pumps
open EasyLoRa.Reception
open EasyLoRa.WholeFrames

/-- The frames of a stream have at most `room` symbols, their delimiter included, and an
unfinished last one has fewer. -/
def FitsRoom (d : UInt8) (room : Nat) (stream : List UInt8) : Prop :=
  (∀ f ∈ frames d stream, f.length < room) ∧ (tail d stream).length < room

instance (d : UInt8) (room : Nat) (stream : List UInt8) : Decidable (FitsRoom d room stream) :=
  inferInstanceAs (Decidable ((∀ f ∈ _, _) ∧ _))

theorem fitsRoom_of_append {d : UInt8} {room : Nat} {xs ys : List UInt8}
    (h : FitsRoom d room (xs ++ ys)) : FitsRoom d room xs := by
  apply forall_frames_of_append ?_ h
  intro f g hlength
  rw [List.length_append] at hlength
  omega

section Delimiter

variable (frameDelimiter : UInt8)

/-- The stream keeps to `ReadsUntil`, a frame handler is installed when a read succeeds,
and no write fails with the recoverable error. -/
def ReadsUndisturbed (r : Listener) (a : Action) : Prop :=
  ReadsUntil frameDelimiter r a ∧
    match a with
    | .completeRead i ec bytesRead =>
        liveRead r.transport i = true → ec = .success →
          delivers r.transport (.completeRead i ec bytesRead) = true
    | .completeWrite i ec => recovering r.transport i ec = false
    | _ => True

instance (r : Listener) (a : Action) : Decidable (ReadsUndisturbed frameDelimiter r a) := by
  induction a using TransportSystem.Action.casesOn <;> dsimp only [ReadsUndisturbed] <;>
    infer_instance

/-- The packages are the first frames of the stream, each with its delimiter; no read has
overflowed, and `rxBuffer` is what has not been passed on. -/
structure Exact (r : Listener) : Prop where
  buffered : (r.handed.map Prod.snd).flatten ++ r.transport.rxBuffer = r.received
  ordered : r.handed.map Prod.snd =
    ((frames frameDelimiter r.received).take r.handed.length).map (· ++ [frameDelimiter])
  complete : frameDelimiter ∉ r.transport.rxBuffer →
    r.handed.length = (frames frameDelimiter r.received).length
  unrecovered : r.recoveries = 0

/-- `Exact`, step by step. -/
structure HandingOver (r : Listener) (delivered : List (List UInt8)) : Prop where
  clean : ∀ f ∈ delivered, frameDelimiter ∉ f
  handed : r.handed.map Prod.snd = delivered.map (· ++ [frameDelimiter])
  buffered : r.received = encode frameDelimiter delivered ++ r.transport.rxBuffer
  unrecovered : r.recoveries = 0

variable {frameDelimiter}

theorem exact_of_delivering {r : Listener} {delivered : List (List UInt8)}
    (hr : HandingOver frameDelimiter r delivered) : Exact frameDelimiter r := by
  have hframes : frames frameDelimiter r.received =
      delivered ++ frames frameDelimiter r.transport.rxBuffer := by
    rw [hr.buffered, frames_encode_append hr.clean]
  have hlength : r.handed.length = delivered.length := by
    simpa using congrArg List.length hr.handed
  constructor
  · rw [hr.handed, hr.buffered, encode, List.flatMap]
  · rw [hr.handed, hframes, hlength, List.take_left]
  · intro hnone
    rw [hframes, frames_of_not_mem hnone, List.append_nil, hlength]
  · exact hr.unrecovered

theorem handingOver_step {r u : Listener} {a : Action}
    (hr : r.transport.stopped = false →
      FitsRoom frameDelimiter r.transport.bufferConfig.rxBufferMaxSize r.received →
      ∃ delivered, HandingOver frameDelimiter r delivered)
    (hundisturbed : ReadsUndisturbed frameDelimiter r a) (hlisten : listen r a = some u) :
    u.transport.stopped = false →
      FitsRoom frameDelimiter u.transport.bufferConfig.rxBufferMaxSize u.received →
      ∃ delivered, HandingOver frameDelimiter u delivered := by
  intro hrunning hfits
  obtain ⟨hcontract, hcalm⟩ := hundisturbed
  cases listen_outcome hlisten with
  | began i outcome t hempty => exact ⟨[], by simp, rfl, hempty.symm, rfl⟩
  | received bytes t hbuffer hconfig hstopped =>
      obtain ⟨delivered, h⟩ := hr (hstopped ▸ hrunning) (fitsRoom_of_append (hconfig ▸ hfits))
      refine ⟨delivered, h.clean, h.handed, ?_, h.unrecovered⟩
      rw [hbuffer, ← List.append_assoc, ← h.buffered]
  | delivered i bytesRead t hlive hopen hbuffer hconfig =>
      obtain ⟨delivered, h⟩ := hr hopen (hconfig ▸ hfits)
      obtain ⟨body, rest, hsplit, hbody, rfl⟩ := split_of_readsUntil hcontract hlive
      have hhandler : r.transport.frameHandler.isSome = true := by
        simpa [delivers, hlive] using hcalm hlive rfl
      have hsplit' : r.transport.rxBuffer = body ++ [frameDelimiter] ++ rest := by
        rw [hsplit, List.append_cons]
      have hlength : (body ++ [frameDelimiter]).length = body.length + 1 := by simp
      refine ⟨delivered ++ [body], ?_, ?_, ?_, h.unrecovered⟩
      · simpa [or_imp, forall_and, hbody] using h.clean
      · simp only [hhandler, if_true, hsplit', List.take_left' hlength, List.map_append, h.handed,
          List.map_cons, List.map_nil]
      · show r.received = _
        rw [h.buffered, hbuffer, hsplit', List.drop_left' hlength, encode_append,
          encode_singleton]
        simp only [List.append_assoc]
  | overflowed i bytesRead t hlive hopen hbuffer hconfig =>
      obtain ⟨delivered, h⟩ := hr hopen (hconfig ▸ hfits)
      obtain ⟨hnone, hfull⟩ := (hcontract hlive).2 rfl
      have htail : tail frameDelimiter r.received = r.transport.rxBuffer := by
        rw [h.buffered, tail_encode_append, tail_of_not_mem hnone]
      have hshort := (hconfig ▸ hfits).2
      rw [htail] at hshort
      exact absurd hfull (Nat.not_le.mpr hshort)
  | interrupted i t hrecovering => simp [hrecovering] at hcalm
  | stopped _ t hquiet hstopped => simp [hstopped] at hrunning
  | kept _ t hquiet hbuffer hconfig hstopped =>
      obtain ⟨delivered, h⟩ := hr (hstopped ▸ hrunning) (hconfig ▸ hfits)
      exact ⟨delivered, h.clean, h.handed, hbuffer ▸ h.buffered, h.unrecovered⟩

theorem transport_of_listen {r u : Listener} {a : Action} (hlisten : listen r a = some u) :
    step r.transport a = some u.transport := by
  obtain ⟨t, hstep, rfl⟩ := Option.map_eq_some_iff.mp hlisten
  rw [hstep, observe]
  split <;> rfl

theorem rxBuffer_of_begins {s t : Transport} {a : Action} (hbegins : begins s a = true)
    (hstep : step s a = some t) : t.rxBuffer = [] := by
  cases step_outcome hstep with
  | openFailed => rfl
  | opened => rfl
  | closed => rfl
  | suppressed i outcome request htask hclosing =>
      cases request <;> simp [begins, succeeding, opening, htask, hclosing] at hbegins
  | handlersSet i outcome request fh feh reh wh htask hclosing hset =>
      rw [begins_run htask (by cases hset <;> simp)] at hbegins
      cases hbegins
  | cancelled i outcome w htask =>
      rw [begins_run htask (by simp)] at hbegins
      cases hbegins
  | queued i outcome w htask =>
      rw [begins_run htask (by simp)] at hbegins
      cases hbegins
  | started i outcome w htask =>
      rw [begins_run htask (by simp)] at hbegins
      cases hbegins
  | _ => simp [begins] at hbegins

theorem handingOver_of_begins {q r : Listener} {a : Action}
    (hbegins : begins q.transport a = true) (hlisten : listen q a = some r) :
    HandingOver frameDelimiter r [] := by
  have hempty := rxBuffer_of_begins hbegins (transport_of_listen hlisten)
  obtain ⟨t, hstep, rfl⟩ := Option.map_eq_some_iff.mp hlisten
  rw [observe, if_pos hbegins] at hempty ⊢
  exact ⟨by simp, rfl, hempty.symm, rfl⟩

/-- In a session that begins anywhere in a run: while it is open and the frames of its
stream fit, framing is exact, and a read is outstanding to go on with it. -/
theorem exact_of_fits (frameDelimiter : UInt8) (before during : List Action) (a : Action)
    (q r u : Listener) (hbefore : exec listen Listener.init before = some q)
    (hbegins : begins q.transport a = true) (hbegun : listen q a = some r)
    (hundisturbed : Meets listen (ReadsUndisturbed frameDelimiter) r during)
    (hduring : exec listen r during = some u) (hopen : isOpen u.transport = true)
    (hfits : FitsRoom frameDelimiter u.transport.bufferConfig.rxBufferMaxSize u.received) :
    Exact frameDelimiter u ∧ u.transport.generation ∈ u.transport.reads := by
  have hcurrent : u.transport.currentState = .opened := of_decide_eq_true hopen
  have hstable : ∀ r a u, Coherent r.transport ∧ Reading r.transport →
      listen r a = some u → Coherent u.transport ∧ Reading u.transport := by
    intro r a u hr hlisten
    have hstep := transport_of_listen hlisten
    exact ⟨coherent_step hr.1 hstep, reading_step hr.1 hr.2 hstep⟩
  have hq : Coherent q.transport ∧ Reading q.transport :=
    exec_stable (I := fun r => Coherent r.transport ∧ Reading r.transport) hstable
      ⟨coherent_init, by simp [Reading, Listener.init, Transport.init]⟩ hbefore
  obtain ⟨hcoherent, hreading⟩ := exec_stable
    (I := fun r => Coherent r.transport ∧ Reading r.transport) hstable (hstable q a r hq hbegun)
    hduring
  have hdelivering := exec_invariant
    (I := fun r => r.transport.stopped = false →
      FitsRoom frameDelimiter r.transport.bufferConfig.rxBufferMaxSize r.received →
      ∃ delivered, HandingOver frameDelimiter r delivered)
    (fun _ _ _ hr hundisturbed hlisten => handingOver_step hr hundisturbed hlisten)
    (fun _ _ => ⟨[], handingOver_of_begins hbegins hbegun⟩) hundisturbed hduring
  obtain ⟨delivered, h⟩ := hdelivering (hcoherent.opened.mp hcurrent).2 hfits
  exact ⟨exact_of_delivering h, hreading hcurrent⟩

end Delimiter

/-- The handler of the session before was told of a part of a frame. -/
def reopening : List Action :=
  [.post (.openPort ⟨1, 10, 512⟩), .run 0 .succeeds, .post (.setFrameHandler (some 1)),
    .run 0 .succeeds, .receive [9], .completeRead 0 .notFound 0, .receive [0],
    .completeRead 0 .success 1, .completeRead 0 .eof 0, .post (.openPort ⟨4, 10, 512⟩)]

def reopeningListener : Listener := (exec listen Listener.init reopening).get (by decide)

def reopenedListener : Listener := (listen reopeningListener (.run 0 .succeeds)).get (by decide)

/-- A frame fills the buffer, and a later read brings the end of one frame, another whole
one and the beginning of the next. -/
def choppedFrames : List Action :=
  [.receive [1, 2, 3], .receive [0], .completeRead 0 .success 4, .receive [4],
    .receive [0, 0, 5], .completeRead 0 .success 2, .completeRead 0 .success 1]

def choppedListener : Listener := (exec listen reopenedListener choppedFrames).get (by decide)

theorem exact_choppedFrames :
    Exact 0 choppedListener ∧ choppedListener.received = [1, 2, 3, 0, 4, 0, 0, 5] ∧
      choppedListener.handed.map Prod.snd = [[1, 2, 3, 0], [4, 0], [0]] := by
  refine ⟨?_, by decide, by decide⟩
  exact (exact_of_fits 0 reopening choppedFrames (.run 0 .succeeds) reopeningListener
    reopenedListener choppedListener (by simp [reopeningListener]) (by decide)
    (by simp [reopenedListener]) (by decide) (by simp [choppedListener]) (by decide)
    (by decide)).1

end EasyLoRa.ExactFraming
