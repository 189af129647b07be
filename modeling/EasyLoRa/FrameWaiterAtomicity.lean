import EasyLoRa.FrameWaiterSteps

namespace EasyLoRa.FrameWaiterAtomicity

open EasyLoRa.ByteQueue
open EasyLoRa.FrameWaiterModel
open EasyLoRa.FrameWaiterCalls
open EasyLoRa.FrameWaiterSteps
open EasyLoRa.TransitionSystem

variable {N : Nat} {Q : Ringbuffer N}

def history (s : StepState Q) : CallState Q := ⟨s.waiter, s.fed, s.returned⟩

def Idle (s : StepState Q) : Prop := s.feeding = none ∧ s.reading = none

/-- The accesses that a call of `feed` performs when it is alone. -/
def feedActions (w : FrameWaiter Q) (byte : UInt8) : List Action :=
  if w.droppingFeedBytes then
    if byte = packetDelimiter then [.feed byte, .produce, .produce] else [.feed byte, .produce]
  else
    match Q.insert w.buffer byte with
    | none => [.feed byte, .produce, .produce, .produce, .produce]
    | some _ =>
        if byte = packetDelimiter ∧ w.callback = true then
          [.feed byte, .produce, .produce, .produce]
        else [.feed byte, .produce, .produce]

theorem exec_feedActions {s : StepState Q} (hidle : Idle s) (byte : UInt8) :
    exec step s (feedActions s.waiter byte) = some { s with
      waiter := (feed s.waiter byte).1
      fed := s.fed ++ [(byte, accepts s.waiter byte)]
      finished := s.finished ++ [byte]
      callbacks := s.callbacks + (feed s.waiter byte).2.toNat } := by
  obtain ⟨hfeeding, -⟩ := hidle
  cases hdropping : s.waiter.droppingFeedBytes with
  | true =>
      by_cases hbyte : byte = packetDelimiter <;>
        simp [feedActions, exec, step, feedStep, fate, feed, accepts, hfeeding, hdropping, hbyte]
  | false =>
      cases hinsert : Q.insert s.waiter.buffer byte with
      | none =>
          simp [feedActions, exec, step, feedStep, fate, feed, accepts, hfeeding, hdropping,
            hinsert]
      | some buffer =>
          by_cases hcall : byte = packetDelimiter ∧ s.waiter.callback = true
          · obtain ⟨rfl, hcallback⟩ := hcall
            simp [feedActions, exec, step, feedStep, fate, feed, accepts, hfeeding, hdropping,
              hinsert, hcallback]
          · have hsilent : (decide (byte = packetDelimiter) && s.waiter.callback) = false := by
              simpa using hcall
            simp [feedActions, exec, step, feedStep, fate, feed, accepts, hfeeding, hdropping,
              hinsert, hcall, hsilent]

theorem exec_consume_of_finishRead {fuel : Nat} {s : StepState Q} {pc : ReadPc}
    {w : FrameWaiter Q} {r : ReadResult} (hreading : s.reading = some pc)
    (hfinish : finishRead fuel s.waiter (.inl pc) = some (w, r)) :
    ∃ k, exec step s (List.replicate k .consume) =
      some { s with waiter := w, reading := none, returned := s.returned ++ [r] } := by
  induction fuel generalizing s pc with
  | zero => cases hfinish
  | succ fuel ih =>
      generalize hread : readStep s.waiter pc = p at hfinish
      obtain ⟨w', next⟩ := p
      simp only [finishRead, hread] at hfinish
      cases next with
      | inl pc' =>
          have hstep : step s .consume = some { s with waiter := w', reading := some pc' } := by
            simp only [step, hreading, hread]
          obtain ⟨k, hk⟩ := ih (s := { s with waiter := w', reading := some pc' }) rfl hfinish
          exact ⟨k + 1, exec_cons_eq_some.mpr ⟨_, hstep, hk⟩⟩
      | inr r' =>
          have hstep : step s .consume =
              some { s with waiter := w', reading := none, returned := s.returned ++ [r'] } := by
            simp only [step, hreading, hread]
          obtain ⟨rfl, rfl⟩ : w' = w ∧ r' = r := by
            cases fuel <;> simpa [finishRead] using hfinish
          exact ⟨1, exec_cons_eq_some.mpr ⟨_, hstep, rfl⟩⟩

theorem exec_of_callStep {s : StepState Q} (hidle : Idle s) {call : Call} {c : CallState Q}
    (hcall : callStep (history s) call = some c) :
    ∃ actions t, exec step s actions = some t ∧ Idle t ∧ history t = c := by
  cases call with
  | feed byte =>
      obtain rfl := Option.some.inj hcall
      exact ⟨_, _, exec_feedActions hidle byte, hidle, rfl⟩
  | read outputBuffer bufferCapacity =>
      obtain ⟨⟨w, r⟩, hread, rfl⟩ := Option.map_eq_some_iff.mp hcall
      cases outputBuffer with
      | none =>
          obtain ⟨rfl, rfl⟩ : s.waiter = w ∧ (⟨.bufferNullptr, 0, none⟩ : ReadResult) = r := by
            simpa [tryReadFrame, readEntry, finishRead, history] using hread
          have hstep : step s (.read none bufferCapacity) =
              some { s with returned := s.returned ++ [⟨.bufferNullptr, 0, none⟩] } := by
            simp [step, hidle.2, readEntry]
          exact ⟨[_], _, exec_cons_eq_some.mpr ⟨_, hstep, rfl⟩, hidle, rfl⟩
      | some out =>
          have hstep : step s (.read (some out) bufferCapacity) =
              some { s with reading := some (.removing out bufferCapacity) } := by
            simp [step, hidle.2, readEntry]
          obtain ⟨k, hk⟩ := exec_consume_of_finishRead
            (s := { s with reading := some (.removing out bufferCapacity) }) rfl hread
          exact ⟨_ :: _, _, exec_cons_eq_some.mpr ⟨_, hstep, hk⟩, ⟨hidle.1, rfl⟩, rfl⟩

/-- Every run of whole calls is a run of single accesses. -/
theorem exec_of_exec_callStep {s : StepState Q} (hidle : Idle s) {calls : List Call}
    {c : CallState Q} (hexec : exec callStep (history s) calls = some c) :
    ∃ actions t, exec step s actions = some t ∧ Idle t ∧ history t = c := by
  induction calls generalizing s with
  | nil => exact ⟨[], s, rfl, hidle, Option.some.inj hexec⟩
  | cons call calls ih =>
      obtain ⟨d, hcall, hrest⟩ := exec_cons_eq_some.mp hexec
      obtain ⟨actions, t, hactions, hidleT, rfl⟩ := exec_of_callStep hidle hcall
      obtain ⟨later, u, hlater, hidleU, hhistory⟩ := ih hidleT hrest
      exact ⟨actions ++ later, u, exec_append_eq_some.mpr ⟨t, hactions, hlater⟩, hidleU, hhistory⟩

theorem exec_of_exec_calls {callback : Bool} {calls : List Call} {c : CallState Q}
    (hexec : exec callStep (CallState.init Q callback) calls = some c) :
    ∃ actions t, exec step (StepState.init Q callback) actions = some t ∧ Idle t ∧
      history t = c :=
  exec_of_exec_callStep ⟨rfl, rfl⟩ hexec

end EasyLoRa.FrameWaiterAtomicity
