import EasyLoRa.FrameWaiterCalls

namespace EasyLoRa.OverflowSoundness

open EasyLoRa.ByteQueue
open EasyLoRa.DelimitedFrames
open EasyLoRa.FrameWaiterModel
open EasyLoRa.FrameWaiterOutcomes
open EasyLoRa.FrameWaiterCalls
open EasyLoRa.TransitionSystem

variable {N : Nat} {Q : Ringbuffer N}

/-- The payloads are frames of the fed stream, each taken from a later place
than the one before. -/
def OnlyFrames (s : CallState Q) : Prop :=
  (delivered s.returned).Sublist (frames packetDelimiter s.stream)

instance (s : CallState Q) : Decidable (OnlyFrames s) :=
  inferInstanceAs (Decidable (List.Sublist _ _))

def FramesFit (s : CallState Q) : Prop :=
  ∀ f ∈ frames packetDelimiter s.stream, f.length ≤ N

instance (s : CallState Q) : Decidable (FramesFit s) :=
  inferInstanceAs (Decidable (∀ f ∈ _, _))

/-- The state before a call keeps a damaged frame apart from the others: no byte
goes into the ring behind the remains of a frame that lost one, and no read
takes up the overflow report while it holds bytes of an undamaged frame. -/
def KeepsApart (s : CallState Q) : Call → Prop
  | .feed byte =>
      ¬ (accepts s.waiter byte = true ∧ s.lastAccepted = false ∧
        tail packetDelimiter s.waiter.unread ≠ [])
  | .read (some _) _ =>
      ¬ (s.waiter.overflow = true ∧ packetDelimiter ∉ s.waiter.ring ∧
        s.lastAccepted = true ∧ s.waiter.unread ≠ [])
  | .read none _ => True

instance (s : CallState Q) (c : Call) : Decidable (KeepsApart s c) := by
  unfold KeepsApart
  split <;> infer_instance

/-- What holds between the fed stream and the bytes still unread. While the last
fed byte was accepted, the unread tail is the tail of the stream. -/
structure Apart (s : CallState Q) : Prop where
  pending : packetDelimiter ∉ s.waiter.pending
  sublist : (delivered s.returned ++ frames packetDelimiter s.waiter.unread).Sublist
    (frames packetDelimiter s.stream)
  tail_eq : s.lastAccepted = true → (tail packetDelimiter s.stream).length ≤ N →
    tail packetDelimiter s.waiter.unread = tail packetDelimiter s.stream
  resumed : s.lastAccepted = false → s.waiter.droppingFeedBytes = false →
    tail packetDelimiter s.stream = []

theorem apart_init (callback : Bool) : Apart (CallState.init Q callback) := by
  constructor <;> simp [CallState.init, CallState.stream, CallState.lastAccepted,
    FrameWaiter.unread]

theorem stream_of_fed {s t : CallState Q} {byte : UInt8} {taken : Bool}
    (hfed : t.fed = s.fed ++ [(byte, taken)]) : t.stream = s.stream ++ [byte] := by
  simp [CallState.stream, hfed]

theorem lastAccepted_of_fed {s t : CallState Q} {byte : UInt8} {taken : Bool}
    (hfed : t.fed = s.fed ++ [(byte, taken)]) : t.lastAccepted = taken := by
  simp [CallState.lastAccepted, hfed]

theorem framesFit_of_feed {s t : CallState Q} {byte : UInt8} {taken : Bool}
    (hfed : t.fed = s.fed ++ [(byte, taken)]) (hfit : FramesFit t) : FramesFit s := by
  intro f hf
  apply hfit
  rw [stream_of_fed hfed]
  exact (frames_prefix_append packetDelimiter s.stream [byte]).subset hf

theorem tail_eq_of_accepted {s : CallState Q} (hs : Apart s) {byte : UInt8}
    (hkeeps : KeepsApart s (.feed byte)) (haccepts : accepts s.waiter byte = true)
    (hdropping : s.waiter.droppingFeedBytes = false)
    (hlen : (tail packetDelimiter s.stream).length ≤ N) :
    tail packetDelimiter s.waiter.unread = tail packetDelimiter s.stream := by
  cases hlast : s.lastAccepted with
  | true => exact hs.tail_eq hlast hlen
  | false =>
      have hunread : tail packetDelimiter s.waiter.unread = [] := by
        by_contra hne
        exact hkeeps ⟨haccepts, hlast, hne⟩
      rw [hunread, hs.resumed hlast hdropping]

theorem apart_feed {s t : CallState Q} {byte : UInt8} (hs : Apart s)
    (hkeeps : KeepsApart s (.feed byte)) (hstep : callStep s (.feed byte) = some t)
    (hfit : FramesFit t) : Apart t := by
  cases feedCall_outcome hstep with
  | lost hfed hreturned hpending hring hdropping' =>
      have hunread : t.waiter.unread = s.waiter.unread := by
        simp [FrameWaiter.unread, hpending, hring]
      have hlast : t.lastAccepted = false := lastAccepted_of_fed hfed
      refine ⟨hpending ▸ hs.pending, ?_, by simp [hlast], ?_⟩
      · rw [hreturned, hunread, stream_of_fed hfed]
        exact hs.sublist.trans (frames_prefix_append packetDelimiter s.stream [byte]).sublist
      · intro _ hd
        rw [stream_of_fed hfed, hdropping' hd, tail_concat_delimiter]
  | accepted hdropping haccepts hfed hreturned hpending hring hdropping' =>
      have hunread : t.waiter.unread = s.waiter.unread ++ [byte] := by
        simp [FrameWaiter.unread, hpending, hring]
      have hlast : t.lastAccepted = true := lastAccepted_of_fed hfed
      have htail := tail_eq_of_accepted hs hkeeps haccepts hdropping
      by_cases hbyte : byte = packetDelimiter
      · subst hbyte
        have hlen : (tail packetDelimiter s.stream).length ≤ N := by
          apply hfit
          simp [stream_of_fed hfed]
        refine ⟨hpending ▸ hs.pending, ?_, ?_, by simp [hlast]⟩
        · rw [hreturned, hunread, stream_of_fed hfed, frames_concat_delimiter,
            frames_concat_delimiter, htail hlen, ← List.append_assoc]
          exact hs.sublist.append (List.Sublist.refl _)
        · intro _ _
          rw [hunread, stream_of_fed hfed, tail_concat_delimiter, tail_concat_delimiter]
      · refine ⟨hpending ▸ hs.pending, ?_, ?_, by simp [hlast]⟩
        · rw [hreturned, hunread, stream_of_fed hfed, frames_concat_of_ne hbyte,
            frames_concat_of_ne hbyte]
          exact hs.sublist
        · intro _ hlen
          rw [stream_of_fed hfed, tail_concat_of_ne hbyte, List.length_append] at hlen
          rw [hunread, stream_of_fed hfed, tail_concat_of_ne hbyte, tail_concat_of_ne hbyte,
            htail (by omega)]

/-- A call that leaves the stream alone and disposes of whole frames at the front
of the unread bytes keeps the relation. -/
theorem apart_of_front {s t : CallState Q} (hs : Apart s) (hfed : t.fed = s.fed)
    (hdropping : t.waiter.droppingFeedBytes = s.waiter.droppingFeedBytes)
    (hpending : packetDelimiter ∉ t.waiter.pending)
    (hsublist : (delivered t.returned ++ frames packetDelimiter t.waiter.unread).Sublist
      (delivered s.returned ++ frames packetDelimiter s.waiter.unread))
    (htail : s.lastAccepted = true → (tail packetDelimiter s.stream).length ≤ N →
      tail packetDelimiter t.waiter.unread = tail packetDelimiter s.waiter.unread) :
    Apart t := by
  have hstream : t.stream = s.stream := by simp [CallState.stream, hfed]
  have hlast : t.lastAccepted = s.lastAccepted := by simp [CallState.lastAccepted, hfed]
  refine ⟨hpending, ?_, ?_, ?_⟩
  · rw [hstream]
    exact hsublist.trans hs.sublist
  · rw [hstream, hlast]
    exact fun hl hlen => (htail hl hlen).trans (hs.tail_eq hl hlen)
  · rw [hstream, hlast, hdropping]
    exact hs.resumed

theorem apart_read {s t : CallState Q} {out : List UInt8} {cap : Nat} (hs : Apart s)
    (hkeeps : KeepsApart s (.read (some out) cap))
    (hstep : callStep s (.read (some out) cap) = some t) (hfit : FramesFit s) : Apart t := by
  obtain ⟨r, hout, hfed, hreturned⟩ := readCall_outcome hs.pending hstep
  cases hout with
  | delivered _ f rest hf hunread hsize hcap hl =>
      have hrest : t.waiter.unread = rest := by
        simp [FrameWaiter.unread, hl.pending_eq, hl.ring_eq]
      refine apart_of_front hs hfed hl.dropping_eq (by simp [hl.pending_eq]) ?_ ?_
      · rw [hreturned, delivered_concat_ok, hrest, hunread, frames_frame_append hf]
        simp
      · intro _ _
        rw [hrest, hunread, tail_frame_append]
  | rejected _ f rest hf hunread hsize hcap hl =>
      have hrest : t.waiter.unread = rest := by
        simp [FrameWaiter.unread, hl.pending_eq, hl.ring_eq]
      refine apart_of_front hs hfed hl.dropping_eq (by simp [hl.pending_eq]) ?_ ?_
      · rw [hreturned, delivered_concat_of_ne _ (by simp [returnEmpty]), hrest, hunread,
          frames_frame_append hf]
        simp
      · intro _ _
        rw [hrest, hunread, tail_frame_append]
  | oversize _ f rest hf hunread hsize hl =>
      have hnone : packetDelimiter ∉ s.waiter.unread := by
        rw [hunread]
        refine (append_mem_frames_or_not_mem hf rest).resolve_left ?_
        rintro ⟨g, hframe⟩
        rw [← hunread] at hframe
        have hlong := hfit _ (hs.sublist.subset (List.mem_append_right _ hframe))
        rw [List.length_append] at hlong
        omega
      have hrest : packetDelimiter ∉ rest := fun h => hnone (by simp [hunread, h])
      have hempty : t.waiter.unread = [] := by
        simp [FrameWaiter.unread, hl.pending_eq, hl.ring_eq, skipFrame_of_not_mem hrest]
      refine apart_of_front hs hfed hl.dropping_eq (by simp [hl.pending_eq]) ?_ ?_
      · rw [hreturned, delivered_concat_of_ne _ (by simp [returnEmpty]), hempty,
          frames_of_not_mem hnone]
        simp
      · intro hlast hlen
        rw [← hs.tail_eq hlast hlen, tail_of_not_mem hnone, hunread, List.length_append] at hlen
        omega
  | overflowed _ hnone hsize hoverflow hl =>
      have hempty : t.waiter.unread = [] := by
        simp [FrameWaiter.unread, hl.pending_eq, hl.ring_eq]
      refine apart_of_front hs hfed hl.dropping_eq (by simp [hl.pending_eq]) ?_ ?_
      · rw [hreturned, delivered_concat_of_ne _ (by simp [returnEmpty]), hempty,
          frames_of_not_mem hnone]
        simp
      · intro hlast _
        have hring : packetDelimiter ∉ s.waiter.ring := fun h =>
          hnone (List.mem_append_right _ h)
        have hunread : s.waiter.unread = [] := by
          by_contra hne
          exact hkeeps ⟨hoverflow, hring, hlast, hne⟩
        rw [hempty, hunread]
  | unfinished _ hnone hsize hoverflow hl =>
      have hunread : t.waiter.unread = s.waiter.unread := by
        rw [FrameWaiter.unread, hl.pending_eq, hl.ring_eq, List.append_nil]
      refine apart_of_front hs hfed hl.dropping_eq ?_ ?_ fun _ _ => by rw [hunread]
      · rw [hl.pending_eq]
        exact hnone
      · rw [hreturned, delivered_concat_of_ne _ (by simp [returnEmpty]), hunread]

theorem apart_step {s t : CallState Q} {c : Call} (hs : FramesFit s → Apart s)
    (hkeeps : KeepsApart s c) (hstep : callStep s c = some t) : FramesFit t → Apart t := by
  intro hfit
  cases c with
  | feed byte =>
      have hfits : FramesFit s := by
        cases feedCall_outcome hstep with
        | accepted _ _ hfed => exact framesFit_of_feed hfed hfit
        | lost hfed => exact framesFit_of_feed hfed hfit
      exact apart_feed (hs hfits) hkeeps hstep hfit
  | read outputBuffer cap =>
      cases outputBuffer with
      | none =>
          simp only [callStep, tryReadFrame_none, Option.map_some, Option.some.injEq] at hstep
          subst hstep
          have hs := hs hfit
          refine apart_of_front hs rfl rfl hs.pending ?_ fun _ _ => rfl
          rw [delivered_concat_of_ne _ (by simp)]
      | some out =>
          have hfits : FramesFit s := by
            have hstep' := hstep
            simp only [callStep, Option.map_eq_some_iff] at hstep'
            obtain ⟨p, -, rfl⟩ := hstep'
            exact hfit
          exact apart_read (hs hfits) hkeeps hstep hfits

/-- In a run that keeps damaged frames apart, a consumer receives frames of the
fed stream only, in their order. -/
theorem onlyFrames_of_keepsApart (Q : Ringbuffer N) (callback : Bool) (schedule : List Call)
    (s : CallState Q) (hmeets : Meets callStep KeepsApart (CallState.init Q callback) schedule)
    (hexec : exec callStep (CallState.init Q callback) schedule = some s)
    (hfit : FramesFit s) : OnlyFrames s := by
  have hs : FramesFit s → Apart s :=
    exec_invariant (I := fun s => FramesFit s → Apart s)
      (fun _ _ _ hs hkeeps hstep => apart_step hs hkeeps hstep)
      (fun _ => apart_init callback) hmeets hexec
  exact (List.sublist_append_left _ _).trans (hs hfit).sublist

/-- Bytes `1 0 2 3 4 0 5 0` in a ring of four bytes. The ring has room for the first
two bytes of the second frame; its last byte is lost. -/
def mergingSchedule : List Call :=
  [.feed 1, .feed 0, .feed 2, .feed 3, .feed 4, .feed 0, .read (some []) 4, .feed 5, .feed 0,
    .read (some []) 4]

/-- The remains of the second frame are delivered glued to the third. -/
theorem merged_frame_delivered :
    ∃ s, exec callStep (CallState.init (fifo 4) true) mergingSchedule = some s ∧
      FramesFit s ∧ delivered s.returned = [[1], [2, 3, 5]] ∧
      frames packetDelimiter s.stream = [[1], [2, 3, 4], [5]] ∧ ¬ OnlyFrames s := by
  refine ⟨(exec callStep (CallState.init (fifo 4) true) mergingSchedule).get (by decide),
    by simp, ?_, ?_, ?_, ?_⟩ <;> decide

def recoveringSchedule : List Call :=
  [.feed 1, .feed 0, .feed 2, .feed 3, .feed 4, .feed 0, .read (some []) 4, .read (some []) 4,
    .feed 5, .feed 0, .read (some []) 4]

theorem onlyFrames_recoveringSchedule :
    ∃ s, exec callStep (CallState.init (fifo 4) true) recoveringSchedule = some s ∧
      delivered s.returned = [[1], [5]] ∧ OnlyFrames s := by
  refine ⟨(exec callStep (CallState.init (fifo 4) true) recoveringSchedule).get (by decide),
    by simp, by decide, ?_⟩
  exact onlyFrames_of_keepsApart (fifo 4) true recoveringSchedule _ (by decide) (by simp)
    (by decide)

end EasyLoRa.OverflowSoundness
