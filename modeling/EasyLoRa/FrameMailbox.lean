import EasyLoRa.DelimitedFrames
import EasyLoRa.TransitionSystem

/-!
Mailboxes for delimited frames with atomic operations: a symbol is put in, and a frame is
taken out if there is one. One kind takes whole frames whatever their length. The other has
room for the beginning of a frame only: of a longer one it throws away what has been put
in, and takes what comes later for a frame of its own.
-/

namespace EasyLoRa.FrameMailbox

open EasyLoRa.DelimitedFrames
open EasyLoRa.TransitionSystem

universe u

variable {α : Type u} [DecidableEq α]

inductive Call (α : Type u) where
  | put (b : α)
  | take (capacity : Nat)
deriving DecidableEq, Repr

inductive Answer (α : Type u) where
  | frame (f : List α)
  | tooLong
  | incomplete
deriving DecidableEq, Repr

/-- The symbols put in so far, those among them not taken out or thrown away, and the
answers given. -/
structure Mailbox (α : Type u) where
  received : List α
  unread : List α
  answers : List (Answer α)
deriving DecidableEq, Repr

def Mailbox.empty : Mailbox α := ⟨[], [], []⟩

/-- A call of `take` removes the next frame as a whole with its delimiter, and hands it out
if it fits the caller's `capacity`; where the delimiter is missing it removes nothing. -/
def takeWhole (d : α) (capacity : Nat) (unread : List α) : Answer α × List α :=
  let f := unread.takeWhile fun b => b ≠ d
  if d ∈ unread then
    (if f.length ≤ capacity then .frame f else .tooLong, skipFrame d unread)
  else (.incomplete, unread)

/-- As soon as `longest` symbols of a frame are followed by another one, a call of `take`
throws away what is there of the frame, up to its delimiter or to the end. -/
def takeFrame (d : α) (longest capacity : Nat) (unread : List α) : Answer α × List α :=
  if longest < (unread.takeWhile fun b => b ≠ d).length then (.tooLong, skipFrame d unread)
  else takeWhole d capacity unread

/-- One call, for either kind of mailbox: `take` gives the answer and what it leaves. -/
def serve (take : Nat → List α → Answer α × List α) (m : Mailbox α) :
    Call α → Option (Mailbox α)
  | .put b => some { m with received := m.received ++ [b], unread := m.unread ++ [b] }
  | .take capacity =>
      some { m with
        unread := (take capacity m.unread).2
        answers := m.answers ++ [(take capacity m.unread).1] }

theorem takeWhile_append_of_not_mem {d : α} {f : List α} (hf : d ∉ f) (xs : List α) :
    (f ++ xs).takeWhile (fun b => b ≠ d) = f ++ xs.takeWhile fun b => b ≠ d := by
  apply List.takeWhile_append_of_pos
  intro b hb
  simpa using fun h : b = d => hf (h ▸ hb)

theorem takeWhile_delimited {d : α} {f : List α} (hf : d ∉ f) (rest : List α) :
    (f ++ d :: rest).takeWhile (fun b => b ≠ d) = f := by
  rw [takeWhile_append_of_not_mem hf]
  simp

theorem takeWhile_of_not_mem {d : α} {xs : List α} (hxs : d ∉ xs) :
    xs.takeWhile (fun b => b ≠ d) = xs := by
  simpa using takeWhile_append_of_not_mem hxs []

theorem skipFrame_delimited {d : α} {f : List α} (hf : d ∉ f) (rest : List α) :
    skipFrame d (f ++ d :: rest) = rest := by
  rw [skipFrame_append_of_not_mem hf]
  simp [skipFrame]

theorem takeWhole_delimited {d : α} {f : List α} (hf : d ∉ f) (capacity : Nat)
    (rest : List α) :
    takeWhole d capacity (f ++ d :: rest) =
      (if f.length ≤ capacity then .frame f else .tooLong, rest) := by
  simp only [takeWhole, takeWhile_delimited hf, skipFrame_delimited hf]
  simp

theorem takeWhole_of_not_mem {d : α} {xs : List α} (hxs : d ∉ xs) (capacity : Nat) :
    takeWhole d capacity xs = (.incomplete, xs) := by
  simp only [takeWhole, if_neg hxs]

theorem takeFrame_delimited {d : α} {longest : Nat} {f : List α} (hf : d ∉ f)
    (hlength : f.length ≤ longest) (capacity : Nat) (rest : List α) :
    takeFrame d longest capacity (f ++ d :: rest) =
      (if f.length ≤ capacity then .frame f else .tooLong, rest) := by
  rw [takeFrame, takeWhile_delimited hf, if_neg (Nat.not_lt.mpr hlength),
    takeWhole_delimited hf]

theorem takeFrame_of_not_mem {d : α} {longest : Nat} {xs : List α} (hxs : d ∉ xs)
    (hlength : xs.length ≤ longest) (capacity : Nat) :
    takeFrame d longest capacity xs = (.incomplete, xs) := by
  rw [takeFrame, takeWhile_of_not_mem hxs, if_neg (Nat.not_lt.mpr hlength),
    takeWhole_of_not_mem hxs]

theorem takeFrame_of_long {d : α} {longest : Nat} {f : List α} (hf : d ∉ f)
    (hlength : longest < f.length) (capacity : Nat) (rest : List α) :
    takeFrame d longest capacity (f ++ rest) = (.tooLong, skipFrame d rest) := by
  have hlong : longest < ((f ++ rest).takeWhile fun b => b ≠ d).length := by
    rw [takeWhile_append_of_not_mem hf, List.length_append]
    omega
  simp only [takeFrame, if_pos hlong, skipFrame_append_of_not_mem hf]

/-- The tail of a frame that was too long is taken for a frame. -/
example : (exec (serve (takeFrame 0 2)) Mailbox.empty
    [.put 1, .put 2, .put 3, .take 4, .put 4, .put 0, .take 4]).map Mailbox.answers =
      some [.tooLong, .frame [4]] := by decide

/-- No frame of the stream has more than `longest` symbols, the unfinished one included. -/
def Short (d : α) (longest : Nat) (xs : List α) : Prop :=
  (∀ f ∈ frames d xs, f.length ≤ longest) ∧ (tail d xs).length ≤ longest

instance (d : α) (longest : Nat) (xs : List α) : Decidable (Short d longest xs) :=
  inferInstanceAs (Decidable ((∀ f ∈ _, _) ∧ _))

theorem short_of_append {d : α} {longest : Nat} {xs ys : List α}
    (h : Short d longest (xs ++ ys)) : Short d longest xs := by
  apply forall_frames_of_append ?_ h
  intro f g hlength
  rw [List.length_append] at hlength
  omega

/-- The symbols no longer in the mailbox are whole frames. -/
def Kept (d : α) (m : Mailbox α) : Prop :=
  ∃ fs, (∀ f ∈ fs, d ∉ f) ∧ m.received = encode d fs ++ m.unread

theorem takeFrame_of_short {d : α} {longest : Nat} {m : Mailbox α} (hm : Kept d m)
    (hshort : Short d longest m.received) (capacity : Nat) :
    takeFrame d longest capacity m.unread = takeWhole d capacity m.unread := by
  obtain ⟨fs, hfs, hreceived⟩ := hm
  obtain ⟨hframes, htail⟩ := hshort
  rw [hreceived, frames_encode_append hfs] at hframes
  rw [hreceived, tail_encode_append] at htail
  by_cases hmem : d ∈ m.unread
  · obtain ⟨f, rest, hunread, hf, -⟩ := split_at_delimiter hmem
    rw [hunread, frames_frame_append hf] at hframes
    rw [hunread, takeFrame_delimited hf (hframes f (by simp)), takeWhole_delimited hf]
  · rw [tail_of_not_mem hmem] at htail
    rw [takeFrame_of_not_mem hmem htail, takeWhole_of_not_mem hmem]

theorem kept_serve {d : α} {m t : Mailbox α} {call : Call α} (hm : Kept d m)
    (hstep : serve (takeWhole d) m call = some t) : Kept d t := by
  obtain ⟨fs, hfs, hreceived⟩ := hm
  cases call with
  | put b =>
      obtain rfl := Option.some.inj hstep
      exact ⟨fs, hfs, by simp [hreceived]⟩
  | take capacity =>
      obtain rfl := Option.some.inj hstep
      by_cases hmem : d ∈ m.unread
      · obtain ⟨f, rest, hunread, hf, -⟩ := split_at_delimiter hmem
        refine ⟨fs ++ [f], ?_, ?_⟩
        · simpa [or_imp, forall_and] using ⟨hfs, hf⟩
        · simp [hreceived, hunread, takeWhole_delimited hf, encode_append]
      · exact ⟨fs, hfs, by simp [hreceived, takeWhole_of_not_mem hmem]⟩

theorem serve_of_short {d : α} {longest : Nat} {m t : Mailbox α} {call : Call α}
    (hm : Kept d m) (hshort : Short d longest m.received)
    (hstep : serve (takeFrame d longest) m call = some t) :
    serve (takeWhole d) m call = some t := by
  cases call with
  | put b => exact hstep
  | take capacity =>
      simp only [serve, takeFrame_of_short hm hshort] at hstep
      exact hstep

omit [DecidableEq α] in
theorem received_prefix_serve {take : Nat → List α → Answer α × List α} {m t : Mailbox α}
    {call : Call α} (hstep : serve take m call = some t) : m.received <+: t.received := by
  cases call with
  | put b =>
      obtain rfl := Option.some.inj hstep
      exact List.prefix_append _ _
  | take capacity =>
      obtain rfl := Option.some.inj hstep
      exact List.prefix_rfl

/-- While no frame is too long the two kinds of mailbox are the same. -/
theorem exec_of_short {d : α} {longest : Nat} {calls : List (Call α)} {m : Mailbox α}
    (hshort : Short d longest m.received)
    (hexec : exec (serve (takeFrame d longest)) Mailbox.empty calls = some m) :
    exec (serve (takeWhole d)) Mailbox.empty calls = some m ∧ Kept d m := by
  induction calls using List.reverseRecOn generalizing m with
  | nil =>
      obtain rfl : Mailbox.empty = m := Option.some.inj hexec
      exact ⟨rfl, [], by simp, rfl⟩
  | append_singleton calls call ih =>
      obtain ⟨t, hbefore, hlast⟩ := exec_append_eq_some.mp hexec
      obtain ⟨t', hstep, hdone⟩ := exec_cons_eq_some.mp hlast
      obtain rfl : t' = m := Option.some.inj hdone
      obtain ⟨more, hmore⟩ := received_prefix_serve hstep
      have hshort' : Short d longest t.received := short_of_append (hmore ▸ hshort)
      obtain ⟨hwhole, hkept⟩ := ih hshort' hbefore
      have hstep' := serve_of_short hkept hshort' hstep
      refine ⟨?_, kept_serve hkept hstep'⟩
      exact exec_append_eq_some.mpr ⟨t, hwhole, exec_cons_eq_some.mpr ⟨t', hstep', rfl⟩⟩

end EasyLoRa.FrameMailbox
