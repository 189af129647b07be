import Mathlib.Data.List.Basic
import Mathlib.Data.List.Infix

namespace EasyLoRa.DelimitedFrames

universe u

variable {α : Type u} [DecidableEq α]

def extend (d : α) (cut : List (List α) × List α) (b : α) : List (List α) × List α :=
  if b = d then (cut.1 ++ [cut.2], []) else (cut.1, cut.2 ++ [b])

/-- Cut a stream after each delimiter. -/
def cut (d : α) (xs : List α) : List (List α) × List α :=
  xs.foldl (extend d) ([], [])

/-- The complete frames of a stream, delimiters stripped. -/
def frames (d : α) (xs : List α) : List (List α) := (cut d xs).1

/-- The symbols after the last delimiter of a stream. -/
def tail (d : α) (xs : List α) : List α := (cut d xs).2

/-- The stream that carries the given frames, each followed by the delimiter. -/
def encode (d : α) (fs : List (List α)) : List α := fs.flatMap (· ++ [d])

@[simp] theorem frames_nil (d : α) : frames d [] = [] := rfl

@[simp] theorem tail_nil (d : α) : tail d [] = [] := rfl

omit [DecidableEq α] in
@[simp] theorem encode_nil (d : α) : encode d [] = [] := rfl

omit [DecidableEq α] in
theorem encode_append (d : α) (fs gs : List (List α)) :
    encode d (fs ++ gs) = encode d fs ++ encode d gs := by
  simp [encode]

omit [DecidableEq α] in
@[simp] theorem encode_singleton (d : α) (f : List α) : encode d [f] = f ++ [d] := by
  simp [encode]

theorem cut_concat (d : α) (xs : List α) (b : α) :
    cut d (xs ++ [b]) = extend d (cut d xs) b := by
  simp [cut, List.foldl_append]

@[simp] theorem frames_concat_delimiter (d : α) (xs : List α) :
    frames d (xs ++ [d]) = frames d xs ++ [tail d xs] := by
  simp [frames, tail, cut_concat, extend]

@[simp] theorem tail_concat_delimiter (d : α) (xs : List α) : tail d (xs ++ [d]) = [] := by
  simp [tail, cut_concat, extend]

omit [DecidableEq α] in
theorem not_mem_concat {d b : α} {xs : List α} (hxs : d ∉ xs) (hb : b ≠ d) :
    d ∉ xs ++ [b] := by
  rw [List.mem_append, List.mem_singleton, not_or]
  exact ⟨hxs, hb.symm⟩

theorem frames_concat_of_ne {d b : α} (hb : b ≠ d) (xs : List α) :
    frames d (xs ++ [b]) = frames d xs := by
  simp [frames, cut_concat, extend, hb]

theorem tail_concat_of_ne {d b : α} (hb : b ≠ d) (xs : List α) :
    tail d (xs ++ [b]) = tail d xs ++ [b] := by
  simp [tail, cut_concat, extend, hb]

theorem frames_append_of_not_mem {d : α} (xs : List α) {ys : List α} (hys : d ∉ ys) :
    frames d (xs ++ ys) = frames d xs := by
  induction ys using List.reverseRecOn with
  | nil => simp
  | append_singleton ys b ih =>
      have hb : b ≠ d := fun h => hys (by simp [h])
      rw [← List.append_assoc, frames_concat_of_ne hb]
      exact ih fun h => hys (by simp [h])

theorem tail_append_of_not_mem {d : α} (xs : List α) {ys : List α} (hys : d ∉ ys) :
    tail d (xs ++ ys) = tail d xs ++ ys := by
  induction ys using List.reverseRecOn with
  | nil => simp
  | append_singleton ys b ih =>
      have hb : b ≠ d := fun h => hys (by simp [h])
      rw [← List.append_assoc, tail_concat_of_ne hb, ih fun h => hys (by simp [h]),
        List.append_assoc]

theorem frames_of_not_mem {d : α} {xs : List α} (hxs : d ∉ xs) : frames d xs = [] := by
  simpa using frames_append_of_not_mem [] hxs

theorem tail_of_not_mem {d : α} {xs : List α} (hxs : d ∉ xs) : tail d xs = xs := by
  simpa using tail_append_of_not_mem [] hxs

/-- A stream that starts right after a delimiter is cut independently of what
precedes it. -/
theorem frames_append_delimiter_append (d : α) (xs ys : List α) :
    frames d (xs ++ d :: ys) = frames d xs ++ tail d xs :: frames d ys ∧
      tail d (xs ++ d :: ys) = tail d ys := by
  induction ys using List.reverseRecOn with
  | nil => simp
  | append_singleton ys b ih =>
      have hassoc : xs ++ d :: (ys ++ [b]) = (xs ++ d :: ys) ++ [b] := by simp
      rw [hassoc]
      by_cases hb : b = d
      · subst hb
        rw [frames_concat_delimiter, tail_concat_delimiter, frames_concat_delimiter,
          tail_concat_delimiter, ih.1, ih.2]
        simp
      · rw [frames_concat_of_ne hb, tail_concat_of_ne hb, frames_concat_of_ne hb,
          tail_concat_of_ne hb, ih.1, ih.2]
        exact ⟨rfl, rfl⟩

theorem frames_frame_append {d : α} {f : List α} (hf : d ∉ f) (xs : List α) :
    frames d (f ++ d :: xs) = f :: frames d xs := by
  simp [(frames_append_delimiter_append d f xs).1, frames_of_not_mem hf, tail_of_not_mem hf]

theorem tail_frame_append (d : α) (f xs : List α) :
    tail d (f ++ d :: xs) = tail d xs :=
  (frames_append_delimiter_append d f xs).2

theorem frames_encode_append {d : α} {fs : List (List α)} (hfs : ∀ f ∈ fs, d ∉ f)
    (xs : List α) : frames d (encode d fs ++ xs) = fs ++ frames d xs := by
  induction fs with
  | nil => rfl
  | cons f fs ih =>
      have hassoc : encode d (f :: fs) ++ xs = f ++ d :: (encode d fs ++ xs) := by
        simp [encode]
      rw [hassoc, frames_frame_append (hfs f (by simp)),
        ih fun g hg => hfs g (by simp [hg]), List.cons_append]

theorem tail_encode_append (d : α) (fs : List (List α)) (xs : List α) :
    tail d (encode d fs ++ xs) = tail d xs := by
  induction fs with
  | nil => rfl
  | cons f fs ih =>
      have hassoc : encode d (f :: fs) ++ xs = f ++ d :: (encode d fs ++ xs) := by
        simp [encode]
      rw [hassoc, tail_frame_append, ih]

theorem tail_eq_nil_iff (d : α) (xs : List α) :
    tail d xs = [] ↔ xs = [] ∨ xs.getLast? = some d := by
  induction xs using List.reverseRecOn with
  | nil => simp
  | append_singleton xs b ih =>
      by_cases hb : b = d
      · simp [hb]
      · simp [tail_concat_of_ne hb, hb]

theorem split_at_delimiter {d : α} {xs : List α} (h : d ∈ xs) :
    ∃ f rest, xs = f ++ d :: rest ∧ d ∉ f ∧ xs.idxOf d = f.length := by
  obtain ⟨f, rest, rfl, hf⟩ := List.eq_append_cons_of_mem h
  exact ⟨f, rest, rfl, hf, by simp [List.idxOf_append, hf]⟩

theorem frames_prefix_append (d : α) (xs ys : List α) :
    frames d xs <+: frames d (xs ++ ys) := by
  induction ys using List.reverseRecOn with
  | nil => simp
  | append_singleton ys b ih =>
      rw [← List.append_assoc]
      by_cases hb : b = d
      · subst hb
        rw [frames_concat_delimiter]
        exact ih.trans (List.prefix_append _ _)
      · rwa [frames_concat_of_ne hb]

/-- What holds of every frame and of the tail of a stream holds of those of its
beginnings, if it holds of the beginnings of whatever it holds of. -/
theorem forall_frames_of_append {P : List α → Prop} (hP : ∀ f g, P (f ++ g) → P f) {d : α}
    {xs ys : List α} (h : (∀ f ∈ frames d (xs ++ ys), P f) ∧ P (tail d (xs ++ ys))) :
    (∀ f ∈ frames d xs, P f) ∧ P (tail d xs) := by
  obtain ⟨hframes, htail⟩ := h
  constructor
  · exact fun f hf => hframes f ((frames_prefix_append d xs ys).subset hf)
  · by_cases hys : d ∈ ys
    · obtain ⟨f, rest, rfl, hf⟩ := List.eq_append_cons_of_mem hys
      rw [← List.append_assoc, (frames_append_delimiter_append d (xs ++ f) rest).1,
        tail_append_of_not_mem xs hf] at hframes
      exact hP _ f (hframes (tail d xs ++ f) (by simp))
    · rw [tail_append_of_not_mem xs hys] at htail
      exact hP _ ys htail

theorem length_frames (d : α) (xs : List α) : (frames d xs).length = xs.count d := by
  induction xs using List.reverseRecOn with
  | nil => rfl
  | append_singleton xs b ih =>
      by_cases hb : b = d
      · subst hb
        simp [ih]
      · simp [frames_concat_of_ne hb, ih, hb]

theorem encode_frames_append_tail (d : α) (xs : List α) :
    encode d (frames d xs) ++ tail d xs = xs := by
  induction xs using List.reverseRecOn with
  | nil => rfl
  | append_singleton xs b ih =>
      by_cases hb : b = d
      · subst hb
        simp [encode_append, ← List.append_assoc, ih]
      · rw [frames_concat_of_ne hb, tail_concat_of_ne hb, ← List.append_assoc, ih]

theorem not_mem_frames (d : α) (xs : List α) :
    (∀ f ∈ frames d xs, d ∉ f) ∧ d ∉ tail d xs := by
  induction xs using List.reverseRecOn with
  | nil => simp
  | append_singleton xs b ih =>
      by_cases hb : b = d
      · subst hb
        refine ⟨fun f hf => ?_, by simp⟩
        rw [frames_concat_delimiter] at hf
        rcases List.mem_append.mp hf with hf | hf
        · exact ih.1 f hf
        · exact List.mem_singleton.mp hf ▸ ih.2
      · rw [frames_concat_of_ne hb, tail_concat_of_ne hb]
        exact ⟨ih.1, not_mem_concat ih.2 hb⟩

/-- An opening without delimiter belongs to the first frame, or no frame is
complete. -/
theorem append_mem_frames_or_not_mem {d : α} {f : List α} (hf : d ∉ f) (rest : List α) :
    (∃ g, f ++ g ∈ frames d (f ++ rest)) ∨ d ∉ f ++ rest := by
  by_cases hrest : d ∈ rest
  · obtain ⟨g, xs, rfl, hg⟩ := List.eq_append_cons_of_mem hrest
    refine Or.inl ⟨g, ?_⟩
    rw [← List.append_assoc, frames_frame_append (by simp [hf, hg])]
    simp
  · exact Or.inr (by simp [hf, hrest])

/-- What follows the first delimiter of a stream; nothing when it has none. -/
def skipFrame (d : α) : List α → List α
  | [] => []
  | b :: xs => if b = d then xs else skipFrame d xs

theorem skipFrame_append_of_not_mem {d : α} {xs : List α} (hxs : d ∉ xs) (ys : List α) :
    skipFrame d (xs ++ ys) = skipFrame d ys := by
  induction xs with
  | nil => rfl
  | cons b xs ih =>
      have hb : b ≠ d := fun h => hxs (by simp [h])
      simp only [List.cons_append, skipFrame, if_neg hb]
      exact ih fun h => hxs (by simp [h])

theorem skipFrame_of_not_mem {d : α} {xs : List α} (hxs : d ∉ xs) : skipFrame d xs = [] := by
  simpa [skipFrame] using skipFrame_append_of_not_mem hxs []

/-- The number of symbols up to the `n`th delimiter, itself included; the whole length
where there are fewer. -/
def lengthTo (d : α) : Nat → List α → Nat
  | 0, _ => 0
  | _ + 1, [] => 0
  | n + 1, b :: xs => 1 + if b = d then lengthTo d n xs else lengthTo d (n + 1) xs

@[simp] theorem lengthTo_zero (d : α) (xs : List α) : lengthTo d 0 xs = 0 := by
  cases xs <;> rfl

theorem lengthTo_append (d : α) {n : Nat} {xs : List α} (h : n ≤ xs.count d) (ys : List α) :
    lengthTo d n (xs ++ ys) = lengthTo d n xs := by
  induction xs generalizing n with
  | nil =>
      obtain rfl : n = 0 := by simpa using h
      simp
  | cons b xs ih =>
      cases n with
      | zero => simp
      | succ n =>
          by_cases hb : b = d
          · subst hb
            rw [List.count_cons_self] at h
            simp only [List.cons_append, lengthTo, reduceIte]
            rw [ih (by omega)]
          · rw [List.count_cons_of_ne hb] at h
            simp only [List.cons_append, lengthTo, if_neg hb]
            rw [ih h]

end EasyLoRa.DelimitedFrames
