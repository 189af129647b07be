import EasyLoRa.DelimitedFrames

namespace EasyLoRa.Cobs

open EasyLoRa.DelimitedFrames

def runs (data : List UInt8) : List (List UInt8) := frames 0 (data ++ [0])

def join (runs : List (List UInt8)) : List UInt8 :=
  runs.flatMap fun run => (run.length + 1).toUInt8 :: run

/-- The data without its zeros; each run between two of them gets its length in front,
counted from one. -/
def stuff (data : List UInt8) : List UInt8 := join (runs data)

/-- Cut stuffed bytes into runs; the first argument bounds their number. -/
def splitRuns : Nat → List UInt8 → List (List UInt8)
  | 0, _ => []
  | _ + 1, [] => []
  | n + 1, code :: rest =>
      rest.take (code.toNat - 1) :: splitRuns n (rest.drop (code.toNat - 1))

def unstuff (stuffed : List UInt8) : List UInt8 :=
  (encode 0 (splitRuns stuffed.length stuffed)).dropLast

theorem toNat_code {n : Nat} (h : n < 255) : (n + 1).toUInt8.toNat = n + 1 := by
  simp
  omega

theorem encode_runs (data : List UInt8) : encode 0 (runs data) = data ++ [0] := by
  have hframes := encode_frames_append_tail 0 (data ++ [0])
  rwa [tail_concat_delimiter, List.append_nil] at hframes

theorem length_join (rs : List (List UInt8)) : (join rs).length = (encode 0 rs).length := by
  simp [join, encode]

theorem length_stuff (data : List UInt8) : (stuff data).length = data.length + 1 := by
  rw [stuff, length_join, encode_runs, List.length_append, List.length_singleton]

theorem length_of_mem_runs {data run : List UInt8} (h : run ∈ runs data) :
    run.length ≤ data.length := by
  have hlength := congrArg List.length (encode_runs data)
  obtain ⟨before, after, hruns⟩ := List.append_of_mem h
  rw [hruns] at hlength
  simp [encode] at hlength
  omega

theorem splitRuns_join {rs : List (List UInt8)} (h : ∀ run ∈ rs, run.length < 255) {n : Nat}
    (hn : (join rs).length ≤ n) : splitRuns n (join rs) = rs := by
  induction rs generalizing n with
  | nil => cases n <;> rfl
  | cons run rs ih =>
      have hjoin : join (run :: rs) = (run.length + 1).toUInt8 :: (run ++ join rs) := rfl
      rw [hjoin] at hn ⊢
      cases n with
      | zero => simp at hn
      | succ n =>
          have hcode := toNat_code (h run (by simp))
          simp only [List.length_cons, List.length_append] at hn
          simp only [splitRuns, hcode, Nat.add_sub_cancel, List.take_left, List.drop_left]
          rw [ih (fun r hr => h r (List.mem_cons_of_mem _ hr)) (by omega)]

theorem unstuff_stuff {data : List UInt8} (h : data.length < 254) :
    unstuff (stuff data) = data := by
  have hshort : ∀ run ∈ runs data, run.length < 255 := fun run hrun => by
    have hlength := length_of_mem_runs hrun
    omega
  rw [unstuff, stuff, splitRuns_join hshort (Nat.le_refl _), encode_runs]
  simp

theorem zero_not_mem_stuff {data : List UInt8} (h : data.length < 254) :
    0 ∉ stuff data := by
  intro hzero
  obtain ⟨run, hrun, hmem⟩ := List.mem_flatMap.mp hzero
  rcases List.mem_cons.mp hmem with hcode | hmem
  · have hlength := length_of_mem_runs hrun
    have hvalue := toNat_code (n := run.length) (by omega)
    rw [← hcode] at hvalue
    simp at hvalue
  · exact (not_mem_frames 0 (data ++ [0])).1 run hrun hmem

end EasyLoRa.Cobs
