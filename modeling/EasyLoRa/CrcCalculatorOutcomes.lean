import EasyLoRa.CrcCalculatorModel

namespace EasyLoRa.CrcCalculatorOutcomes

open EasyLoRa.CrcCalculatorModel

variable {calculate : List UInt8 → UInt16} {input output : Span}

theorem length_lt_of_span (s : Span) : s.bytes.length < 0x8000000000000000 := by
  have hle := s.size_le
  simp only [ptrdiffMax] at hle
  omega

theorem toNat_crcLenght : crcLenght.toNat = 2 := rfl

theorem empty_iff (s : Span) : s.empty = true ↔ s.bytes = [] := by
  rw [Span.empty, beq_iff_eq, ← UInt64.toNat_inj, Span.toNat_size, UInt64.toNat_zero,
    List.length_eq_zero_iff]

theorem gt_size_iff (n : UInt64) (s : Span) : n > s.size ↔ s.bytes.length < n.toNat := by
  rw [gt_iff_lt, UInt64.lt_iff_toNat_lt, Span.toNat_size]

theorem toNat_minimumAdding (s : Span) :
    (minimumAddingOutputBufferSize s.size).toNat = s.bytes.length + 2 := by
  have hlt := length_lt_of_span s
  rw [minimumAddingOutputBufferSize, UInt64.toNat_add, Span.toNat_size, toNat_crcLenght]
  omega

theorem minimumAdding_gt_iff :
    minimumAddingOutputBufferSize input.size > output.size ↔
      output.bytes.length < input.bytes.length + 2 := by
  rw [gt_size_iff, toNat_minimumAdding]

theorem minimumRemoving_of_lt (h : input.bytes.length < 2) :
    minimumRemovingOutputBufferSize input.size = .error .inputBufferTooSmall := by
  have hlt : input.size < crcLenght := by
    rw [UInt64.lt_iff_toNat_lt, Span.toNat_size]
    exact h
  rw [minimumRemovingOutputBufferSize, if_pos hlt]

theorem minimumRemoving_of_le (h : 2 ≤ input.bytes.length) :
    ∃ n, minimumRemovingOutputBufferSize input.size = .ok n ∧
      n.toNat = input.bytes.length - 2 := by
  have hle : crcLenght ≤ input.size := by
    rwa [UInt64.le_iff_toNat_le, Span.toNat_size, toNat_crcLenght]
  refine ⟨input.size - crcLenght, ?_, ?_⟩
  · rw [minimumRemovingOutputBufferSize, if_neg (UInt64.not_lt.mpr hle)]
  · rw [UInt64.toNat_sub_of_le _ _ hle, Span.toNat_size, toNat_crcLenght]

theorem toBitVec_bindTwobytes (high low : UInt8) :
    (bindTwobytes high low).toBitVec = high.toBitVec ++ low.toBitVec := by
  apply BitVec.eq_of_getLsbD_eq
  intro i hi
  rw [BitVec.getLsbD_append, bindTwobytes, byteShift]
  by_cases h : i < 8
  · simp [h, hi]
  · have hlow : low.toBitVec.getLsbD i = false := BitVec.getLsbD_of_ge _ _ (by omega)
    simp [h, hi, hlow]

theorem bindTwobytes_split (twoBytes : UInt16) :
    bindTwobytes (getHighByte twoBytes) (getLowByte twoBytes) = twoBytes := by
  rw [← UInt16.toBitVec_inj]
  apply BitVec.eq_of_getLsbD_eq
  intro i hi
  rw [toBitVec_bindTwobytes, BitVec.getLsbD_append, getHighByte, getLowByte, byteShift]
  by_cases h : i < 8
  · simp [h]
  · have hindex : 8 + (i - 8) = i := by omega
    have hbound : i - 8 < 8 := by omega
    simp [h, hindex, hbound]

theorem getHighByte_bindTwobytes (high low : UInt8) :
    getHighByte (bindTwobytes high low) = high := by
  rw [← UInt8.toBitVec_inj]
  apply BitVec.eq_of_getLsbD_eq
  intro i hi
  have hindex : ¬8 + i < 8 := by omega
  have happend : (bindTwobytes high low).toBitVec.getLsbD (8 + i) = high.toBitVec.getLsbD i := by
    rw [toBitVec_bindTwobytes, BitVec.getLsbD_append, if_neg hindex, Nat.add_sub_cancel_left]
  simp [getHighByte, byteShift, hi, happend]

theorem getLowByte_bindTwobytes (high low : UInt8) :
    getLowByte (bindTwobytes high low) = low := by
  rw [← UInt8.toBitVec_inj]
  apply BitVec.eq_of_getLsbD_eq
  intro i hi
  have happend : (bindTwobytes high low).toBitVec.getLsbD i = low.toBitVec.getLsbD i := by
    rw [toBitVec_bindTwobytes, BitVec.getLsbD_append, if_pos hi]
  simp [getLowByte, hi, happend]

theorem write_eq_some (s : Span) {i : UInt64} {k : Nat} (b : UInt8) (hi : i.toNat = k)
    (hk : k < s.bytes.length) :
    ∃ written, s.write i b = some written ∧ written.bytes = s.bytes.set k b := by
  subst hi
  have hlt : i < s.size := by rwa [UInt64.lt_iff_toNat_lt, Span.toNat_size]
  exact ⟨_, if_pos hlt, rfl⟩

theorem first_eq_some (s : Span) {count : UInt64} {n : Nat} (hcount : count.toNat = n)
    (hn : n ≤ s.bytes.length) :
    ∃ view, s.first count = some view ∧ view.bytes = s.bytes.take n := by
  subst hcount
  have hle : count ≤ s.size := by rwa [UInt64.le_iff_toNat_le, Span.toNat_size]
  exact ⟨_, if_pos hle, rfl⟩

theorem last_eq_some (s : Span) {count : UInt64} {n : Nat} (hcount : count.toNat = n)
    (hn : n ≤ s.bytes.length) :
    ∃ view, s.last count = some view ∧ view.bytes = s.bytes.drop (s.bytes.length - n) := by
  subst hcount
  have hle : count ≤ s.size := by rwa [UInt64.le_iff_toNat_le, Span.toNat_size]
  refine ⟨_, if_pos hle, ?_⟩
  change s.bytes.drop (s.size - count).toNat = _
  rw [UInt64.toNat_sub_of_le _ _ hle, Span.toNat_size]

theorem memcpy_eq_some (destination source : Span) {count : UInt64} {n : Nat}
    (hcount : count.toNat = n) (hd : n ≤ destination.bytes.length)
    (hs : n ≤ source.bytes.length) :
    ∃ copied, memcpy destination source count = some copied ∧
      copied.bytes = source.bytes.take n ++ destination.bytes.drop n := by
  subst hcount
  have hle : count ≤ destination.size ∧ count ≤ source.size := by
    constructor
    · rwa [UInt64.le_iff_toNat_le, Span.toNat_size]
    · rwa [UInt64.le_iff_toNat_le, Span.toNat_size]
  exact ⟨_, dif_pos hle, rfl⟩

theorem addCRC_of_nil (h : input.bytes = []) :
    addCRC calculate input output = some (.error .inputBufferTooSmall, output) := by
  rw [addCRC, if_pos ((empty_iff input).mpr h)]

theorem addCRC_of_small (hne : input.bytes ≠ [])
    (hsmall : output.bytes.length < input.bytes.length + 2) :
    addCRC calculate input output = some (.error .outputBufferTooSmall, output) := by
  have hempty : ¬input.empty = true := mt (empty_iff input).mp hne
  rw [addCRC, if_neg hempty, if_pos (minimumAdding_gt_iff.mpr hsmall)]

/-- The bytes `addCRC` lays out for a payload. -/
def frameOf (calculate : List UInt8 → UInt16) (payload : List UInt8) : List UInt8 :=
  payload ++ [getHighByte (calculate payload), getLowByte (calculate payload)]

@[simp] theorem length_frameOf (payload : List UInt8) :
    (frameOf calculate payload).length = payload.length + 2 := by
  simp [frameOf]

theorem set_trailer {α : Type} (xs ys : List α) (a b : α) (hys : 2 ≤ ys.length) :
    ((xs ++ ys).set xs.length a).set (xs.length + 1) b = xs ++ [a, b] ++ ys.drop 2 := by
  rcases ys with _ | ⟨x, _ | ⟨y, ys⟩⟩
  · simp at hys
  · simp at hys
  · simp

theorem addCRC_of_fits (calculate : List UInt8 → UInt16) (hne : input.bytes ≠ [])
    (hfits : input.bytes.length + 2 ≤ output.bytes.length) :
    ∃ view after, addCRC calculate input output = some (.ok view, after) ∧
      view.bytes = frameOf calculate input.bytes ∧
      after.bytes = view.bytes ++ output.bytes.drop (input.bytes.length + 2) := by
  have hlt := length_lt_of_span input
  have hempty : ¬input.empty = true := mt (empty_iff input).mp hne
  have hsize : ¬minimumAddingOutputBufferSize input.size > output.size := by
    rw [minimumAdding_gt_iff]
    omega
  have hnext : (input.size + 1).toNat = input.bytes.length + 1 := by
    rw [UInt64.toNat_add, Span.toNat_size, UInt64.toNat_one]
    omega
  have hend : (input.size + 2).toNat = input.bytes.length + 2 := toNat_minimumAdding input
  obtain ⟨copied, hcopied, hcopiedBytes⟩ := memcpy_eq_some output input (Span.toNat_size input)
    (by omega) (Nat.le_refl _)
  have hcopiedLength : copied.bytes.length = output.bytes.length := by
    simp [hcopiedBytes]
    omega
  obtain ⟨high, hhigh, hhighBytes⟩ := write_eq_some copied
    (getHighByte (calculate input.bytes)) (Span.toNat_size input) (by omega)
  have hhighLength : high.bytes.length = output.bytes.length := by
    rw [hhighBytes, List.length_set, hcopiedLength]
  obtain ⟨low, hlow, hlowBytes⟩ := write_eq_some high
    (getLowByte (calculate input.bytes)) hnext (by omega)
  have hlowLength : low.bytes.length = output.bytes.length := by
    rw [hlowBytes, List.length_set, hhighLength]
  obtain ⟨view, hview, hviewBytes⟩ := first_eq_some low hend (by omega)
  have hafter : low.bytes =
      frameOf calculate input.bytes ++ output.bytes.drop (input.bytes.length + 2) := by
    rw [hlowBytes, hhighBytes, hcopiedBytes, List.take_length,
      set_trailer _ _ _ _ (by rw [List.length_drop]; omega), List.drop_drop, frameOf]
  have hviewEq : view.bytes = frameOf calculate input.bytes := by
    rw [hviewBytes, hafter, List.take_left' (length_frameOf _)]
  refine ⟨view, low, ?_, hviewEq, ?_⟩
  · rw [addCRC, if_neg hempty, if_neg hsize]
    simp only [hcopied, hhigh, hlow, hview, Option.bind_eq_bind, Option.bind_some]
  · rw [hafter, hviewEq]

theorem removeCRC_of_lt (h : input.bytes.length < 2) :
    removeCRC calculate input output = some (.error .inputBufferTooSmall, output) := by
  rw [removeCRC, minimumRemoving_of_lt h]

theorem removeCRC_of_small (h : 2 ≤ input.bytes.length)
    (hsmall : output.bytes.length + 2 < input.bytes.length) :
    removeCRC calculate input output = some (.error .outputBufferTooSmall, output) := by
  obtain ⟨n, hn, hnNat⟩ := minimumRemoving_of_le h
  have hgt : n > output.size := by
    rw [gt_size_iff, hnNat]
    omega
  rw [removeCRC, hn]
  exact if_pos hgt

/-- The CRC check of `removeCRC`, on a frame split into payload and trailer. -/
theorem removeCRC_of_fits (calculate : List UInt8 → UInt16) {payload : List UInt8}
    {high low : UInt8} (hinput : input.bytes = payload ++ [high, low])
    (hfits : payload.length ≤ output.bytes.length) :
    ∃ view after, view.bytes = payload ∧
      after.bytes = view.bytes ++ output.bytes.drop payload.length ∧
      removeCRC calculate input output =
        if bindTwobytes high low ≠ calculate payload then some (.error .crcMismatch, output)
        else some (.ok view, after) := by
  have hlength : input.bytes.length = payload.length + 2 := by simp [hinput]
  obtain ⟨n, hn, hnNat⟩ := minimumRemoving_of_le (by omega : 2 ≤ input.bytes.length)
  have hpayload : n.toNat = payload.length := by omega
  have hsize : ¬n > output.size := by
    rw [gt_size_iff, hnNat]
    omega
  obtain ⟨trailer, htrailer, htrailerBytes⟩ := last_eq_some input toNat_crcLenght (by omega)
  have htrailerEq : trailer.bytes = [high, low] := by
    rw [htrailerBytes, hlength, Nat.add_sub_cancel, hinput, List.drop_left]
  obtain ⟨covered, hcovered, hcoveredBytes⟩ := first_eq_some input hpayload (by omega)
  have hcoveredEq : covered.bytes = payload := by
    rw [hcoveredBytes, hinput, List.take_left]
  obtain ⟨copied, hcopied, hcopiedBytes⟩ := memcpy_eq_some output input hpayload
    hfits (by omega)
  have hcopiedEq : copied.bytes = payload ++ output.bytes.drop payload.length := by
    rw [hcopiedBytes, hinput, List.take_left]
  obtain ⟨view, hview, hviewBytes⟩ := first_eq_some copied hpayload
    (by simp [hcopiedEq])
  have hviewEq : view.bytes = payload := by
    rw [hviewBytes, hcopiedEq, List.take_left]
  refine ⟨view, copied, hviewEq, by rw [hcopiedEq, hviewEq], ?_⟩
  have hhigh : trailer.read 0 = some high := by simp [Span.read, htrailerEq]
  have hlow : trailer.read 1 = some low := by simp [Span.read, htrailerEq]
  rw [removeCRC, hn]
  simp only [if_neg hsize, htrailer, hhigh, hlow, hcovered, hcoveredEq, hcopied, hview,
    Option.bind_eq_bind, Option.bind_some]

/-- The call succeeds and the view it returns shows the given bytes. -/
def Returns (outcome : Option (Except ProtocolErrors Span × Span)) (bytes : List UInt8) : Prop :=
  ∃ view after, outcome = some (.ok view, after) ∧ view.bytes = bytes

theorem exists_trailer {bytes : List UInt8} (h : 2 ≤ bytes.length) :
    ∃ payload high low, bytes = payload ++ [high, low] := by
  have hsplit := List.take_append_drop (bytes.length - 2) bytes
  have htrailer : (bytes.drop (bytes.length - 2)).length = 2 := by
    rw [List.length_drop]
    omega
  obtain ⟨high, low, hpair⟩ := List.length_eq_two.mp htrailer
  exact ⟨bytes.take (bytes.length - 2), high, low, by rw [← hpair, hsplit]⟩

theorem append_eq_frameOf_iff {payload : List UInt8} {high low : UInt8} :
    payload ++ [high, low] = frameOf calculate payload ↔
      bindTwobytes high low = calculate payload := by
  rw [frameOf, List.append_cancel_left_eq]
  constructor
  · intro h
    simp only [List.cons.injEq, and_true] at h
    rw [h.1, h.2, bindTwobytes_split]
  · intro h
    rw [← h, getHighByte_bindTwobytes, getLowByte_bindTwobytes]

theorem returns_addCRC (hne : input.bytes ≠ [])
    (hfits : input.bytes.length + 2 ≤ output.bytes.length) :
    Returns (addCRC calculate input output) (frameOf calculate input.bytes) := by
  obtain ⟨view, after, hadd, hview, -⟩ := addCRC_of_fits calculate hne hfits
  exact ⟨view, after, hadd, hview⟩

theorem of_returns_addCRC {bytes : List UInt8}
    (h : Returns (addCRC calculate input output) bytes) :
    input.bytes ≠ [] ∧ bytes = frameOf calculate input.bytes := by
  obtain ⟨view, after, hadd, rfl⟩ := h
  by_cases hnil : input.bytes = []
  · rw [addCRC_of_nil hnil] at hadd
    simp at hadd
  · refine ⟨hnil, ?_⟩
    by_cases hfits : input.bytes.length + 2 ≤ output.bytes.length
    · obtain ⟨view', after', hadd', hview', -⟩ := addCRC_of_fits calculate hnil hfits
      rw [hadd'] at hadd
      simp only [Option.some.injEq, Prod.mk.injEq, Except.ok.injEq] at hadd
      rw [← hadd.1, hview']
    · rw [addCRC_of_small hnil (Nat.not_le.mp hfits)] at hadd
      simp at hadd

theorem returns_removeCRC {frame output : Span} {payload : List UInt8}
    (hframe : frame.bytes = frameOf calculate payload)
    (hfits : payload.length ≤ output.bytes.length) :
    Returns (removeCRC calculate frame output) payload := by
  obtain ⟨view, after, hview, -, hremove⟩ := removeCRC_of_fits calculate hframe hfits
  refine ⟨view, after, ?_, hview⟩
  rw [hremove, if_neg (by simp [bindTwobytes_split])]

theorem of_returns_removeCRC {frame output : Span} {payload : List UInt8}
    (h : Returns (removeCRC calculate frame output) payload) :
    frame.bytes = frameOf calculate payload := by
  obtain ⟨view, after, hremove, rfl⟩ := h
  by_cases hlength : 2 ≤ frame.bytes.length
  · obtain ⟨payload, high, low, hframe⟩ := exists_trailer hlength
    by_cases hfits : payload.length ≤ output.bytes.length
    · obtain ⟨view', after', hview', -, hremove'⟩ :=
        removeCRC_of_fits calculate hframe hfits
      rw [hremove'] at hremove
      by_cases hcrc : bindTwobytes high low = calculate payload
      · rw [if_neg (by simp [hcrc])] at hremove
        simp only [Option.some.injEq, Prod.mk.injEq, Except.ok.injEq] at hremove
        rw [← hremove.1, hview', hframe]
        exact append_eq_frameOf_iff.mpr hcrc
      · rw [if_pos hcrc] at hremove
        simp at hremove
    · rw [removeCRC_of_small hlength (by simp [hframe]; omega)] at hremove
      simp at hremove
  · rw [removeCRC_of_lt (Nat.not_le.mp hlength)] at hremove
    simp at hremove

end EasyLoRa.CrcCalculatorOutcomes
