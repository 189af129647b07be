import Mathlib.Data.List.Perm.Basic

namespace EasyLoRa.IndexedLists

universe u

variable {α : Type u} {l : List α} {i : Nat} {a : α}

theorem perm_cons_eraseIdx (h : l[i]? = some a) : l.Perm (a :: l.eraseIdx i) := by
  obtain ⟨hi, rfl⟩ := List.getElem?_eq_some_iff.mp h
  exact (List.getElem_cons_eraseIdx_perm hi).symm

theorem eq_or_mem_eraseIdx (h : l[i]? = some a) {x : α} (hx : x ∈ l) :
    x = a ∨ x ∈ l.eraseIdx i := by
  rwa [(perm_cons_eraseIdx h).mem_iff, List.mem_cons] at hx

theorem mem_eraseIdx_of_ne (h : l[i]? = some a) {x : α} (hx : x ∈ l) (hne : x ≠ a) :
    x ∈ l.eraseIdx i :=
  (eq_or_mem_eraseIdx h hx).resolve_left hne

theorem cons_eraseIdx_zero (h : l[0]? = some a) : l = a :: l.eraseIdx 0 := by
  cases l with
  | nil => simp at h
  | cons b l => simpa using h

theorem countP_cons (p : α → Bool) (a : α) (l : List α) :
    (a :: l).countP p = l.countP p + (p a).toNat := by
  rw [List.countP_cons]
  cases p a <;> rfl

theorem countP_concat (p : α → Bool) (l : List α) (a : α) :
    (l ++ [a]).countP p = l.countP p + (p a).toNat := by
  rw [List.countP_append, countP_cons, List.countP_nil, Nat.zero_add]

theorem countP_eraseIdx (h : l[i]? = some a) (p : α → Bool) :
    l.countP p = (l.eraseIdx i).countP p + (p a).toNat := by
  rw [(perm_cons_eraseIdx h).countP_eq, countP_cons]

theorem countP_set (h : l[i]? = some a) (b : α) (p : α → Bool) :
    (l.set i b).countP p = (l.eraseIdx i).countP p + (p b).toNat := by
  obtain ⟨hi, -⟩ := List.getElem?_eq_some_iff.mp h
  rw [(List.set_perm_cons_eraseIdx hi b).countP_eq, countP_cons]

theorem countP_add_countP_le {p q r : α → Bool} (hp : ∀ x, p x = true → r x = true)
    (hq : ∀ x, q x = true → r x = true) (hdisjoint : ∀ x, p x = true → q x = false)
    (l : List α) : l.countP p + l.countP q ≤ l.countP r := by
  induction l with
  | nil => simp
  | cons x l ih =>
      have hx : (p x).toNat + (q x).toNat ≤ (r x).toNat := by
        have hp := hp x
        have hq := hq x
        have hdisjoint := hdisjoint x
        revert hp hq hdisjoint
        cases p x <;> cases q x <;> cases r x <;> simp
      simp only [countP_cons]
      omega

theorem eraseIdx_eq_nil (hl : l.length ≤ 1) (h : l[i]? = some a) : l.eraseIdx i = [] := by
  obtain ⟨hi, -⟩ := List.getElem?_eq_some_iff.mp h
  have hlen := List.length_eraseIdx_add_one hi
  exact List.eq_nil_of_length_eq_zero (by omega)

theorem length_eraseIdx_le_one (hl : l.length ≤ 1) (i : Nat) : (l.eraseIdx i).length ≤ 1 :=
  Nat.le_trans (List.length_eraseIdx_le l i) hl

theorem forall_eraseIdx {P : α → Prop} (hP : ∀ x ∈ l, P x) (i : Nat) :
    ∀ x ∈ l.eraseIdx i, P x :=
  fun x hx => hP x (List.mem_of_mem_eraseIdx hx)

theorem forall_set {P : α → Prop} {b : α} (hP : ∀ x ∈ l, P x) (hb : P b) (i : Nat) :
    ∀ x ∈ l.set i b, P x := by
  intro x hx
  rcases List.mem_or_eq_of_mem_set hx with hx | rfl
  · exact hP x hx
  · exact hb

theorem modify_append_left (f : α → α) {xs : List α} {i : Nat} (hi : i < xs.length)
    (ys : List α) : (xs ++ ys).modify i f = xs.modify i f ++ ys := by
  induction xs generalizing i with
  | nil => simp at hi
  | cons x xs ih =>
      cases i with
      | zero => rfl
      | succ i => simpa using ih (by simpa using hi)

theorem modify_append_right (f : α → α) (xs ys : List α) (i : Nat) :
    (xs ++ ys).modify (i + xs.length) f = xs ++ ys.modify i f := by
  induction xs with
  | nil => rfl
  | cons x xs ih => simpa [← Nat.add_assoc] using ih

end EasyLoRa.IndexedLists
