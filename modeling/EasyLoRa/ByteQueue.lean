import Mathlib.Data.List.Basic

/-!
The interface of the byte ring buffer the firmware queues received bytes in. Its
implementation is an external component, so the development is stated for every
buffer that satisfies the laws the firmware relies on.
-/

namespace EasyLoRa.ByteQueue

/-- A byte queue of capacity `N`. `insert` and `remove` return `none` where the
C++ operations return `false` and leave the queue as it was. -/
structure Ringbuffer (N : Nat) where
  Buffer : Type
  empty : Buffer
  insert : Buffer → UInt8 → Option Buffer
  remove : Buffer → Option (UInt8 × Buffer)
  /-- The queued bytes, oldest first. -/
  contents : Buffer → List UInt8
  contents_empty : contents empty = []
  length_contents_le : ∀ r, (contents r).length ≤ N
  insert_eq_none_iff : ∀ r b, insert r b = none ↔ (contents r).length = N
  contents_of_insert : ∀ {r b r'}, insert r b = some r' → contents r' = contents r ++ [b]
  remove_eq_none_iff : ∀ r, remove r = none ↔ contents r = []
  contents_of_remove : ∀ {r b r'}, remove r = some (b, r') → contents r = b :: contents r'

variable {N : Nat} (Q : Ringbuffer N)

theorem Ringbuffer.insert_eq_some {r : Q.Buffer} (b : UInt8)
    (h : (Q.contents r).length < N) :
    ∃ r', Q.insert r b = some r' ∧ Q.contents r' = Q.contents r ++ [b] := by
  cases hinsert : Q.insert r b with
  | none =>
      have := (Q.insert_eq_none_iff r b).mp hinsert
      omega
  | some r' => exact ⟨r', rfl, Q.contents_of_insert hinsert⟩

/-- The queue that stores its bytes in a list. -/
def fifo (N : Nat) : Ringbuffer N where
  Buffer := { bytes : List UInt8 // bytes.length ≤ N }
  empty := ⟨[], Nat.zero_le N⟩
  insert r b :=
    if h : r.val.length < N then some ⟨r.val ++ [b], by simpa using Nat.succ_le_of_lt h⟩
    else none
  remove r :=
    match r with
    | ⟨[], _⟩ => none
    | ⟨b :: bs, h⟩ => some (b, ⟨bs, Nat.le_of_succ_le h⟩)
  contents r := r.val
  contents_empty := rfl
  length_contents_le r := r.property
  insert_eq_none_iff r b := by
    have := r.property
    split <;> simp <;> omega
  contents_of_insert := by
    intro r b r' h
    split at h
    · obtain rfl := Option.some.inj h
      rfl
    · contradiction
  remove_eq_none_iff r := by
    obtain ⟨_ | ⟨b, bs⟩, h⟩ := r <;> simp
  contents_of_remove := by
    rintro ⟨_ | ⟨c, bs⟩, hr⟩ b r' h
    · contradiction
    · obtain ⟨rfl, rfl⟩ := Prod.mk.inj (Option.some.inj h)
      rfl

end EasyLoRa.ByteQueue
