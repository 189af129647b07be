import Mathlib.Data.List.Basic
import Mathlib.Data.Nat.Init
import EasyLoRa.TransitionSystem

namespace EasyLoRa.FairRuns

open EasyLoRa.TransitionSystem

universe u v

variable {State : Type u} {Label : Type v}

/-- An infinite run from `init`. At a moment without a label nothing happens. -/
structure IsRun (step : State → Label → Option State) (init : State) (run : Nat → State)
    (label : Nat → Option Label) : Prop where
  starts : run 0 = init
  stays : ∀ n, label n = none → run (n + 1) = run n
  steps : ∀ n l, label n = some l → step (run n) l = some (run (n + 1))

def RunMeets (C : State → Label → Prop) (run : Nat → State) (label : Nat → Option Label) :
    Prop :=
  ∀ n l, label n = some l → C (run n) l

section

variable {step : State → Label → Option State} {init : State} {run : Nat → State}
variable {label : Nat → Option Label}

theorem IsRun.invariant {I : State → Prop} {C : State → Label → Prop}
    (hrun : IsRun step init run label)
    (hpreserve : ∀ s l t, I s → C s l → step s l = some t → I t) (hinit : I init)
    (hmeets : RunMeets C run label) (n : Nat) : I (run n) := by
  induction n with
  | zero => exact hrun.starts ▸ hinit
  | succ n ih =>
      cases hlabel : label n with
      | none => exact hrun.stays n hlabel ▸ ih
      | some l => exact hpreserve _ l _ ih (hmeets n l hlabel) (hrun.steps n l hlabel)

theorem IsRun.monotone {f : State → Nat} (hrun : IsRun step init run label)
    (hstep : ∀ n l, label n = some l → f (run n) ≤ f (run (n + 1))) {m n : Nat}
    (hmn : m ≤ n) : f (run m) ≤ f (run n) := by
  induction n, hmn using Nat.le_induction with
  | base => exact Nat.le_refl _
  | succ n _ ih =>
      cases hlabel : label n with
      | none => rwa [hrun.stays n hlabel]
      | some l => exact Nat.le_trans ih (hstep n l hlabel)

theorem IsRun.relates {r : State → State → Prop} (hrefl : ∀ s, r s s)
    (htrans : ∀ s t u, r s t → r t u → r s u) (hrun : IsRun step init run label)
    (hstep : ∀ n l, label n = some l → r (run n) (run (n + 1))) {m n : Nat} (hmn : m ≤ n) :
    r (run m) (run n) := by
  induction n, hmn using Nat.le_induction with
  | base => exact hrefl _
  | succ n _ ih =>
      refine htrans _ _ _ ih ?_
      cases hlabel : label n with
      | none => rw [hrun.stays n hlabel]; exact hrefl _
      | some l => exact hstep n l hlabel

/-- A label that stays enabled is eventually taken. -/
def WeaklyFair (step : State → Label → Option State) (run : Nat → State)
    (label : Nat → Option Label) (l : Label) : Prop :=
  ∀ n, ∃ k, n ≤ k ∧ (label k = some l ∨ step (run k) l = none)

end

theorem exists_last {P : Nat → Prop} {m n : Nat} (hmn : m ≤ n) (hm : P m) (hn : ¬ P n) :
    ∃ k, m ≤ k ∧ P k ∧ ¬ P (k + 1) := by
  induction n, hmn using Nat.le_induction with
  | base => exact absurd hm hn
  | succ n hmn ih =>
      by_cases hP : P n
      · exact ⟨n, hmn, hP, hn⟩
      · exact ih hP

/-- The ranking rule. Where a quantity never grows as long as `P` lasts, and keeps
falling should `P` last forever, `P` does not last. -/
theorem eventually_not_of_ranking {P : Nat → Prop} (rank : Nat → Nat)
    (hstay : ∀ n, P n → P (n + 1) → rank (n + 1) ≤ rank n) {n : Nat}
    (hprogress : (∀ k, n ≤ k → P k) →
      ∀ m, n ≤ m → ∃ k, m ≤ k ∧ rank (k + 1) < rank k) :
    ∃ m, n ≤ m ∧ ¬ P m := by
  by_contra hnever
  have hP : ∀ k, n ≤ k → P k := fun k hk => by
    by_contra hnot
    exact hnever ⟨k, hk, hnot⟩
  have hmono : ∀ m k, n ≤ m → m ≤ k → rank k ≤ rank m := by
    intro m k hm hmk
    induction k, hmk using Nat.le_induction with
    | base => exact Nat.le_refl _
    | succ k hmk ih =>
        exact Nat.le_trans (hstay k (hP k (by omega)) (hP (k + 1) (by omega))) ih
  -- by induction on the rank at a moment after `n`: it cannot fall forever
  have hfall : ∀ r m, n ≤ m → rank m = r → False := by
    intro r
    induction r using Nat.strongRecOn with
    | ind r ih =>
        intro m hm hr
        obtain ⟨k, hk, hlt⟩ := hprogress hP m hm
        have hle := hmono m k hm hk
        exact ih (rank (k + 1)) (by omega) (k + 1) (by omega) rfl
  exact hfall (rank n) n (Nat.le_refl n) rfl

/-- The rule of helpful directions. In every state that satisfies `P` one label is
enabled and helps: taking it lowers the rank, and every other step lowers the rank or
leaves it and the helpful label as they were. Then `P` does not last in a run that is
fair to the helpful labels. -/
theorem eventually_not_of_helpful {step : State → Label → Option State} {init : State}
    {run : Nat → State} {label : Nat → Option Label} {P : State → Prop} (rank : State → Nat)
    (helpful : State → Label) (hrun : IsRun step init run label)
    (hfair : ∀ s, WeaklyFair step run label (helpful s))
    (henabled : ∀ n, P (run n) → step (run n) (helpful (run n)) ≠ none)
    (hstep : ∀ n l, label n = some l → P (run n) → P (run (n + 1)) →
      rank (run (n + 1)) < rank (run n) ∨
        (l ≠ helpful (run n) ∧ rank (run (n + 1)) = rank (run n) ∧
          helpful (run (n + 1)) = helpful (run n)))
    (n : Nat) : ∃ m, n ≤ m ∧ ¬ P (run m) := by
  refine eventually_not_of_ranking (P := fun k => P (run k)) (fun k => rank (run k)) ?_ ?_
  · intro k hk hnext
    cases hlabel : label k with
    | none => exact Nat.le_of_eq (congrArg rank (hrun.stays k hlabel))
    | some l => rcases hstep k l hlabel hk hnext with h | h <;> omega
  · intro hP m hm
    obtain ⟨k, hk, htaken⟩ := hfair (run m) m
    have hsame : (∃ j, m ≤ j ∧ rank (run (j + 1)) < rank (run j)) ∨
        helpful (run k) = helpful (run m) := by
      clear htaken
      induction k, hk using Nat.le_induction with
      | base => exact Or.inr rfl
      | succ k hk ih =>
          rcases ih with hfallen | ih
          · exact Or.inl hfallen
          · cases hlabel : label k with
            | none => exact Or.inr (hrun.stays k hlabel ▸ ih)
            | some l =>
                rcases hstep k l hlabel (hP k (by omega)) (hP (k + 1) (by omega)) with
                  hfalls | ⟨-, -, hhelpful⟩
                · exact Or.inl ⟨k, hk, hfalls⟩
                · exact Or.inr (hhelpful.trans ih)
    rcases hsame with hfallen | hsame
    · exact hfallen
    · rw [← hsame] at htaken
      rcases htaken with hlabel | hdisabled
      · rcases hstep k _ hlabel (hP k (by omega)) (hP (k + 1) (by omega)) with
          hfalls | ⟨hother, -, -⟩
        · exact ⟨k, hk, hfalls⟩
        · exact absurd rfl hother
      · exact absurd hdisabled (henabled k (hP k (by omega)))

/-- The state a schedule has reached after `n` labels; it stands still at the end. -/
def visited (step : State → Label → Option State) : State → List Label → Nat → State
  | s, _, 0 => s
  | s, [], _ + 1 => s
  | s, l :: ls, n + 1 =>
      match step s l with
      | some t => visited step t ls n
      | none => s

theorem visited_cons {step : State → Label → Option State} {s t : State} {l : Label}
    {ls : List Label} (hstep : step s l = some t) (n : Nat) :
    visited step s (l :: ls) (n + 1) = visited step t ls n := by
  simp only [visited, hstep]

theorem visited_of_length_le {step : State → Label → Option State} {s t : State}
    {ls : List Label} (hexec : exec step s ls = some t) {n : Nat} (hn : ls.length ≤ n) :
    visited step s ls n = t := by
  induction ls generalizing s n with
  | nil =>
      obtain rfl : s = t := Option.some.inj hexec
      cases n <;> rfl
  | cons l ls ih =>
      obtain ⟨r, hstep, hrest⟩ := exec_cons_eq_some.mp hexec
      obtain ⟨n, rfl⟩ : ∃ k, n = k + 1 := ⟨n - 1, by simp at hn; omega⟩
      rw [visited_cons hstep]
      exact ih hrest (by simpa using hn)

theorem isRun_visited {step : State → Label → Option State} {s t : State} {ls : List Label}
    (hexec : exec step s ls = some t) :
    IsRun step s (visited step s ls) (fun n => ls[n]?) := by
  induction ls generalizing s with
  | nil =>
      refine ⟨rfl, fun n _ => ?_, by simp⟩
      cases n <;> rfl
  | cons l ls ih =>
      obtain ⟨r, hstep, hrest⟩ := exec_cons_eq_some.mp hexec
      have hrun := ih hrest
      refine ⟨rfl, fun n hlabel => ?_, fun n k hlabel => ?_⟩
      · cases n with
        | zero => simp at hlabel
        | succ n =>
            rw [visited_cons hstep, visited_cons hstep]
            exact hrun.stays n (by simpa using hlabel)
      · cases n with
        | zero =>
            obtain rfl : l = k := by simpa using hlabel
            rw [visited_cons hstep, hrun.starts]
            exact hstep
        | succ n =>
            rw [visited_cons hstep, visited_cons hstep]
            exact hrun.steps n k (by simpa using hlabel)

theorem runMeets_visited {step : State → Label → Option State} {C : State → Label → Prop}
    {s t : State} {ls : List Label} (hexec : exec step s ls = some t)
    (hmeets : Meets step C s ls) : RunMeets C (visited step s ls) (fun n => ls[n]?) := by
  induction ls generalizing s with
  | nil => simp [RunMeets]
  | cons l ls ih =>
      obtain ⟨r, hstep, hrest⟩ := exec_cons_eq_some.mp hexec
      obtain ⟨hC, hmeets⟩ := (meets_cons hstep).mp hmeets
      intro n k hlabel
      cases n with
      | zero =>
          obtain rfl : l = k := by simpa using hlabel
          exact hC
      | succ n =>
          rw [visited_cons hstep]
          exact ih hrest hmeets n k (by simpa using hlabel)

theorem weaklyFair_visited {step : State → Label → Option State} {s t : State}
    {ls : List Label} (hexec : exec step s ls = some t) {l : Label} (hlast : step t l = none) :
    WeaklyFair step (visited step s ls) (fun n => ls[n]?) l := by
  intro n
  refine ⟨max n ls.length, Nat.le_max_left _ _, Or.inr ?_⟩
  rw [visited_of_length_le hexec (Nat.le_max_right _ _)]
  exact hlast

/-- What holds somewhere in a schedule but not at its end is ended by a label. -/
theorem exists_label_of_final {step : State → Label → Option State} {P : State → Prop}
    {s t : State} {ls : List Label} (hexec : exec step s ls = some t) {n : Nat}
    (hn : P (visited step s ls n)) (hfinal : ¬ P t) :
    ∃ k l, n ≤ k ∧ ls[k]? = some l ∧ step (visited step s ls k) l =
      some (visited step s ls (k + 1)) ∧ P (visited step s ls k) ∧
        ¬ P (visited step s ls (k + 1)) := by
  have hrun := isRun_visited hexec
  have hlast : visited step s ls (max n ls.length) = t :=
    visited_of_length_le hexec (Nat.le_max_right _ _)
  obtain ⟨k, hk, hbefore, hafter⟩ := exists_last (P := fun k => P (visited step s ls k))
    (Nat.le_max_left n ls.length) hn (hlast ▸ hfinal)
  cases hlabel : ls[k]? with
  | none => exact absurd (hrun.stays k hlabel ▸ hbefore) hafter
  | some l => exact ⟨k, l, hk, hlabel, hrun.steps k l hlabel, hbefore, hafter⟩

end EasyLoRa.FairRuns
