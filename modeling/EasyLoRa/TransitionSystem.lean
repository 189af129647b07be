import Mathlib.Algebra.Ring.Nat
import Mathlib.Data.List.Basic

/-!
Runs of deterministic labelled systems. A label names one atomic step of one
party, so a list of labels is a schedule and fixes the whole run. A step
function returns `none` where the label is not enabled.
-/

namespace EasyLoRa.TransitionSystem

universe u v w

variable {State : Type u} {Label : Type v} {Note : Type w}

def exec (step : State → Label → Option State) : State → List Label → Option State
  | s, [] => some s
  | s, l :: ls => (step s l).bind fun t => exec step t ls

@[simp] theorem exec_nil (step : State → Label → Option State) (s : State) :
    exec step s [] = some s := rfl

theorem exec_cons_eq_some {step : State → Label → Option State} {s u : State}
    {l : Label} {ls : List Label} :
    exec step s (l :: ls) = some u ↔ ∃ t, step s l = some t ∧ exec step t ls = some u := by
  simp only [exec, Option.bind_eq_some_iff]

theorem exec_append_eq_some {step : State → Label → Option State} {s u : State}
    {ks ls : List Label} :
    exec step s (ks ++ ls) = some u ↔
      ∃ t, exec step s ks = some t ∧ exec step t ls = some u := by
  induction ks generalizing s with
  | nil => simp
  | cons k ks ih =>
      simp only [List.cons_append, exec_cons_eq_some, ih]
      constructor
      · rintro ⟨t, hstep, r, hks, hls⟩
        exact ⟨r, ⟨t, hstep, hks⟩, hls⟩
      · rintro ⟨r, ⟨t, hstep, hks⟩, hls⟩
        exact ⟨t, hstep, r, hks, hls⟩

/-- Every step of the schedule is taken in a state that meets the condition
`C`. The condition may look at the label and at the state before the step. -/
def Meets (step : State → Label → Option State) (C : State → Label → Prop) :
    State → List Label → Prop
  | _, [] => True
  | s, l :: ls => C s l ∧ match step s l with
      | some t => Meets step C t ls
      | none => True

instance Meets.decidable (step : State → Label → Option State)
    (C : State → Label → Prop) [∀ s l, Decidable (C s l)] :
    ∀ s ls, Decidable (Meets step C s ls)
  | _, [] => isTrue trivial
  | s, l :: ls =>
      match hstep : step s l with
      | some t =>
          have := Meets.decidable step C t ls
          decidable_of_iff (C s l ∧ Meets step C t ls) (by simp only [Meets, hstep])
      | none => decidable_of_iff (C s l) (by simp only [Meets, hstep, and_true])

theorem meets_cons {step : State → Label → Option State} {C : State → Label → Prop}
    {s t : State} {l : Label} {ls : List Label} (hstep : step s l = some t) :
    Meets step C s (l :: ls) ↔ C s l ∧ Meets step C t ls := by
  simp only [Meets, hstep]

theorem meets_append {step : State → Label → Option State} {C : State → Label → Prop}
    {s t : State} {ks ls : List Label} (hexec : exec step s ks = some t) :
    Meets step C s (ks ++ ls) ↔ Meets step C s ks ∧ Meets step C t ls := by
  induction ks generalizing s with
  | nil =>
      obtain rfl : s = t := Option.some.inj hexec
      simp [Meets]
  | cons k ks ih =>
      obtain ⟨r, hstep, hrest⟩ := exec_cons_eq_some.mp hexec
      rw [List.cons_append, meets_cons hstep, meets_cons hstep, ih hrest, and_assoc]

theorem meets_of_forall {step : State → Label → Option State} {C : State → Label → Prop}
    {ls : List Label} (hC : ∀ l ∈ ls, ∀ s, C s l) (s : State) : Meets step C s ls := by
  induction ls generalizing s with
  | nil => trivial
  | cons l ls ih =>
      refine ⟨hC l (by simp) s, ?_⟩
      cases step s l with
      | none => trivial
      | some t => exact ih (fun k hk => hC k (by simp [hk])) t

theorem meets_of_labels {step : State → Label → Option State} {L : Label → Prop}
    {ls : List Label} (hL : ∀ l ∈ ls, L l) (s : State) : Meets step (fun _ l => L l) s ls :=
  meets_of_forall (fun l hl _ => hL l hl) s

theorem meets_and {step : State → Label → Option State} {C D : State → Label → Prop}
    {s : State} {ls : List Label} (hC : Meets step C s ls) (hD : Meets step D s ls) :
    Meets step (fun s l => C s l ∧ D s l) s ls := by
  induction ls generalizing s with
  | nil => trivial
  | cons l ls ih =>
      refine ⟨⟨hC.1, hD.1⟩, ?_⟩
      cases hstep : step s l with
      | none => trivial
      | some t => exact ih ((meets_cons hstep).mp hC).2 ((meets_cons hstep).mp hD).2

/-- The invariant rule: what one step preserves under the condition, a whole
run whose steps all meet the condition preserves. -/
theorem exec_invariant {step : State → Label → Option State} {C : State → Label → Prop}
    {I : State → Prop}
    (hpreserve : ∀ s l t, I s → C s l → step s l = some t → I t)
    {s t : State} {ls : List Label} (hinit : I s) (hmeets : Meets step C s ls)
    (hexec : exec step s ls = some t) : I t := by
  induction ls generalizing s with
  | nil =>
      obtain rfl : s = t := Option.some.inj hexec
      exact hinit
  | cons l ls ih =>
      obtain ⟨r, hstep, hrest⟩ := exec_cons_eq_some.mp hexec
      obtain ⟨hC, hmeets⟩ := (meets_cons hstep).mp hmeets
      exact ih (hpreserve s l r hinit hC hstep) hmeets hrest

theorem exec_stable {step : State → Label → Option State} {I : State → Prop}
    (hpreserve : ∀ s l t, I s → step s l = some t → I t) {s t : State} {ls : List Label}
    (hinit : I s) (hexec : exec step s ls = some t) : I t :=
  exec_invariant (C := fun _ _ => True) (fun s l t hs _ hstep => hpreserve s l t hs hstep)
    hinit (meets_of_labels (fun _ _ => trivial) s) hexec

/-- How many steps of the run satisfy `p`, which looks at the state before the step. -/
def tally (step : State → Label → Option State) (p : State → Label → Bool) :
    State → List Label → Nat
  | _, [] => 0
  | s, l :: ls => (p s l).toNat + match step s l with
      | some t => tally step p t ls
      | none => 0

theorem tally_cons {step : State → Label → Option State} {p : State → Label → Bool}
    {s t : State} {l : Label} {ls : List Label} (hstep : step s l = some t) :
    tally step p s (l :: ls) = (p s l).toNat + tally step p t ls := by
  simp only [tally, hstep]

/-- The counting rule: a measure that grows at most where `p` holds. -/
theorem exec_le_tally {step : State → Label → Option State} {p : State → Label → Bool}
    {f : State → Nat} (hgrow : ∀ s l t, step s l = some t → f t ≤ f s + (p s l).toNat)
    {s t : State} {ls : List Label} (hexec : exec step s ls = some t) :
    f t ≤ f s + tally step p s ls := by
  induction ls generalizing s with
  | nil =>
      obtain rfl : s = t := Option.some.inj hexec
      exact Nat.le_add_right _ _
  | cons l ls ih =>
      obtain ⟨r, hstep, hrest⟩ := exec_cons_eq_some.mp hexec
      have hfirst := hgrow s l r hstep
      have hlast := ih hrest
      rw [tally_cons hstep]
      omega

/-- The potential rule. Where the cost of every step is paid by the fall of a potential,
the growth of an income and the credit of the label, so is the cost of a run. -/
theorem exec_amortized {step : State → Label → Option State} {I : State → Prop}
    (potential income : State → Nat) (cost credit : Label → Nat)
    (hpreserve : ∀ s l t, I s → step s l = some t → I t)
    (hpaid : ∀ s l t, I s → step s l = some t →
      potential t + income s + cost l ≤ potential s + income t + credit l)
    {s t : State} {ls : List Label} (hinit : I s) (hexec : exec step s ls = some t) :
    potential t + income s + (ls.map cost).sum ≤
      potential s + income t + (ls.map credit).sum := by
  induction ls generalizing s with
  | nil =>
      obtain rfl : s = t := Option.some.inj hexec
      simp
  | cons l ls ih =>
      obtain ⟨r, hstep, hrest⟩ := exec_cons_eq_some.mp hexec
      have hfirst := hpaid s l r hinit hstep
      have hlast := ih (hpreserve s l r hinit hstep) hrest
      simp only [List.map_cons, List.sum_cons]
      omega

/-- What the steps of a run note down, in order. -/
def trace (step : State → Label → Option State) (note : State → Label → List Note) :
    State → List Label → List Note
  | _, [] => []
  | s, l :: ls => note s l ++ match step s l with
      | some t => trace step note t ls
      | none => []

theorem trace_cons {step : State → Label → Option State} {note : State → Label → List Note}
    {s t : State} {l : Label} {ls : List Label} (hstep : step s l = some t) :
    trace step note s (l :: ls) = note s l ++ trace step note t ls := by
  simp only [trace, hstep]

/-- The invariant rule for a state together with the notes taken so far. -/
theorem exec_trace_invariant {step : State → Label → Option State}
    {C : State → Label → Prop} {note : State → Label → List Note}
    {I : State → List Note → Prop}
    (hpreserve : ∀ s notes l t, I s notes → C s l → step s l = some t →
      I t (notes ++ note s l))
    {s t : State} {notes : List Note} {ls : List Label} (hinit : I s notes)
    (hmeets : Meets step C s ls) (hexec : exec step s ls = some t) :
    I t (notes ++ trace step note s ls) := by
  induction ls generalizing s notes with
  | nil =>
      obtain rfl : s = t := Option.some.inj hexec
      simpa [trace] using hinit
  | cons l ls ih =>
      obtain ⟨r, hstep, hrest⟩ := exec_cons_eq_some.mp hexec
      obtain ⟨hC, hmeets⟩ := (meets_cons hstep).mp hmeets
      rw [trace_cons hstep, ← List.append_assoc]
      exact ih (hpreserve s notes l r hinit hC hstep) hmeets hrest

/-- The simulation rule. Where every step of a system is matched by a run of another one
over what the step notes, a whole run is matched over all its notes. -/
theorem exec_simulation {Abstract : Type w} {Op : Type v}
    {step : State → Label → Option State} {abstractStep : Abstract → Op → Option Abstract}
    {note : State → Label → List Op} {C : State → Label → Prop} {R : State → Abstract → Prop}
    (hmatch : ∀ s a l t, R s a → C s l → step s l = some t →
      ∃ b, exec abstractStep a (note s l) = some b ∧ R t b)
    {s t : State} {a : Abstract} {ls : List Label} (hinit : R s a)
    (hmeets : Meets step C s ls) (hexec : exec step s ls = some t) :
    ∃ b, exec abstractStep a (trace step note s ls) = some b ∧ R t b := by
  induction ls generalizing s a with
  | nil =>
      obtain rfl : s = t := Option.some.inj hexec
      exact ⟨a, rfl, hinit⟩
  | cons l ls ih =>
      obtain ⟨r, hstep, hrest⟩ := exec_cons_eq_some.mp hexec
      obtain ⟨hC, hmeets⟩ := (meets_cons hstep).mp hmeets
      obtain ⟨b, hfirst, hb⟩ := hmatch s a l r hinit hC hstep
      obtain ⟨c, hlast, hc⟩ := ih hb hmeets hrest
      refine ⟨c, ?_, hc⟩
      rw [trace_cons hstep]
      exact exec_append_eq_some.mpr ⟨b, hfirst, hlast⟩

/-- The abstraction rule. Where a function of the state maps the steps of a system to the
steps of another one, it maps whole runs to whole runs. -/
theorem map_exec {Abstract : Type w} {step : State → Label → Option State}
    {abstractStep : Abstract → Label → Option Abstract} {f : State → Abstract}
    {I : State → Prop} (hpreserve : ∀ s l t, I s → step s l = some t → I t)
    (hmap : ∀ s l, I s → (step s l).map f = abstractStep (f s) l) {s : State}
    (hinit : I s) (ls : List Label) :
    (exec step s ls).map f = exec abstractStep (f s) ls := by
  induction ls generalizing s with
  | nil => rfl
  | cons l ls ih =>
      simp only [exec, ← hmap s l hinit]
      cases hstep : step s l with
      | none => rfl
      | some t => exact ih (hpreserve s l t hinit hstep)

theorem meets_map {Abstract : Type w} {step : State → Label → Option State}
    {abstractStep : Abstract → Label → Option Abstract} {f : State → Abstract}
    {I : State → Prop} {C : Abstract → Label → Prop}
    (hpreserve : ∀ s l t, I s → step s l = some t → I t)
    (hmap : ∀ s l, I s → (step s l).map f = abstractStep (f s) l) {s : State}
    {ls : List Label} (hinit : I s) (hmeets : Meets step (fun s l => C (f s) l) s ls) :
    Meets abstractStep C (f s) ls := by
  induction ls generalizing s with
  | nil => trivial
  | cons l ls ih =>
      refine ⟨hmeets.1, ?_⟩
      have hmatch := hmap s l hinit
      cases hstep : step s l with
      | none =>
          rw [hstep] at hmatch
          rw [← hmatch]
          trivial
      | some r =>
          rw [hstep] at hmatch
          rw [← hmatch]
          exact ih (hpreserve s l r hinit hstep) ((meets_cons hstep).mp hmeets).2

/-- `P` holds of every state the schedule visits, the first one included. -/
def Always (step : State → Label → Option State) (P : State → Prop) :
    State → List Label → Prop
  | s, [] => P s
  | s, l :: ls => P s ∧ match step s l with
      | some t => Always step P t ls
      | none => True

theorem always_cons {step : State → Label → Option State} {P : State → Prop}
    {s t : State} {l : Label} {ls : List Label} (hstep : step s l = some t) :
    Always step P s (l :: ls) ↔ P s ∧ Always step P t ls := by
  simp only [Always, hstep]

theorem always_head {step : State → Label → Option State} {P : State → Prop}
    {s : State} {ls : List Label} (h : Always step P s ls) : P s := by
  cases ls with
  | nil => exact h
  | cons l ls => exact h.1

/-- The exactness rule, for schedules within a domain `D`. If `P` follows from an
invariant that steps meeting the condition preserve, and a step that breaks the
condition breaks `P`, then a complete run satisfies `P` throughout exactly when
all its steps meet the condition. -/
theorem always_iff_meets_within {step : State → Label → Option State}
    {C D : State → Label → Prop} {I P : State → Prop}
    (hpreserve : ∀ s l t, I s → D s l → C s l → step s l = some t → I t)
    (hsafe : ∀ s, I s → P s)
    (hbreak : ∀ s l t, I s → D s l → ¬ C s l → step s l = some t → ¬ P t)
    {s t : State} {ls : List Label} (hinit : I s) (hdomain : Meets step D s ls)
    (hexec : exec step s ls = some t) :
    Always step P s ls ↔ Meets step C s ls := by
  induction ls generalizing s with
  | nil => exact ⟨fun _ => trivial, fun _ => hsafe s hinit⟩
  | cons l ls ih =>
      obtain ⟨r, hstep, hrest⟩ := exec_cons_eq_some.mp hexec
      obtain ⟨hD, hdomain⟩ := (meets_cons hstep).mp hdomain
      rw [always_cons hstep, meets_cons hstep]
      constructor
      · rintro ⟨_, halways⟩
        have hC : C s l := by
          by_contra hC
          exact hbreak s l r hinit hD hC hstep (always_head halways)
        exact ⟨hC, (ih (hpreserve s l r hinit hD hC hstep) hdomain hrest).mp halways⟩
      · rintro ⟨hC, hmeets⟩
        exact ⟨hsafe s hinit, (ih (hpreserve s l r hinit hD hC hstep) hdomain hrest).mpr hmeets⟩

theorem always_iff_meets {step : State → Label → Option State}
    {C : State → Label → Prop} {I P : State → Prop}
    (hpreserve : ∀ s l t, I s → C s l → step s l = some t → I t)
    (hsafe : ∀ s, I s → P s)
    (hbreak : ∀ s l t, I s → ¬ C s l → step s l = some t → ¬ P t)
    {s t : State} {ls : List Label} (hinit : I s) (hexec : exec step s ls = some t) :
    Always step P s ls ↔ Meets step C s ls :=
  always_iff_meets_within (D := fun _ _ => True) (fun s l t hs _ => hpreserve s l t hs) hsafe
    (fun s l t hs _ => hbreak s l t hs) hinit (meets_of_labels (fun _ _ => trivial) s) hexec

end EasyLoRa.TransitionSystem
