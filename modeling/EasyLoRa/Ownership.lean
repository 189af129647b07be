import EasyLoRa.CloseFinality
import EasyLoRa.TransportObjects

namespace EasyLoRa.Ownership

open EasyLoRa.CloseFinality
open EasyLoRa.IndexedLists
open EasyLoRa.TransportModel
open EasyLoRa.TransportSystem
open EasyLoRa.TransportOutcomes
open EasyLoRa.TransportObjects
open EasyLoRa.TransitionSystem
open EasyLoRa.PortState

/-- The `Pimpl`s that some object owns. -/
def owned (objects : List BasicSerialTransport) : List Nat :=
  objects.filterMap BasicSerialTransport.pimpl

/-- Something besides an object refers to the `Pimpl`, so that it still exists. -/
def Referenced (t : Transport) : Prop :=
  t.posted ≠ [] ∨ t.reads ≠ [] ∨ t.writes ≠ [] ∨ t.callers ≠ []

def CloseRequested (t : Transport) : Prop := .request .close ∈ t.posted ∨ t.closing = true

/-- Closed, and from here on nothing but cancelled writes is reported. -/
structure Released (t : Transport) : Prop where
  closing : t.closing = true
  port : t.port = false
  silent : ∀ a u, step t a = some u →
    ∃ later, u.events = t.events ++ later ∧ ∀ event ∈ later, Residual event

structure NoOrphan (s : Program) : Prop where
  orphans : ∀ k p, s.pimpls[k]? = some p → k ∉ owned s.objects → Referenced p.transport →
    CloseRequested p.transport ∧ (p.transport.posted = [] → Released p.transport)
  kept : ∀ k p, s.pimpls[k]? = some p → k ∈ owned s.objects → p.closeCalled = false →
    ¬CloseRequested p.transport

instance (t : Transport) : Decidable (Referenced t) := inferInstanceAs (Decidable (_ ∨ _))

instance (t : Transport) : Decidable (CloseRequested t) := inferInstanceAs (Decidable (_ ∨ _))

/-- A move assignment goes to the object itself, to an object without a `Pimpl`, or to
one whose `Pimpl` is being closed or dies with the assignment. -/
def SafeAssign (s : Program) : ObjectAction → Prop
  | .moveAssign object other =>
      object = other ∨ ∀ k ∈ s.objects[object]?.bind BasicSerialTransport.pimpl,
        ∀ p ∈ s.pimpls[k]?, Referenced p.transport → CloseRequested p.transport
  | _ => True

instance (s : Program) (a : ObjectAction) : Decidable (SafeAssign s a) := by
  induction a using ObjectAction.casesOn <;> dsimp only [SafeAssign] <;> infer_instance

inductive ObjectOutcome (s : Program) : ObjectAction → Program → Prop where
  | constructed : ObjectOutcome s .construct {
      objects := s.objects ++ [.alive (some s.pimpls.length)]
      pimpls := s.pimpls ++ [⟨Transport.init, false⟩] }
  | moveConstructed (other : Nat) (pimpl : Option Nat)
      (hother : s.objects[other]? = some (.alive pimpl)) :
      ObjectOutcome s (.moveConstruct other)
        { s with objects := s.objects.set other (.alive none) ++ [.alive pimpl] }
  | selfAssigned (object : Nat) : ObjectOutcome s (.moveAssign object object) s
  | moveAssigned (object other : Nat) (dropped pimpl : Option Nat) (hne : object ≠ other)
      (hobject : s.objects[object]? = some (.alive dropped))
      (hother : s.objects[other]? = some (.alive pimpl)) :
      ObjectOutcome s (.moveAssign object other)
        { s with objects := (s.objects.set object (.alive pimpl)).set other (.alive none) }
  | destroyedEmpty (object : Nat) (hobject : s.objects[object]? = some (.alive none)) :
      ObjectOutcome s (.destroy object) { s with objects := s.objects.set object .destroyed }
  | destroyed (object k : Nat) (p : Pimpl)
      (hobject : s.objects[object]? = some (.alive (some k))) (hpimpl : s.pimpls[k]? = some p) :
      ObjectOutcome s (.destroy object) {
        objects := s.objects.set object .destroyed
        pimpls := s.pimpls.set k (p.post .close) }
  | called (object : Nat) (request : Request) (k : Nat) (p : Pimpl)
      (hobject : s.objects[object]? = some (.alive (some k))) (hpimpl : s.pimpls[k]? = some p) :
      ObjectOutcome s (.call object request)
        { s with pimpls := s.pimpls.set k (callMethod request p) }
  | entered (object : Nat) (toWrite : List UInt8) (packetID k : Nat) (p : Pimpl) (t : Transport)
      (hobject : s.objects[object]? = some (.alive (some k))) (hpimpl : s.pimpls[k]? = some p)
      (hstep : step p.transport (.asyncWrite toWrite packetID) = some t) :
      ObjectOutcome s (.asyncWrite object toWrite packetID)
        { s with pimpls := s.pimpls.set k { p with transport := t } }
  | ran (k : Nat) (a : Action) (p : Pimpl) (t : Transport) (ha : isStrandAction a = true)
      (hpimpl : s.pimpls[k]? = some p) (hstep : step p.transport a = some t) :
      ObjectOutcome s (.strand k a)
        { s with pimpls := s.pimpls.set k { p with transport := t } }

theorem updatePimpl_eq_some {s t : Program} {k : Nat} {update : Pimpl → Option Pimpl}
    (h : updatePimpl s k update = some t) :
    ∃ p q, s.pimpls[k]? = some p ∧ update p = some q ∧
      t = { s with pimpls := s.pimpls.set k q } := by
  obtain ⟨p, hp, hupdate⟩ := Option.bind_eq_some_iff.mp h
  obtain ⟨q, hq, rfl⟩ := Option.map_eq_some_iff.mp hupdate
  exact ⟨p, q, hp, hq, rfl⟩

theorem objectStep_outcome {s t : Program} {a : ObjectAction}
    (hstep : objectStep s a = some t) : ObjectOutcome s a t := by
  unfold objectStep at hstep
  split at hstep
  · contradiction
  · cases a with
    | construct =>
        obtain rfl := Option.some.inj hstep
        exact .constructed
    | moveConstruct other =>
        dsimp only at hstep
        split at hstep
        case h_1 pimpl hother =>
          obtain rfl := Option.some.inj hstep
          exact .moveConstructed other pimpl hother
        case h_2 => contradiction
    | moveAssign object other =>
        dsimp only at hstep
        split at hstep
        case h_1 dropped pimpl hobject hother =>
          split at hstep
          case isTrue heq =>
            obtain rfl := Option.some.inj hstep
            exact heq ▸ .selfAssigned object
          case isFalse hne =>
            obtain rfl := Option.some.inj hstep
            exact .moveAssigned object other dropped pimpl hne hobject hother
        case h_2 => contradiction
    | destroy object =>
        dsimp only at hstep
        split at hstep
        case h_1 hobject =>
          obtain rfl := Option.some.inj hstep
          exact .destroyedEmpty object hobject
        case h_2 k hobject =>
          obtain ⟨p, q, hp, hq, rfl⟩ := updatePimpl_eq_some hstep
          obtain rfl := Option.some.inj hq
          exact .destroyed object k p hobject hp
        case h_3 => contradiction
    | call object request =>
        dsimp only at hstep
        split at hstep
        case h_1 k hobject =>
          obtain ⟨p, q, hp, hq, rfl⟩ := updatePimpl_eq_some hstep
          obtain rfl := Option.some.inj hq
          exact .called object request k p hobject hp
        case h_2 => contradiction
    | asyncWrite object toWrite packetID =>
        dsimp only at hstep
        split at hstep
        case h_1 k hobject =>
          obtain ⟨p, q, hp, hq, rfl⟩ := updatePimpl_eq_some hstep
          obtain ⟨t, ht, rfl⟩ := Option.map_eq_some_iff.mp hq
          exact .entered object toWrite packetID k p t hobject hp ht
        case h_2 => contradiction
    | strand k action =>
        dsimp only at hstep
        split at hstep
        case isTrue ha =>
          obtain ⟨p, q, hp, hq, rfl⟩ := updatePimpl_eq_some hstep
          obtain ⟨t, ht, rfl⟩ := Option.map_eq_some_iff.mp hq
          exact .ran k action p t ha hp ht
        case isFalse => contradiction

theorem running_of_objectStep {s t : Program} {a : ObjectAction}
    (hstep : objectStep s a = some t) {k : Nat} {p : Pimpl} (hp : s.pimpls[k]? = some p) :
    p.transport.ended = none := by
  unfold objectStep at hstep
  split at hstep
  · contradiction
  · next hrunning =>
      rw [List.any_eq_true, not_exists] at hrunning
      simpa [List.mem_of_getElem? hp] using hrunning p

theorem owned_cons (o : BasicSerialTransport) (objects : List BasicSerialTransport) :
    owned (o :: objects) = o.pimpl.toList ++ owned objects := by
  cases h : o.pimpl <;> simp [owned, h]

theorem owned_perm_eraseIdx {objects : List BasicSerialTransport} {i : Nat}
    {o : BasicSerialTransport} (h : objects[i]? = some o) :
    (owned objects).Perm (o.pimpl.toList ++ owned (objects.eraseIdx i)) := by
  rw [← owned_cons]
  exact (perm_cons_eraseIdx h).filterMap _

theorem owned_perm_set {objects : List BasicSerialTransport} {i : Nat}
    {o : BasicSerialTransport} (h : objects[i]? = some o) (o' : BasicSerialTransport) :
    (owned (objects.set i o')).Perm (o'.pimpl.toList ++ owned (objects.eraseIdx i)) := by
  obtain ⟨hi, -⟩ := List.getElem?_eq_some_iff.mp h
  rw [← owned_cons]
  exact (List.set_perm_cons_eraseIdx hi o').filterMap _

theorem owned_concat (objects : List BasicSerialTransport) (o : BasicSerialTransport) :
    (owned (objects ++ [o])).Perm (o.pimpl.toList ++ owned objects) := by
  rw [← owned_cons]
  exact (List.perm_append_singleton o objects).filterMap _

theorem owned_moveConstructed {objects : List BasicSerialTransport} {other : Nat}
    {pimpl : Option Nat} (h : objects[other]? = some (.alive pimpl)) :
    (owned (objects.set other (.alive none) ++ [.alive pimpl])).Perm (owned objects) := by
  calc
    (owned (objects.set other (.alive none) ++ [.alive pimpl])).Perm
        (pimpl.toList ++ owned (objects.set other (.alive none))) := owned_concat _ _
    List.Perm _ (pimpl.toList ++ owned (objects.eraseIdx other)) :=
      (owned_perm_set h _).append_left _
    List.Perm _ (owned objects) := (owned_perm_eraseIdx h).symm

/-- The object on the left lets go of its `Pimpl`, and no other changes hands with it. -/
theorem owned_moveAssigned {objects : List BasicSerialTransport} {object other : Nat}
    {dropped pimpl : Option Nat} (hne : object ≠ other)
    (hobject : objects[object]? = some (.alive dropped))
    (hother : objects[other]? = some (.alive pimpl)) :
    (owned objects).Perm (dropped.toList ++
      owned ((objects.set object (.alive pimpl)).set other (.alive none))) := by
  have hother' : (objects.set object (.alive pimpl))[other]? = some (.alive pimpl) := by
    rw [List.getElem?_set_ne hne, hother]
  have hleft := (owned_perm_set hobject (.alive pimpl)).symm.trans (owned_perm_eraseIdx hother')
  have hrest : (owned (objects.eraseIdx object)).Perm
      (owned ((objects.set object (.alive pimpl)).set other (.alive none))) :=
    ((List.perm_append_left_iff _).mp hleft).trans (owned_perm_set hother' (.alive none)).symm
  exact (owned_perm_eraseIdx hobject).trans (hrest.append_left _)

theorem mem_posted_eraseIdx_iff {posted : List Task} {i : Nat} {task other : Task}
    (htask : posted[i]? = some task) (hne : other ≠ task) :
    other ∈ posted.eraseIdx i ↔ other ∈ posted :=
  ⟨fun h => List.mem_of_mem_eraseIdx h, fun h => mem_eraseIdx_of_ne htask h hne⟩

/-- Only a call of `close` or the destructor requests a close, and no step takes the
request back. -/
theorem closeRequested_step_iff {t u : Transport} {a : Action}
    (ha : ∀ request, a ≠ .post request) (hstep : step t a = some u) :
    CloseRequested u ↔ CloseRequested t := by
  unfold CloseRequested
  cases step_outcome hstep with
  | scheduled => simp
  | requested request => exact absurd rfl (ha request)
  | suppressed _ _ request htask hclosing => simp [hclosing]
  | closed _ _ htask => simp [List.mem_of_getElem? htask]
  | openFailed _ _ config port htask => rw [mem_posted_eraseIdx_iff htask (by simp)]
  | opened _ _ config htask => rw [mem_posted_eraseIdx_iff htask (by simp)]
  | handlersSet _ _ request fh feh reh wh htask hclosing hset =>
      rw [mem_posted_eraseIdx_iff htask (by cases hset <;> simp)]
  | cancelled _ _ w htask => rw [mem_posted_eraseIdx_iff htask (by simp)]
  | queued _ _ w htask => rw [mem_posted_eraseIdx_iff htask (by simp)]
  | started _ _ w htask => rw [mem_posted_eraseIdx_iff htask (by simp)]
  | _ => rfl

theorem closeRequested_post_iff (p : Pimpl) (request : Request) :
    CloseRequested (p.post request).transport ↔
      request = .close ∨ CloseRequested p.transport := by
  simp only [CloseRequested, Pimpl.post, List.mem_append, List.mem_singleton, Task.request.injEq]
  tauto

/-- A `Pimpl` nobody refers to takes no step. -/
theorem referenced_of_step {t u : Transport} {a : Action} (ha : isStrandAction a = true)
    (hstep : step t a = some u) : Referenced t := by
  have hne : ∀ {α : Type} {l : List α} {i : Nat} {x : α}, l[i]? = some x → l ≠ [] := by
    rintro α l i x h rfl
    simp at h
  unfold step at hstep
  split at hstep
  · contradiction
  · cases a with
    | asyncWrite => contradiction
    | post => contradiction
    | advance i =>
        obtain ⟨caller, hcaller, -⟩ := Option.map_eq_some_iff.mp hstep
        exact Or.inr (Or.inr (Or.inr (hne hcaller)))
    | run i outcome =>
        obtain ⟨task, htask, -⟩ := Option.map_eq_some_iff.mp hstep
        exact Or.inl (hne htask)
    | receive bytes =>
        dsimp only at hstep
        split at hstep
        case isTrue => contradiction
        case isFalse hreads => exact Or.inr (Or.inl hreads)
    | completeRead i ec bytesRead =>
        obtain ⟨operationGeneration, hread, -⟩ := Option.map_eq_some_iff.mp hstep
        exact Or.inr (Or.inl (hne hread))
    | completeWrite i ec =>
        obtain ⟨operation, hwrite, -⟩ := Option.map_eq_some_iff.mp hstep
        exact Or.inr (Or.inr (Or.inl (hne hwrite)))

def Reachable (t : Transport) : Prop := ∃ schedule, exec step Transport.init schedule = some t

theorem reachable_init : Reachable Transport.init := ⟨[], rfl⟩

theorem reachable_step {t u : Transport} {a : Action} (ht : Reachable t)
    (hstep : step t a = some u) : Reachable u := by
  obtain ⟨schedule, hexec⟩ := ht
  refine ⟨schedule ++ [a], exec_append_eq_some.mpr ⟨t, hexec, ?_⟩⟩
  exact exec_cons_eq_some.mpr ⟨u, hstep, rfl⟩

theorem reachable_post {p : Pimpl} (hp : Reachable p.transport)
    (hrunning : p.transport.ended = none) (request : Request) :
    Reachable (p.post request).transport :=
  reachable_step hp (a := .post request) (by simp [step, hrunning, Pimpl.post])

theorem port_of_closing_step {t u : Transport} {a : Action}
    (ht : t.closing = true → t.port = false) (hstep : step t a = some u) :
    u.closing = true → u.port = false := by
  cases step_outcome hstep with
  | openFailed _ _ config port htask hclosing => simp [hclosing]
  | opened _ _ config htask hclosing => simp [hclosing]
  | closed => exact fun _ => rfl
  | readFailed => exact fun _ => rfl
  | writeFailed => exact fun _ => rfl
  | _ => exact ht

theorem released_of_closing {t : Transport} (ht : Reachable t) (hclosing : t.closing = true) :
    Released t := by
  obtain ⟨schedule, hexec⟩ := ht
  have hport : t.closing = true → t.port = false :=
    exec_stable (I := fun t => t.closing = true → t.port = false)
      (fun _ _ _ hs hstep => port_of_closing_step hs hstep) (fun _ => rfl) hexec
  refine ⟨hclosing, hport hclosing, ?_⟩
  intro a u hstep
  obtain ⟨hstopped, hclosed⟩ := (coherent_of_run hexec).closed hclosing
  have hlate : ∀ caller ∈ t.callers, t.called.length ≤ caller.write.call →
      caller.pc = .checkingClosed := fun caller hcaller hcall =>
    absurd (numbered_of_run hexec caller hcaller) (Nat.not_lt.mpr hcall)
  have hsince : ClosedSince t t :=
    ⟨hclosing, hstopped, hclosed, ended_of_step hstep, rfl, rfl, rfl, rfl, rfl, .refl _, .refl _,
      hlate, [], by simp, by simp, by simp⟩
  obtain ⟨later, hlater, hresidual, -⟩ := (closedSince_step hsince hstep).residual
  exact ⟨later, hlater, hresidual⟩

/-- What holds of a `Pimpl`, by whether an object owns it. -/
structure Overseen (owns : Prop) (p : Pimpl) : Prop where
  reachable : Reachable p.transport
  orphan : ¬owns → Referenced p.transport → CloseRequested p.transport
  kept : owns → p.closeCalled = false → ¬CloseRequested p.transport

structure Supervised (s : Program) : Prop where
  nodup : (owned s.objects).Nodup
  inRange : ∀ k ∈ owned s.objects, k < s.pimpls.length
  overseen : ∀ k p, s.pimpls[k]? = some p → Overseen (k ∈ owned s.objects) p

theorem supervised_init : Supervised Program.init := by
  constructor <;> simp [Program.init, owned]

theorem noOrphan_of_supervised {s : Program} (hs : Supervised s) : NoOrphan s := by
  constructor
  · intro k p hp hnot hreferenced
    have hrequested := (hs.overseen k p hp).orphan hnot hreferenced
    refine ⟨hrequested, ?_⟩
    intro hposted
    apply released_of_closing (hs.overseen k p hp).reachable
    rcases hrequested with h | h
    · simp [hposted] at h
    · exact h
  · intro k p hp
    exact (hs.overseen k p hp).kept

theorem supervised_of_perm {s t : Program} (hs : Supervised s) (hpimpls : t.pimpls = s.pimpls)
    (howned : (owned t.objects).Perm (owned s.objects)) : Supervised t := by
  constructor
  · exact howned.nodup_iff.mpr hs.nodup
  · intro k hk
    rw [hpimpls]
    exact hs.inRange k (howned.mem_iff.mp hk)
  · intro k p hp
    rw [howned.mem_iff]
    exact hs.overseen k p (hpimpls ▸ hp)

theorem supervised_constructed {s : Program} (hs : Supervised s) :
    Supervised {
      objects := s.objects ++ [.alive (some s.pimpls.length)]
      pimpls := s.pimpls ++ [⟨Transport.init, false⟩] } := by
  have howned : (owned (s.objects ++ [.alive (some s.pimpls.length)])).Perm
      (s.pimpls.length :: owned s.objects) := owned_concat _ _
  have hfresh : s.pimpls.length ∉ owned s.objects :=
    fun h => Nat.lt_irrefl _ (hs.inRange _ h)
  constructor
  · exact howned.nodup_iff.mpr (List.nodup_cons.mpr ⟨hfresh, hs.nodup⟩)
  · intro k hk
    rw [List.length_append, List.length_singleton]
    rcases List.mem_cons.mp (howned.mem_iff.mp hk) with rfl | hk
    · exact Nat.lt_succ_self _
    · exact Nat.lt_succ_of_lt (hs.inRange k hk)
  · intro k p hp
    rw [howned.mem_iff, List.mem_cons]
    rcases Nat.lt_or_ge k s.pimpls.length with hlt | hge
    · rw [List.getElem?_append_left hlt] at hp
      have hne : k ≠ s.pimpls.length := Nat.ne_of_lt hlt
      simpa [hne] using hs.overseen k p hp
    · obtain ⟨rfl, rfl⟩ : k = s.pimpls.length ∧ p = ⟨Transport.init, false⟩ := by
        obtain ⟨hlt, -⟩ := List.getElem?_eq_some_iff.mp hp
        have hk : k = s.pimpls.length := by
          rw [List.length_append, List.length_singleton] at hlt
          omega
        subst hk
        simpa [eq_comm] using hp
      refine ⟨reachable_init, fun h => absurd (Or.inl rfl) h, fun _ _ => ?_⟩
      simp [CloseRequested, Transport.init]

/-- An object lets go of `Pimpl` `k`, which is taken care of. -/
theorem supervised_of_dropped {s t : Program} (hs : Supervised s) {k : Nat}
    (hpimpls : t.pimpls = s.pimpls) (howned : (owned s.objects).Perm (k :: owned t.objects))
    (hsafe : ∀ p, s.pimpls[k]? = some p → Referenced p.transport → CloseRequested p.transport) :
    Supervised t := by
  have hmem : ∀ {j}, j ∈ owned s.objects ↔ j = k ∨ j ∈ owned t.objects := by
    intro j
    rw [howned.mem_iff, List.mem_cons]
  constructor
  · exact (List.nodup_cons.mp (howned.nodup_iff.mp hs.nodup)).2
  · intro j hj
    rw [hpimpls]
    exact hs.inRange j (hmem.mpr (Or.inr hj))
  · intro j p hp
    rw [hpimpls] at hp
    have hj := hs.overseen j p hp
    refine ⟨hj.reachable, ?_, fun h => hj.kept (hmem.mpr (Or.inr h))⟩
    intro hnot hreferenced
    by_cases heq : j = k
    · subst heq
      exact hsafe p hp hreferenced
    · exact hj.orphan (fun h => (hmem.mp h).elim heq hnot) hreferenced

/-- One `Pimpl` takes a step, and no other changes its owner. -/
theorem supervised_of_update {s : Program} (hs : Supervised s) {k : Nat} {p q : Pimpl}
    (hp : s.pimpls[k]? = some p) {objects : List BasicSerialTransport}
    (hnodup : (owned objects).Nodup)
    (hothers : ∀ j, j ≠ k → (j ∈ owned objects ↔ j ∈ owned s.objects))
    (hq : Overseen (k ∈ owned objects) q) :
    Supervised { objects := objects, pimpls := s.pimpls.set k q } := by
  obtain ⟨hk, -⟩ := List.getElem?_eq_some_iff.mp hp
  constructor
  · exact hnodup
  · intro j hj
    rw [List.length_set]
    by_cases heq : j = k
    · exact heq ▸ hk
    · exact hs.inRange j ((hothers j heq).mp hj)
  · intro j r hr
    by_cases heq : j = k
    · subst heq
      obtain rfl : q = r := by simpa [hk] using hr
      exact hq
    · rw [List.getElem?_set_ne (Ne.symm heq)] at hr
      rw [hothers j heq]
      exact hs.overseen j r hr

theorem mem_owned_of_alive {objects : List BasicSerialTransport} {i k : Nat}
    (h : objects[i]? = some (.alive (some k))) : k ∈ owned objects := by
  rw [(owned_perm_eraseIdx h).mem_iff]
  exact List.mem_append_left _ (by simp [BasicSerialTransport.pimpl])

/-- A `Pimpl` keeps its owner and takes a step that asks for no close. -/
theorem supervised_of_step {s : Program} (hs : Supervised s) {k : Nat} {p : Pimpl}
    {t : Transport} {a : Action} (ha : ∀ request, a ≠ .post request)
    (hp : s.pimpls[k]? = some p) (hstep : step p.transport a = some t)
    (hreferenced : k ∉ owned s.objects → Referenced p.transport) :
    Supervised { s with pimpls := s.pimpls.set k { p with transport := t } } := by
  have hk := hs.overseen k p hp
  have hrequested := closeRequested_step_iff ha hstep
  apply supervised_of_update hs hp hs.nodup (fun _ _ => Iff.rfl)
  constructor
  · exact reachable_step hk.reachable hstep
  · intro hnot _
    exact hrequested.mpr (hk.orphan hnot (hreferenced hnot))
  · intro howned hcalled
    exact mt hrequested.mp (hk.kept howned hcalled)

theorem supervised_destroyed {s : Program} (hs : Supervised s) {object k : Nat} {p : Pimpl}
    (hobject : s.objects[object]? = some (.alive (some k))) (hpimpl : s.pimpls[k]? = some p)
    (hrunning : p.transport.ended = none) :
    Supervised {
      objects := s.objects.set object .destroyed
      pimpls := s.pimpls.set k (p.post .close) } := by
  have howned : (owned s.objects).Perm (k :: owned (s.objects.set object .destroyed)) :=
    (owned_perm_eraseIdx hobject).trans ((owned_perm_set hobject .destroyed).symm.cons k)
  obtain ⟨hnot, hnodup⟩ := List.nodup_cons.mp (howned.nodup_iff.mp hs.nodup)
  apply supervised_of_update hs hpimpl hnodup
  · intro j hne
    rw [howned.mem_iff, List.mem_cons, or_iff_right hne]
  · constructor
    · exact reachable_post (hs.overseen k p hpimpl).reachable hrunning .close
    · intro _ _
      exact (closeRequested_post_iff p .close).mpr (Or.inl rfl)
    · intro howns
      exact absurd howns hnot

theorem supervised_called {s : Program} (hs : Supervised s) {object k : Nat} {p : Pimpl}
    (hobject : s.objects[object]? = some (.alive (some k))) (hpimpl : s.pimpls[k]? = some p)
    (hrunning : p.transport.ended = none) (request : Request) :
    Supervised { s with pimpls := s.pimpls.set k (callMethod request p) } := by
  have hk := hs.overseen k p hpimpl
  have howns := mem_owned_of_alive hobject
  apply supervised_of_update hs hpimpl hs.nodup (fun _ _ => Iff.rfl)
  constructor
  · exact reachable_post hk.reachable hrunning request
  · intro hnot
    exact absurd howns hnot
  · intro _ hcalled
    obtain ⟨hcalled, hrequest⟩ : p.closeCalled = false ∧ request ≠ .close := by
      simpa [callMethod] using hcalled
    intro h
    rcases (closeRequested_post_iff p request).mp h with h | h
    · exact hrequest h
    · exact hk.kept howns hcalled h

theorem supervised_step {s t : Program} {a : ObjectAction} (hs : Supervised s)
    (hsafe : SafeAssign s a) (hstep : objectStep s a = some t) : Supervised t := by
  cases objectStep_outcome hstep with
  | constructed => exact supervised_constructed hs
  | moveConstructed other pimpl hother =>
      exact supervised_of_perm hs rfl (owned_moveConstructed hother)
  | selfAssigned => exact hs
  | moveAssigned object other dropped pimpl hne hobject hother =>
      have howned := owned_moveAssigned hne hobject hother
      cases dropped with
      | none => exact supervised_of_perm hs rfl howned.symm
      | some k =>
          refine supervised_of_dropped hs rfl howned ?_
          rcases hsafe with heq | hsafe
          · exact absurd heq hne
          · exact hsafe k (by simp [hobject, BasicSerialTransport.pimpl])
  | destroyedEmpty object hobject =>
      refine supervised_of_perm hs rfl ?_
      exact (owned_perm_set hobject .destroyed).trans (owned_perm_eraseIdx hobject).symm
  | destroyed object k p hobject hpimpl =>
      exact supervised_destroyed hs hobject hpimpl (running_of_objectStep hstep hpimpl)
  | called object request k p hobject hpimpl =>
      exact supervised_called hs hobject hpimpl (running_of_objectStep hstep hpimpl) request
  | entered object toWrite packetID k p t hobject hpimpl hrun =>
      apply supervised_of_step hs (by simp) hpimpl hrun
      intro hnot
      exact absurd (mem_owned_of_alive hobject) hnot
  | ran k a p t ha hpimpl hrun =>
      refine supervised_of_step hs ?_ hpimpl hrun fun _ => referenced_of_step ha hrun
      rintro request rfl
      simp [isStrandAction] at ha

theorem not_noOrphan_of_not_safeAssign {s t : Program} {a : ObjectAction} (hs : Supervised s)
    (hnotSafe : ¬SafeAssign s a) (hstep : objectStep s a = some t) : ¬NoOrphan t := by
  intro hnone
  cases objectStep_outcome hstep with
  | moveAssigned object other dropped pimpl hne hobject hother =>
      apply hnotSafe
      refine Or.inr ?_
      intro k hk p hp hreferenced
      obtain rfl : dropped = some k := by
        simpa [hobject, BasicSerialTransport.pimpl] using hk
      have howned := owned_moveAssigned hne hobject hother
      have hnot := (List.nodup_cons.mp (howned.nodup_iff.mp hs.nodup)).1
      exact (hnone.orphans k p hp hnot hreferenced).1
  | selfAssigned => exact hnotSafe (Or.inl rfl)
  | _ => exact hnotSafe trivial

/-- No open transport is orphaned in exactly the runs without a move assignment over
an object whose `Pimpl` is in use. -/
theorem noOrphan_iff_safeAssign (schedule : List ObjectAction) (s : Program)
    (hexec : exec objectStep Program.init schedule = some s) :
    Always objectStep NoOrphan Program.init schedule ↔
      Meets objectStep SafeAssign Program.init schedule :=
  always_iff_meets (fun _ _ _ hs hsafe hstep => supervised_step hs hsafe hstep)
    (fun _ hs => noOrphan_of_supervised hs)
    (fun _ _ _ hs hnotSafe hstep => not_noOrphan_of_not_safeAssign hs hnotSafe hstep)
    supervised_init hexec

/-- The object on the left of the assignment has its port open. -/
def orphaningSchedule : List ObjectAction :=
  [.construct, .call 0 (.openPort defaultBufferConfig), .strand 0 (.run 0 .succeeds), .construct,
    .moveAssign 0 1]

theorem orphaned_orphaningSchedule :
    ∃ s, exec objectStep Program.init orphaningSchedule = some s ∧ 0 ∉ owned s.objects ∧
      (∃ p, s.pimpls[0]? = some p ∧ p.transport.port = true ∧ p.transport.reads = [1] ∧
        ¬CloseRequested p.transport) ∧ ¬NoOrphan s := by
  have horphaned : ∃ s, exec objectStep Program.init orphaningSchedule = some s ∧
      0 ∉ owned s.objects ∧
      ∃ p, s.pimpls[0]? = some p ∧ p.transport.port = true ∧ p.transport.reads = [1] ∧
        ¬CloseRequested p.transport := by
    refine ⟨(exec objectStep Program.init orphaningSchedule).get (by decide), by simp,
      by decide, (((exec objectStep Program.init orphaningSchedule).get (by decide)).pimpls[0]?).get
        (by decide), by simp, by decide, by decide, by decide⟩
  obtain ⟨s, hexec, hnot, p, hp, hport, hreads, hrequested⟩ := horphaned
  refine ⟨s, hexec, hnot, ⟨p, hp, hport, hreads, hrequested⟩, ?_⟩
  intro hnone
  have hreferenced : Referenced p.transport := Or.inr (Or.inl (by simp [hreads]))
  exact hrequested (hnone.orphans 0 p hp hnot hreferenced).1

/-- A `Pimpl` moves on to a new object, whose destructor closes it. -/
def handedOnSchedule : List ObjectAction :=
  [.construct, .call 0 (.openPort defaultBufferConfig), .strand 0 (.run 0 .succeeds),
    .moveConstruct 0, .construct, .moveAssign 0 2, .destroy 1, .strand 0 (.run 0 .succeeds)]

theorem noOrphan_handedOnSchedule :
    Always objectStep NoOrphan Program.init handedOnSchedule :=
  (noOrphan_iff_safeAssign handedOnSchedule
    ((exec objectStep Program.init handedOnSchedule).get (by decide)) (by simp)).mpr (by decide)

end EasyLoRa.Ownership
