import EasyLoRa.WriteFate

namespace EasyLoRa.StaleCompletions

open EasyLoRa.IndexedLists
open EasyLoRa.TransportModel
open EasyLoRa.TransportSystem
open EasyLoRa.TransportOutcomes
open EasyLoRa.TransitionSystem
open EasyLoRa.WriteFate

/-- An open or close task takes effect, or an operation of the session fails for
good. Where the failure is undefined behaviour nothing follows it. -/
def ends (s : Transport) (a : Action) : Bool :=
  interrupts s a ||
    match a with
    | .completeWrite i ec =>
        failing s i ec && ec ≠ .notFound && (s.txDeque ≠ [] || s.writeHandler = none)
    | _ => false

def opens (s : Transport) : Action → Bool
  | .run i _ => opening s i
  | _ => false

def fatalErrors (s : Transport) : Nat := s.events.countP isFatalError

theorem generation_of_step {s t : Transport} {a : Action} (hstep : step s a = some t) :
    t.generation = if ends s a then nextGeneration s.generation else s.generation := by
  cases step_outcome hstep with
  | suppressed i outcome request htask hclosing =>
      cases request <;> simp [ends, interrupts, opening, htask, hclosing]
  | openFailed i outcome config port htask hclosing =>
      simp [ends, interrupts, opening, htask, hclosing]
  | opened i outcome config htask hclosing =>
      simp [ends, interrupts, opening, htask, hclosing]
  | closed i outcome htask hclosing => simp [ends, interrupts, htask, hclosing]
  | handlersSet i outcome request fh feh reh wh htask hclosing hset =>
      cases hset <;> simp [ends, interrupts, opening, htask]
  | cancelled i outcome w htask => simp [ends, interrupts, opening, htask]
  | queued i outcome w htask => simp [ends, interrupts, opening, htask]
  | started i outcome w htask => simp [ends, interrupts, opening, htask]
  | readIgnored i ec bytesRead operationGeneration hread hstale =>
      simp [ends, interrupts, hread, hstale]
  | delivered i bytesRead hread => simp [ends, interrupts, hread]
  | readRecovered i bytesRead hread => simp [ends, interrupts, hread]
  | readFailed i ec bytesRead hread hlive hsuccess hfatal =>
      simp [ends, interrupts, hread, hlive, hsuccess, hfatal]
  | writeIgnored i ec operation hwrite hstale =>
      simp [ends, interrupts, failing, hwrite, hstale]
  | writtenLast i operation w hwrite => simp [ends, interrupts, failing, hwrite]
  | writtenNext i operation w next rest hwrite => simp [ends, interrupts, failing, hwrite]
  | writeRecovered => simp [ends, interrupts]
  | writeFailed i ec operation failure hwrite hlive hsuccess hfatal hfailure hnone =>
      have hfront : s.txDeque ≠ [] ∨ s.writeHandler = none := by
        by_cases hqueue : s.txDeque = []
        · exact Or.inr (hnone hqueue).2
        · exact Or.inl hqueue
      simp [ends, failing, hwrite, hlive, hsuccess, hfatal, hfront]
  | undefined i ec operation hwrite hlive hqueue hfront =>
      rcases hfront with rfl | hhandler
      · simp [ends, interrupts, failing, hwrite]
      · simp [ends, interrupts, hqueue, Option.isSome_iff_ne_none.mp hhandler]
  | _ => simp [ends, interrupts]

/-- No outstanding operation captured a generation that is still to come. -/
structure Captured (s : Transport) : Prop where
  reads : ∀ operationGeneration ∈ s.reads, operationGeneration ≤ s.generation
  writes : ∀ operation ∈ s.writes, operation.generation ≤ s.generation

theorem captured_mono {s t : Transport} (hs : Captured s) (hle : s.generation ≤ t.generation)
    (hreads : ∀ g ∈ t.reads, g ∈ s.reads ∨ g = t.generation)
    (hwrites : ∀ operation ∈ t.writes,
      operation ∈ s.writes ∨ operation.generation = t.generation) : Captured t := by
  constructor
  · intro g hg
    rcases hreads g hg with h | h
    · exact Nat.le_trans (hs.reads g h) hle
    · exact Nat.le_of_eq h
  · intro operation hoperation
    rcases hwrites operation hoperation with h | h
    · exact Nat.le_trans (hs.writes operation h) hle
    · exact Nat.le_of_eq h

theorem reads_of_step {s t : Transport} {a : Action} (hstep : step s a = some t) :
    ∀ g ∈ t.reads, g ∈ s.reads ∨ g = t.generation := by
  have herase : ∀ i, ∀ g ∈ s.reads.eraseIdx i, g ∈ s.reads :=
    fun i g hg => List.mem_of_mem_eraseIdx hg
  intro g hg
  cases step_outcome hstep with
  | opened => exact (List.mem_append.mp hg).imp_right List.mem_singleton.mp
  | readIgnored i => exact Or.inl (herase i g hg)
  | delivered i => exact (List.mem_append.mp hg).imp (herase i g) List.mem_singleton.mp
  | readRecovered i => exact (List.mem_append.mp hg).imp (herase i g) List.mem_singleton.mp
  | readFailed i => exact Or.inl (herase i g hg)
  | writeRecovered => exact (List.mem_append.mp hg).imp_right List.mem_singleton.mp
  | _ => exact Or.inl hg

theorem writes_of_step {s t : Transport} {a : Action} (hstep : step s a = some t) :
    ∀ operation ∈ t.writes, operation ∈ s.writes ∨ operation.generation = t.generation := by
  have herase : ∀ i, ∀ operation ∈ s.writes.eraseIdx i, operation ∈ s.writes :=
    fun i operation h => List.mem_of_mem_eraseIdx h
  intro operation hoperation
  cases step_outcome hstep with
  | started i outcome w =>
      refine (List.mem_append.mp hoperation).imp_right fun h => ?_
      rw [List.mem_singleton.mp h]
  | writeIgnored i => exact Or.inl (herase i _ hoperation)
  | writtenLast i => exact Or.inl (herase i _ hoperation)
  | writtenNext i done w next =>
      refine (List.mem_append.mp hoperation).imp (herase i _) fun h => ?_
      rw [List.mem_singleton.mp h]
  | writeRecovered i => exact Or.inl (herase i _ hoperation)
  | writeFailed i => exact Or.inl (herase i _ hoperation)
  | undefined i => exact Or.inl (herase i _ hoperation)
  | _ => exact Or.inl hoperation

/-- Until the counter would wrap, `generation` counts the ends of sessions. -/
theorem captured_of_run {s t : Transport} {schedule : List Action} (hs : Captured s)
    (hfew : s.generation + tally step ends s schedule ≤ sizeMax)
    (hexec : exec step s schedule = some t) :
    Captured t ∧ t.generation = s.generation + tally step ends s schedule := by
  induction schedule generalizing s with
  | nil =>
      obtain rfl : s = t := Option.some.inj hexec
      exact ⟨hs, rfl⟩
  | cons a schedule ih =>
      obtain ⟨r, hstep, hrest⟩ := exec_cons_eq_some.mp hexec
      rw [tally_cons hstep] at hfew ⊢
      have hgeneration : r.generation = s.generation + (ends s a).toNat := by
        rw [generation_of_step hstep]
        cases hends : ends s a with
        | false => rfl
        | true =>
            have hne : s.generation ≠ sizeMax := by
              simp only [hends, Bool.toNat_true] at hfew
              omega
            simp [nextGeneration, hne]
      have hcaptured : Captured r :=
        captured_mono hs (by omega) (reads_of_step hstep) (writes_of_step hstep)
      obtain ⟨ht, heq⟩ := ih hcaptured (by omega) hrest
      exact ⟨ht, by omega⟩

theorem completeRead_stale {s t : Transport} {i bytesRead operationGeneration : Nat}
    {ec : ErrorCode} (hread : s.reads[i]? = some operationGeneration)
    (hold : operationGeneration < s.generation)
    (hstep : step s (.completeRead i ec bytesRead) = some t) :
    t = { s with reads := s.reads.eraseIdx i } := by
  have hne : ∀ g, s.reads[i]? = some g → g ≠ s.generation := by
    intro g hg
    rw [hread] at hg
    exact Option.some.inj hg ▸ Nat.ne_of_lt hold
  cases step_outcome hstep with
  | readIgnored => rfl
  | delivered _ _ hlive => exact absurd rfl (hne _ hlive)
  | readRecovered _ _ hlive => exact absurd rfl (hne _ hlive)
  | readFailed _ _ _ hlive => exact absurd rfl (hne _ hlive)

theorem completeWrite_stale {s t : Transport} {i : Nat} {ec : ErrorCode}
    {operation : WriteOperation} (hwrite : s.writes[i]? = some operation)
    (hold : operation.generation < s.generation)
    (hstep : step s (.completeWrite i ec) = some t) :
    t = { s with writes := s.writes.eraseIdx i } := by
  have hdead : ∀ done, s.writes[i]? = some done → ¬ Live s done.generation := by
    rintro done hdone ⟨-, -, hgeneration⟩
    rw [hwrite] at hdone
    obtain rfl := Option.some.inj hdone
    omega
  cases step_outcome hstep with
  | writeIgnored => rfl
  | writtenLast _ _ w hdone hlive => exact absurd hlive (hdead _ hdone)
  | writtenNext _ _ w next rest hdone hlive => exact absurd hlive (hdead _ hdone)
  | writeRecovered _ _ failure hdone hlive => exact absurd hlive (hdead _ hdone)
  | writeFailed _ _ _ failure hdone hlive => exact absurd hlive (hdead _ hdone)
  | undefined _ _ _ hdone hlive => exact absurd hlive (hdead _ hdone)

theorem countP_fatalCalls_le (handler : Option Handler) (ec : ErrorCode) :
    (fatalCalls handler ec).countP isFatalError ≤ 1 := by
  refine Nat.le_trans List.countP_le_length ?_
  unfold fatalCalls
  split
  · cases clarifyFatalError ec <;> simp
  · simp

/-- A fatal error stops the transport, and only an open task starts it again. -/
theorem fatalErrors_step {s t : Transport} {a : Action} (hstep : step s a = some t) :
    fatalErrors t + (!t.stopped).toNat ≤
      fatalErrors s + (!s.stopped).toNat + (opens s a).toNat := by
  cases step_outcome hstep with
  | refused => simp [fatalErrors, isFatalError]
  | scheduled => simp [fatalErrors, isFatalError]
  | openFailed =>
      simp only [fatalErrors, List.countP_append, Bool.not_true, Bool.toNat_false]
      simp only [isFatalError, List.countP_cons, List.countP_nil]
      simp only [Bool.false_eq_true, if_false]
      omega
  | opened i outcome config htask hclosing =>
      simp [fatalErrors, isFatalError, opens, opening, htask, hclosing]
  | closed =>
      simp only [fatalErrors, List.countP_append, Bool.not_true, Bool.toNat_false]
      simp only [isFatalError, List.countP_cons, List.countP_nil]
      simp only [Bool.false_eq_true, if_false]
      omega
  | cancelled => simp [fatalErrors, countP_calls, isFatalError]
  | started => simp [fatalErrors, isFatalError]
  | delivered => simp [fatalErrors, countP_calls, isFatalError]
  | readRecovered => simp [fatalErrors, countP_calls, isFatalError]
  | readFailed i ec bytesRead hread hlive =>
      have hfatal := countP_fatalCalls_le s.fatalErrorHandler ec
      simp only [fatalErrors, List.countP_append, hlive.2.1]
      simp [isFatalError]
      omega
  | writtenLast => simp [fatalErrors, countP_calls, isFatalError]
  | writtenNext => simp [fatalErrors, countP_calls, isFatalError]
  | writeRecovered i operation failure hwrite hlive hfailure hnone =>
      have hfailed := countP_failure_eq_zero (p := isFatalError) hfailure hnone fun _ _ => rfl
      simp [fatalErrors, countP_calls, hfailed, isFatalError]
  | writeFailed i ec operation failure hwrite hlive hsuccess hfatal hfailure hnone =>
      have hone := countP_fatalCalls_le s.fatalErrorHandler ec
      have hfailed := countP_failure_eq_zero (p := isFatalError) hfailure hnone fun _ _ => rfl
      simp only [fatalErrors, List.countP_append, hlive.2.1, hfailed]
      simp [isFatalError]
      omega
  | _ => exact Nat.le_add_right _ _

theorem captured_init : Captured Transport.init :=
  ⟨by simp [Transport.init], by simp [Transport.init]⟩

/-- Once a session has ended, the operations that were outstanding before complete
without effect; and the fatal error handler is called at most once until the next
open task. -/
theorem stale_completions_inert (schedule more : List Action) (s t : Transport)
    (hreach : exec step Transport.init schedule = some s) (hmore : exec step s more = some t)
    (hfew : tally step ends Transport.init schedule + tally step ends s more ≤ sizeMax) :
    (0 < tally step ends s more →
      (∀ operationGeneration ∈ s.reads, ∀ i ec bytesRead u,
        t.reads[i]? = some operationGeneration → step t (.completeRead i ec bytesRead) = some u →
          u = { t with reads := t.reads.eraseIdx i }) ∧
      (∀ operation ∈ s.writes, ∀ i ec u,
        t.writes[i]? = some operation → step t (.completeWrite i ec) = some u →
          u = { t with writes := t.writes.eraseIdx i })) ∧
    (tally step opens s more = 0 → fatalErrors t ≤ fatalErrors s + 1) := by
  have hinit : Transport.init.generation = 0 := rfl
  obtain ⟨hs, hgeneration⟩ := captured_of_run captured_init (by omega) hreach
  obtain ⟨-, hlater⟩ := captured_of_run hs (by omega) hmore
  constructor
  · intro hended
    constructor
    · intro operationGeneration hmem i ec bytesRead u hread hstep
      have hold := hs.reads operationGeneration hmem
      exact completeRead_stale hread (by omega) hstep
    · intro operation hmem i ec u hwrite hstep
      have hold := hs.writes operation hmem
      exact completeWrite_stale hwrite (by omega) hstep
  · intro hopens
    have hfatal := exec_le_tally (p := opens)
      (f := fun s => fatalErrors s + (!s.stopped).toNat)
      (fun _ _ _ hstep => fatalErrors_step hstep) hmore
    have hone := Bool.toNat_le (!s.stopped)
    simp only [hopens] at hfatal
    omega

def writingRun : List Action :=
  [.post (.openPort defaultBufferConfig), .run 0 .succeeds, .asyncWrite [1] 7, .advance 0,
    .advance 0, .advance 0, .advance 0, .run 0 .succeeds]

def writingTransport : Transport := (exec step Transport.init writingRun).get (by decide)

/-- The device is unplugged and opened again while a write is outstanding. -/
def replugging : List Action :=
  [.completeRead 0 .eof 0, .post (.openPort defaultBufferConfig), .run 0 .succeeds]

theorem stale_completions_inert_replugging :
    ∃ t, exec step writingTransport replugging = some t ∧ isOpen t = true ∧
      t.writes = [⟨1, ⟨[1], 7, 0, 1⟩⟩] ∧
      ∀ ec u, step t (.completeWrite 0 ec) = some u → u = { t with writes := [] } := by
  refine ⟨(exec step writingTransport replugging).get (by decide), by simp, by decide, by decide,
    fun ec u hstep => ?_⟩
  have hinert := stale_completions_inert writingRun replugging writingTransport
    ((exec step writingTransport replugging).get (by decide)) (by simp [writingTransport])
    (by simp) (by decide)
  exact (hinert.1 (by decide)).2 ⟨1, ⟨[1], 7, 0, 1⟩⟩ (by decide) 0 ec u (by decide) hstep

end EasyLoRa.StaleCompletions
